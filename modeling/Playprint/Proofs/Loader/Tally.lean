import Mathlib.Algebra.BigOperators.Fin
import Playprint.Proofs.Loader.Attached
import Playprint.Proofs.Loader.History

/-!
What a loader that succeeds has booked. The identities of new actors follow those that were logged before,
without a gap, and the sets of the table hold one more role for every actor that came with one. Roles come to
the sets on two paths, so both are shown to book as many as they mark in the slots.
-/

namespace Playprint

open Step (Matched)

/-! ### Casts -/

namespace Cast

variable {before after cast : Cast} {slot : Standing} {set : SetHandle} {index : Nat}

/-- How many slots are attached. -/
def attachedCount (cast : Cast) : Nat := cast.slots.countP Standing.attached

/-- Only slots with a set are attached. -/
def Marked (cast : Cast) : Prop := ∀ slot ∈ cast.slots, slot.attached = true → slot.set.isSome

/-- Nothing was hung and no slot attached, or one role was hung on the set of its slot. -/
inductive Books (before after : Cast) : Prop
  | nothing (hhung : after.hung = before.hung) (hcount : after.attachedCount = before.attachedCount)
  | role {slot : Standing} {set : SetHandle} (entry : Attachment) (hslot : slot ∈ before.slots)
      (hset : slot.set = some set)
      (hhung : after.hung = Function.update before.hung set (before.hung set ++ [entry]))
      (hcount : after.attachedCount = before.attachedCount + 1)

/-- Changing a slot changes the count by what the slot itself counts. -/
theorem countP_set {slots : List Standing} (hslot : slots[index]? = some slot) (changed : Standing) :
    (slots.set index changed).countP Standing.attached + slot.attached.toNat =
      slots.countP Standing.attached + changed.attached.toNat := by
  induction slots generalizing index with
  | nil => cases hslot
  | cons first rest ih =>
      cases index with
      | zero =>
          cases hslot
          simp only [List.set_cons_zero, List.countP_cons]
          cases slot.attached <;> cases changed.attached <;> simp
      | succ index =>
          have hrest := ih hslot
          simp only [List.set_cons_succ, List.countP_cons]
          omega

theorem books_hang (parent : Option ObjectId) (hslot : cast.slots[index]? = some slot)
    (hfree : slot.attached = false) (hset : slot.set = some set) :
    Books cast (cast.hang index slot set parent) := by
  have hcount := countP_set hslot { slot with attached := true }
  rw [hfree] at hcount
  exact .role ⟨parent, slot.id⟩ (List.mem_of_getElem? hslot) hset rfl hcount

theorem books_step {tie : Option (Nat × Nat)} (hstep : Step before tie after) : Books before after := by
  cases hstep with
  | still hstages => exact .nothing rfl rfl
  | create hstages => exact .nothing rfl (by simp [attachedCount])
  | @bind index stages slot set hstages hslot hset =>
      have hcount := countP_set hslot { slot with role := some slot.id, set := some set }
      exact .nothing rfl (Nat.add_right_cancel hcount)
  | under hne hupper hlower hfree hset hsame hfresh => exact books_hang _ hlower hfree hsame

theorem books_rest (hrest : Rest before after) : Books before after := by
  cases hrest with
  | skip => exact .nothing rfl rfl
  | hang hslot hfree hset hfresh => exact books_hang _ hslot hfree hset

theorem Marked.hang (hmarked : cast.Marked) (parent : Option ObjectId) (hset : slot.set = some set) :
    (cast.hang index slot set parent).Marked := by
  intro found hfound hattached
  rcases List.mem_or_eq_of_mem_set hfound with hold | rfl
  · exact hmarked found hold hattached
  · exact Option.isSome_of_mem hset

theorem Marked.step {tie : Option (Nat × Nat)} (hmarked : before.Marked)
    (hstep : Step before tie after) : after.Marked := by
  cases hstep with
  | still hstages => exact hmarked
  | create hstages =>
      intro found hfound hattached
      rcases List.mem_append.mp hfound with hold | hnew
      · exact hmarked found hold hattached
      · rw [List.mem_singleton.mp hnew] at hattached
        cases hattached
  | bind hstages hslot hset =>
      intro found hfound hattached
      rcases List.mem_or_eq_of_mem_set hfound with hold | rfl
      · exact hmarked found hold hattached
      · rfl
  | under hne hupper hlower hfree hset hsame hfresh => exact hmarked.hang _ hsame

theorem Marked.rest (hmarked : before.Marked) (hrest : Rest before after) : after.Marked := by
  cases hrest with
  | skip => exact hmarked
  | hang hslot hfree hset hfresh => exact hmarked.hang _ hset

/-- Identities count up from the first one of the run. -/
theorem Fair.ids {first : Nat} (hfair : cast.Fair first) :
    cast.slots.map (·.id.value) = List.range' first cast.slots.length := by
  apply List.ext_getElem
  · rw [List.length_map, List.length_range']
  intro index hindex _
  rw [List.length_map] at hindex
  rw [List.getElem_map, List.getElem_range', Nat.one_mul]
  have hid := hfair.sound.id index _ (List.getElem?_eq_getElem hindex)
  have hcount := hfair.count
  omega

end Cast

/-! ### Loaders -/

namespace Loader

variable {title : Title Stock.catalog} {container : Container} {scene : Option String}
  {before after loader left : Loader Stock.catalog} {records : List (ActorRecord Stock.catalog)}

/-- How many roles hang on the sets of the table. -/
def roleCount (loader : Loader Stock.catalog) : Nat :=
  ∑ index ∈ Finset.range loader.host.sets.size, (loader.attachmentsAt index).length

/-- A loader at work in a scene, whose roles hang on sets of its table only. -/
structure Booked (title : Title Stock.catalog) (container : Container) (scene : Option String)
    (loader : Loader Stock.catalog) : Prop where
  kept : Kept title container loader
  sound : loader.Sound
  around : loader.host.around = ⟨none, scene⟩
  hosted : ∀ set, loader.world.attachments set ≠ [] → ∃ index, loader.host.sets.cached? index = some set

theorem attachments_map_raise_zero (entries : List Attachment) :
    entries.map (Attachment.raise 0) = entries := by
  have hraise : Attachment.raise 0 = id := by
    funext ⟨parent, child⟩
    cases parent <;> simp [Attachment.raise, ObjectId.raise]
  rw [hraise, List.map_id]

/-- What a loader is compared with itself against. -/
def mirror (title : Title Stock.catalog) (container : Container) (scene : Option String)
    (loader : Loader Stock.catalog) : Frame where
  title := title
  container := container
  raised := 0
  hung _ := []
  scene := scene
  seen := (loader.host.sets, loader.host.sets)

theorem Booked.alongside (h : Booked title container scene loader) :
    Alongside (mirror title container scene loader) loader loader where
  twin := by
    refine ⟨h.kept, h.kept, fun _ => id, fun index => ?_, (Nat.zero_add _).symm, ⟨h.around, h.around⟩,
      .refl _, .refl _⟩
    show _ = [] ++ _
    rw [List.nil_append]
    exact (attachments_map_raise_zero _).symm
  sound := h.sound
  sound' := h.sound

/-! ### Sets that roles were hung on -/

/-- Sets that the table has not kept before hold nothing. -/
theorem Booked.attachmentsAt_eq (h : Booked title container scene before) (hkept : Kept title container after)
    (hgrown : before.host.sets.Grown after.host.sets) (index : Nat) {set : SetHandle}
    (hset : after.host.sets.cached? index = some set) :
    before.attachmentsAt index = before.world.attachments set := by
  cases hbefore : before.host.sets.cached? index with
  | some found =>
      obtain rfl := Option.some.inj ((hgrown index found hbefore).symm.trans hset)
      exact attachmentsAt_of_some hbefore
  | none =>
      rw [attachmentsAt_of_none hbefore]
      by_cases hempty : before.world.attachments set = []
      · exact hempty.symm
      · obtain ⟨other, hother⟩ := h.hosted set hempty
        obtain rfl := hkept.apart _ _ _ (hgrown other set hother) hset
        cases hbefore.symm.trans hother

/-- A table that grows shows the roles that were hung, and no others. -/
theorem Booked.attachmentsAt_of_hung (h : Booked title container scene before)
    (hkept : Kept title container after) (hgrown : before.host.sets.Grown after.host.sets) {index : Nat}
    {more : List Attachment}
    (hmore : ∀ set, after.host.sets.cached? index = some set →
      after.world.attachments set = before.world.attachments set ++ more)
    (hnone : after.host.sets.cached? index = none → more = []) :
    after.attachmentsAt index = before.attachmentsAt index ++ more := by
  cases hafter : after.host.sets.cached? index with
  | some set =>
      rw [attachmentsAt_of_some hafter, hmore set hafter, h.attachmentsAt_eq hkept hgrown index hafter]
  | none =>
      have hbefore : before.host.sets.cached? index = none := by
        cases hfound : before.host.sets.cached? index with
        | none => rfl
        | some set => cases hafter.symm.trans (hgrown index set hfound)
      rw [attachmentsAt_of_none hafter, attachmentsAt_of_none hbefore, hnone hafter, List.append_nil]

theorem Booked.hung_nothing (h : Booked title container scene before) (hkept : Kept title container after)
    (hgrown : before.host.sets.Grown after.host.sets)
    (hhung : after.world.attachments = before.world.attachments) :
    after.roleCount = before.roleCount ∧
      ∀ set, after.world.attachments set ≠ [] → ∃ index, after.host.sets.cached? index = some set := by
  refine ⟨?_, fun set hset => ?_⟩
  · have hsame (index : Nat) : after.attachmentsAt index = before.attachmentsAt index := by
      rw [h.attachmentsAt_of_hung hkept hgrown (fun set _ => ?_) fun _ => rfl, List.append_nil]
      rw [hhung, List.append_nil]
    simp only [roleCount, hkept.size, h.kept.size, hsame]
  · rw [hhung] at hset
    obtain ⟨index, hindex⟩ := h.hosted set hset
    exact ⟨index, hgrown index set hindex⟩

theorem Booked.hung_role (h : Booked title container scene before) (hkept : Kept title container after)
    (hgrown : before.host.sets.Grown after.host.sets) {index : Nat} {set : SetHandle} {entry : Attachment}
    (hset : before.host.sets.cached? index = some set)
    (hhung : after.world.attachments =
      Function.update before.world.attachments set (before.world.attachments set ++ [entry])) :
    after.roleCount = before.roleCount + 1 ∧
      ∀ set, after.world.attachments set ≠ [] → ∃ index, after.host.sets.cached? index = some set := by
  have hset' := hgrown index set hset
  refine ⟨?count, fun other hother => ?hosted⟩
  case count =>
    have hlength (other : Nat) : (after.attachmentsAt other).length =
        (before.attachmentsAt other).length + if other = index then 1 else 0 := by
      by_cases hother : other = index
      · subst hother
        have hadded : after.attachmentsAt other = before.attachmentsAt other ++ [entry] := by
          apply h.attachmentsAt_of_hung hkept hgrown
          · intro found hfound
            obtain rfl := Option.some.inj (hset'.symm.trans hfound)
            rw [hhung, Function.update_self]
          · intro hnone
            cases hset'.symm.trans hnone
        rw [hadded, List.length_append, if_pos rfl, List.length_singleton]
      · have hsame : after.attachmentsAt other = before.attachmentsAt other ++ [] := by
          apply h.attachmentsAt_of_hung hkept hgrown ?_ fun _ => rfl
          intro found hfound
          have hne : found ≠ set := by
            rintro rfl
            exact hother (hkept.apart _ _ _ hfound hset')
          rw [hhung, Function.update_of_ne hne, List.append_nil]
        rw [hsame, List.append_nil, if_neg hother, Nat.add_zero]
    have hroom : index ∈ Finset.range title.manifest.sets.length := by
      rw [Finset.mem_range, ← h.kept.size]
      obtain ⟨slot, hslot, _⟩ := Option.bind_eq_some_iff.mp hset
      exact (List.getElem?_eq_some_iff.mp hslot).1
    simp only [roleCount, hkept.size, h.kept.size, hlength, Finset.sum_add_distrib, Finset.sum_ite_eq',
      hroom, if_true]
  case hosted =>
    by_cases hsame : other = set
    · exact ⟨index, hsame ▸ hset'⟩
    · rw [hhung, Function.update_of_ne hsame] at hother
      obtain ⟨found, hfound⟩ := h.hosted other hother
      exact ⟨found, hgrown found other hfound⟩

end Loader

/-! ### Replays -/

theorem ActorRecord.raised_zero {K : Catalog} (record : ActorRecord K) : record.Raised 0 record := by
  have hid (id : ObjectId) : id = id.raise 0 := by rw [ObjectId.raise, Nat.zero_add]
  refine ⟨hid _, rfl, rfl, ?_, rfl⟩
  cases record.role with
  | none => rfl
  | some role => rw [Option.map_some, Role.raise, ← hid]

namespace Replay

open Loader (Booked groupHost mirror)

variable {title : Title Stock.catalog} {container : Container} {scene : Option String} {first base : Nat}
  {declared : Nat} {code : Cursor} {loader left : Loader Stock.catalog}
  {before after ended : Replay Stock.catalog Desk}

/-- A replay at work over a loader that held `base` roles: every slot that is attached is a role more. -/
structure AtWork (title : Title Stock.catalog) (container : Container) (scene : Option String)
    (first base : Nat) (replay : Replay Stock.catalog Desk) : Prop where
  orderly : Orderly first replay
  booked : Booked title container scene replay.session
  bound : ∀ (index : Nat) slot, replay.slots[index]? = some slot →
    slot.record.BoundIn replay.session.host.sets
  marked : replay.cast.Marked
  count : Loader.roleCount replay.session = base + replay.cast.attachedCount

theorem AtWork.playing (h : AtWork title container scene first base before) :
    Playing (mirror title container scene before.session) first first before before := by
  refine ⟨h.orderly, h.orderly, h.booked.alongside.twin, rfl, fun index slot other hslot hother => ?_, rfl⟩
  obtain rfl := Option.some.inj (hslot.symm.trans hother)
  exact ⟨slot.record.raised_zero, h.bound index slot hslot, h.bound index slot hslot, rfl⟩

/-- A step that both paths of a replay take books what it marks. -/
theorem AtWork.step (h : AtWork title container scene first base before) (horderly : Orderly first after)
    (habreast : Abreast (mirror title container scene before.session) after after)
    (hmarked : after.cast.Marked) (hbooks : Cast.Books before.cast after.cast) :
    AtWork title container scene first base after := by
  have hkept := habreast.twin.kept
  have hgrown : before.session.host.sets.Grown after.session.host.sets := habreast.twin.grown.1
  have hbound (index : Nat) slot (hslot : after.slots[index]? = some slot) :=
    (habreast.slot index slot slot hslot hslot).bound
  have hcount := h.count
  cases hbooks with
  | nothing hhung hattached =>
      obtain ⟨hroles, hhosted⟩ := h.booked.hung_nothing hkept hgrown hhung
      refine ⟨horderly, ⟨hkept, horderly.ready.session, habreast.twin.around.1, hhosted⟩, hbound, hmarked, ?_⟩
      rw [hroles, hattached, hcount]
  | role entry hmem hset hhung hattached =>
      obtain ⟨slot, hslot, rfl⟩ := mem_cast.mp hmem
      obtain ⟨index, hindex⟩ := List.mem_iff_getElem?.mp hslot
      rw [Array.getElem?_toList] at hindex
      obtain ⟨binding, hbinding, rfl⟩ := Option.map_eq_some_iff.mp hset
      have hcached := h.bound index slot hindex binding hbinding
      obtain ⟨hroles, hhosted⟩ := h.booked.hung_role hkept hgrown hcached hhung
      refine ⟨horderly, ⟨hkept, horderly.ready.session, habreast.twin.around.1, hhosted⟩, hbound, hmarked, ?_⟩
      rw [hroles, hattached, hcount, Nat.add_assoc]

theorem AtWork.execute {instruction : Instruction} (h : AtWork title container scene first base before)
    (hexecute : (execute (.group title declared) (groupHost title) instruction).outcome before =
      (.ok (), after)) : AtWork title container scene first base after := by
  have hends := Playing.execute declared instruction before before h.playing
  rw [show (mirror title container scene before.session).title = title from rfl, hexecute] at hends
  cases hends with
  | ok hplaying =>
      obtain ⟨hstep, _⟩ := step_of_execute h.orderly.ready hexecute
      exact h.step hplaying.orderly hplaying.abreast (h.marked.step hstep) (Cast.books_step hstep)

theorem AtWork.attachRest {index : Nat} (h : AtWork title container scene first base before)
    (hattach : (Replay.attachRest index).outcome before = (.ok (), after)) :
    AtWork title container scene first base after := by
  have hends := h.playing.attachRest index
  rw [hattach] at hends
  cases hends with
  | ok habreast =>
      obtain ⟨hrest, _⟩ := rest_of_attachRest h.orderly.ready hattach
      exact h.step (h.orderly.attachRest hattach) habreast (h.marked.rest hrest) (Cast.books_rest hrest)

theorem atWork_start (h : Booked title container scene loader) :
    AtWork title container scene loader.host.objects.nextId loader.roleCount (start loader) where
  orderly := orderly_start h.sound
  booked := h
  bound _ _ hslot := by cases hslot
  marked _ hslot := by cases hslot
  count := rfl

/-- A replay that succeeds has booked a role for every actor that has one in the end. -/
theorem atWork_of_replay (h : Booked title container scene loader)
    (hreplay : (Loader.replay (.group title declared) (groupHost title) code).outcome loader =
      (.ok ended, left)) :
    left = ended.session ∧
      AtWork title container scene loader.host.objects.nextId loader.roleCount ended ∧
      ∀ slot ∈ ended.cast.slots, slot.set.isSome → slot.attached = true := by
  obtain ⟨hleft, done, last, hend, hrounds, hcall⟩ := replay_ok hreplay
  have hlast := hrounds.keeps (fun _ _ _ hwork => AtWork.execute hwork) (atWork_start h)
  obtain ⟨_, hattached⟩ := rests_of_lastCall hlast.orderly.ready hcall
  rw [lastCall, Step.outcome_bind_ok (Step.outcome_get _)] at hcall
  exact ⟨hleft, Step.forEach_keeps (fun _ _ _ hwork => AtWork.attachRest hwork) hcall hlast, hattached⟩

end Replay

/-! ### Groups and scenes -/

namespace Loader

open Container (Agree)

variable {title : Title Stock.catalog} {container : Container} {scene : Option String}
  {before mid after loader left : Loader Stock.catalog} {records more : List (ActorRecord Stock.catalog)}

/-- These actors were added with their roles, and no others. -/
structure Brings (before : Loader Stock.catalog) (records : List (ActorRecord Stock.catalog))
    (after : Loader Stock.catalog) : Prop where
  ids : records.map (·.id.value) = List.range' before.host.objects.nextId records.length
  nextId : after.host.objects.nextId = before.host.objects.nextId + records.length
  roles : after.roleCount = before.roleCount + records.countP (·.role.isSome)

theorem Brings.nothing (loader : Loader Stock.catalog) : Brings loader [] loader := ⟨rfl, rfl, rfl⟩

theorem Brings.append (hfirst : Brings before records mid) (hsecond : Brings mid more after) :
    Brings before (records ++ more) after where
  ids := by
    rw [List.map_append, hfirst.ids, hsecond.ids, hfirst.nextId, List.length_append]
    exact List.range'_append_1
  nextId := by rw [hsecond.nextId, hfirst.nextId, List.length_append, Nat.add_assoc]
  roles := by rw [hsecond.roles, hfirst.roles, List.countP_append, Nat.add_assoc]

/-- Initialising the actors changes neither their identities nor their roles. -/
theorem Brings.seated (h : Brings before records after) (seats : Loader Stock.catalog) :
    Brings before (records.map seats.seated) after where
  ids := by
    rw [List.map_map, List.length_map]
    exact h.ids
  nextId := by rw [List.length_map, h.nextId]
  roles := by
    rw [List.countP_map]
    exact h.roles

theorem Booked.replay {declared : Nat} {code : Cursor} {ended : Replay Stock.catalog Desk}
    (h : Booked title container scene loader)
    (hreplay : (Loader.replay (.group title declared) (groupHost title) code).outcome loader =
      (.ok ended, left)) :
    Booked title container scene left ∧ Brings loader ended.records left := by
  obtain ⟨rfl, hwork, hattached⟩ := Replay.atWork_of_replay h hreplay
  have hlength : ended.records.length = ended.cast.slots.length := by
    change (ended.slots.toList.map _).length = (ended.slots.toList.map _).length
    rw [List.length_map, List.length_map]
  refine ⟨hwork.booked, ?ids, ?nextId, ?roles⟩
  case ids =>
    rw [hlength, ← hwork.orderly.fair.ids]
    change (ended.slots.toList.map Slot.record).map _ = (ended.slots.toList.map Slot.standing).map _
    rw [List.map_map, List.map_map]
    rfl
  case nextId => rw [hlength, hwork.orderly.fair.count]; rfl
  case roles =>
    rw [hwork.count, Cast.attachedCount]
    change _ + (ended.slots.toList.map Slot.standing).countP _ =
      _ + (ended.slots.toList.map Slot.record).countP _
    rw [List.countP_map, List.countP_map]
    congr 1
    apply List.countP_congr
    intro slot hslot
    have hmem := Replay.mem_cast.mpr ⟨slot, hslot, rfl⟩
    have hrole := Replay.isSome_role_iff hwork.orderly.ready.sound hslot
    exact ⟨fun h => hrole.mpr (hwork.marked _ hmem h), fun h => hattached _ hmem (hrole.mp h)⟩

/-- At most the container has changed, and neither its bytes nor its table of contents. -/
def Handled (before after : Loader Stock.catalog) : Prop :=
  ∃ container, Agree before.host.container container ∧ after = before.withContainer container

theorem handled_chunkCode (tocIndex : Nat) (tag : Tag) :
    Step.Along Handled (chunkCode tocIndex tag : LoadStep Stock.catalog Cursor) := by
  intro loader
  have hcode := paired_chunkCode (.refl loader.host.container) tocIndex tag loader loader beside_refl
  obtain ⟨_, _, ⟨pos, _, rfl, _⟩, hleft, _⟩ := hcode.states (fun _ _ _ _ hsame => hsame.2) fun _ _ => id
  exact ⟨_, Container.agree_moved _ pos, hleft⟩

theorem handled_loadMediaRef (title : Title Stock.catalog) (tocIndex : Nat) :
    Step.Along Handled (loadMediaRef title tocIndex) := by
  intro loader
  have hmedia := paired_loadMediaRef (.refl loader.host.container) title tocIndex loader loader beside_refl
  obtain ⟨one, _, ⟨hagree, _⟩, hleft, _⟩ := (hmedia.mono (fun _ _ _ _ hsame => hsame) fun _ _ => id).states
    (fun _ _ _ _ hsame => hsame.2) fun _ _ => id
  exact ⟨one, hagree, hleft⟩

theorem Booked.handled (h : Booked title container scene before) (hhandled : Handled before after) :
    Booked title container scene after ∧ Brings before [] after := by
  obtain ⟨_, hagree, rfl⟩ := hhandled
  exact ⟨⟨h.kept.withContainer hagree, ⟨h.sound.sets, h.sound.child⟩, h.around, h.hosted⟩, rfl, rfl, rfl⟩

/-- A group that was loaded comes from the head of its chunk and the replay of the byte code behind it. -/
theorem loadGroup_ok {tocIndex : Nat} {group : Group Stock.catalog}
    (h : (loadGroup title tocIndex).outcome loader = (.ok group, left)) :
    ∃ mid head typeIndex rest declared code ended,
      (chunkCode tocIndex Tag.grp).outcome loader = (.ok head, mid) ∧
      Cursor.readWord.outcome head = (.ok typeIndex, rest) ∧
      Cursor.readIndex.outcome rest = (.ok declared, code) ∧
      (Loader.replay (.group title declared) (groupHost title) code).outcome mid = (.ok ended, left) ∧
      group.members = ended.records.map left.seated ∧ group.state = ⟨true⟩ := by
  obtain ⟨head, mid, hhead, h⟩ := Step.outcome_bind_eq_ok_iff.mp h
  obtain ⟨typeIndex, hword, h⟩ := (blind_read _ _).bind_ok h
  obtain ⟨fresh, hfresh, h⟩ := (blind_onWorld (title.blind_newGroup _)).bind_ok h
  obtain ⟨declared, hindex, h⟩ := (blind_read _ _).bind_ok h
  obtain ⟨ended, last, hreplay, h⟩ := Step.outcome_bind_eq_ok_iff.mp h
  rw [outcome_seat] at h
  cases h
  refine ⟨mid, head, _, _, _, _, ended, hhead, (read_ok hword).2, (read_ok hindex).2, hreplay, ?_, rfl⟩
  rw [Title.members_of_newGroup (onWorld_ok hfresh), List.nil_append]

/-- Groups that are loaded one after another, each from the table entry that the next word of a scene names. -/
inductive LoadsGroups (title : Title Stock.catalog) :
    Loader Stock.catalog → Cursor → List UInt32 → List (Group Stock.catalog) → Loader Stock.catalog → Prop
  | done (loader : Loader Stock.catalog) (code : Cursor) : LoadsGroups title loader code [] [] loader
  | load {loader mid left : Loader Stock.catalog} {code rest : Cursor} {word : UInt32} {words : List UInt32}
      {group : Group Stock.catalog} {groups : List (Group Stock.catalog)}
      (hword : Cursor.readWord.outcome code = (.ok word, rest))
      (hgroup : (loadGroup title word.toNat).outcome loader = (.ok group, mid))
      (hmore : LoadsGroups title mid rest words groups left) :
      LoadsGroups title loader code (word :: words) (group :: groups) left

theorem addGroups_ok (count : Nat) {here built : Scene Stock.catalog} {code : Cursor}
    (h : (addGroups title here code count).outcome loader = (.ok built, left)) :
    ∃ words groups, words.length = count ∧ built.groups = here.groups ++ groups ∧
      LoadsGroups title loader code words groups left := by
  induction count generalizing here code loader with
  | zero =>
      cases h
      exact ⟨[], [], rfl, (List.append_nil _).symm, .done _ _⟩
  | succ count ih =>
      obtain ⟨word, hword, h⟩ := (blind_read _ _).bind_ok h
      obtain ⟨group, mid, hgroup, h⟩ := Step.outcome_bind_eq_ok_iff.mp h
      obtain ⟨state, _, h⟩ := (blind_onWorld (World.blind_noted _)).bind_ok h
      obtain ⟨words, groups, hlength, hgroups, hmore⟩ := ih h
      refine ⟨word.1 :: words, group :: groups, congrArg Nat.succ hlength, ?_,
        .load (read_ok hword).2 hgroup hmore⟩
      rw [hgroups, List.append_assoc, List.singleton_append]

theorem Booked.loadGroup (h : Booked title container scene loader) {tocIndex : Nat}
    {group : Group Stock.catalog}
    (hgroup : (Loader.loadGroup title tocIndex).outcome loader = (.ok group, left)) :
    Booked title container scene left ∧ Brings loader group.members left := by
  obtain ⟨mid, head, _, _, declared, code, ended, hhead, _, _, hreplay, hmembers, _⟩ := loadGroup_ok hgroup
  obtain ⟨hmid, hnothing⟩ := h.handled ((handled_chunkCode tocIndex Tag.grp).of_outcome hhead)
  obtain ⟨hleft, hbrings⟩ := hmid.replay hreplay
  rw [hmembers]
  exact ⟨hleft, hnothing.append (hbrings.seated left)⟩

theorem Booked.loadsGroups {words : List UInt32} {groups : List (Group Stock.catalog)} {code : Cursor}
    (h : Booked title container scene loader) (hloads : LoadsGroups title loader code words groups left) :
    Booked title container scene left ∧ Brings loader (groups.flatMap Group.members) left := by
  induction hloads with
  | done => exact ⟨h, .nothing _⟩
  | load _ hgroup _ ih =>
      obtain ⟨hmid, hbrings⟩ := h.loadGroup hgroup
      obtain ⟨hleft, hrest⟩ := ih hmid
      rw [List.flatMap_cons]
      exact ⟨hleft, hbrings.append hrest⟩

theorem Booked.inScene (h : Booked title container scene loader) (other : Option String) :
    Booked title container other (loader.inScene other) where
  kept := ⟨h.kept.agree, h.kept.entries, h.kept.apart, h.kept.finished, h.kept.counted⟩
  sound := ⟨h.sound.sets, h.sound.child⟩
  around := by
    show { loader.host.around with scene := other } = _
    rw [h.around]
  hosted := h.hosted

theorem within_scene_ok {α : Type} {entered : Option String} {body : LoadStep Stock.catalog α} {a : α}
    (h : (within (·.enterScene entered) body).outcome loader = (.ok a, left)) :
    ∃ last, body.outcome (loader.inScene entered) = (.ok a, last) ∧
      left = last.inScene loader.host.around.scene := by
  rw [outcome_within_scene, Prod.mk.injEq] at h
  obtain ⟨hanswer, rfl⟩ := h
  exact ⟨_, Prod.ext hanswer rfl, rfl⟩

/-- A scene that was loaded has the groups that the words behind its class and their number name. -/
theorem loadScene_ok {tocIndex : Nat} {loaded : Scene Stock.catalog}
    (h : (loadScene title tocIndex).outcome loader = (.ok loaded, left)) :
    ∃ mid head typeIndex rest count code words entered last,
      (chunkCode tocIndex Tag.scn).outcome loader = (.ok head, mid) ∧
      Cursor.readWord.outcome head = (.ok typeIndex, rest) ∧
      Cursor.readWord.outcome rest = (.ok count, code) ∧ words.length = count.toNat ∧
      LoadsGroups title (mid.inScene entered) code words loaded.groups last ∧
      left = last.inScene mid.host.around.scene ∧ loaded.state = ⟨true⟩ := by
  obtain ⟨head, mid, hhead, h⟩ := Step.outcome_bind_eq_ok_iff.mp h
  obtain ⟨typeIndex, hword, h⟩ := (blind_read _ _).bind_ok h
  obtain ⟨fresh, hfresh, h⟩ := (blind_onWorld (title.blind_newScene _)).bind_ok h
  obtain ⟨last, hfill, rfl⟩ := within_scene_ok h
  obtain ⟨count, hcount, hfill⟩ := (blind_read _ _).bind_ok hfill
  obtain ⟨built, left, hgroups, hinit⟩ := Step.outcome_bind_eq_ok_iff.mp hfill
  rw [outcome_initScene] at hinit
  cases hinit
  obtain ⟨words, groups, hlength, hsame, hloads⟩ := addGroups_ok _ hgroups
  rw [Title.groups_of_newScene (onWorld_ok hfresh), List.nil_append] at hsame
  exact ⟨mid, head, _, _, _, _, words, _, _, hhead, (read_ok hword).2, (read_ok hcount).2, hlength,
    hsame ▸ hloads, rfl, rfl⟩

theorem Booked.loadScene (h : Booked title container scene loader) {tocIndex : Nat}
    {loaded : Scene Stock.catalog}
    (hscene : (Loader.loadScene title tocIndex).outcome loader = (.ok loaded, left)) :
    Booked title container scene left ∧ Brings loader (loaded.groups.flatMap Group.members) left := by
  obtain ⟨mid, head, _, _, _, _, _, _, last, hhead, _, _, _, hloads, rfl, _⟩ := loadScene_ok hscene
  obtain ⟨hmid, hnothing⟩ := h.handled ((handled_chunkCode tocIndex Tag.scn).of_outcome hhead)
  obtain ⟨hbooked, hbrings⟩ := (hmid.inScene _).loadsGroups hloads
  rw [show mid.host.around.scene = scene by rw [hmid.around]]
  exact ⟨hbooked.inScene scene, hnothing.append ⟨hbrings.ids, hbrings.nextId, hbrings.roles⟩⟩

theorem Booked.loadBootScene (h : Booked title container scene loader) {loaded : Scene Stock.catalog}
    (hscene : (Loader.loadBootScene title).outcome loader = (.ok loaded, left)) :
    Booked title container scene left ∧ Brings loader (loaded.groups.flatMap Group.members) left := by
  unfold Loader.loadBootScene at hscene
  split at hscene
  · exact h.loadScene hscene
  · cases hscene

theorem booked_start (title : Title Stock.catalog) (container : Container) :
    Booked title container none (start title container ()) where
  kept := settled_start.kept
  sound := settled_start.sound
  around := rfl
  hosted _ hset := absurd (World.attachments_of_le (Nat.zero_le _)) hset

end Loader

end Playprint
