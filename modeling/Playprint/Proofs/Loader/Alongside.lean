import Mathlib.Data.List.Forall2
import Playprint.Proofs.Loader.Abreast
import Playprint.Proofs.Loader.Reachable

/-!
Sets, groups, scenes and media references, loaded by two loaders of which the second has come a longer way.
Both answer alike or fail for the same cause, and are left in the same relation.
-/

namespace Playprint

open Step (Along Matched Paired Same Blind)
open Container (Agree Apart SideBySide Listing Unharmed)

/-- The same group of a later run. -/
structure Group.Raised {K : Catalog} (count : Nat) (group other : Group K) : Prop where
  className : other.className = group.className
  members : List.Forall₂ (ActorRecord.Raised count) group.members other.members
  state : other.state = group.state

/-- The same scene of a later run. -/
structure Scene.Raised {K : Catalog} (count : Nat) (scene other : Scene K) : Prop where
  className : other.className = scene.className
  groups : List.Forall₂ (Group.Raised count) scene.groups other.groups
  state : other.state = scene.state

/-- All actors of the group are bound to sets of the table. -/
def Group.BoundIn {K : Catalog} (table : SetTable) (group : Group K) : Prop :=
  ∀ record ∈ group.members, record.BoundIn table

/-- All actors of the scene are bound to sets of the table. -/
def Scene.BoundIn {K : Catalog} (table : SetTable) (scene : Scene K) : Prop :=
  ∀ group ∈ scene.groups, group.BoundIn table

theorem Group.BoundIn.grown {K : Catalog} {before after : SetTable} {group : Group K}
    (h : group.BoundIn before) (hgrown : before.Grown after) : group.BoundIn after :=
  fun record hrecord => (h record hrecord).grown hgrown

/-- A group that joins a scene brings its actors. -/
theorem Scene.BoundIn.joined {K : Catalog} {before after : SetTable} {scene : Scene K} {group : Group K}
    (h : scene.BoundIn before) (hgrown : before.Grown after) (hgroup : group.BoundIn after) (state : K.Scene) :
    Scene.BoundIn after { scene with groups := scene.groups ++ [group], state } := by
  intro found hfound
  rcases List.mem_append.mp hfound with hold | hnew
  · exact (h found hold).grown hgrown
  · exact List.mem_singleton.mp hnew ▸ hgroup

namespace Loader

variable {frame : Frame} {first second loader : Loader Stock.catalog} {α β : Type}

/-- Two sound loaders, the second of which does what the first one does. -/
structure Alongside (frame : Frame) (first second : Loader Stock.catalog) : Prop where
  twin : Twin frame first second
  sound : first.Sound
  sound' : second.Sound

theorem Alongside.since (h : Alongside frame first second) :
    Alongside (frame.since first second) first second :=
  ⟨h.twin.since, h.sound, h.sound'⟩

theorem Alongside.of_since (h : Alongside frame first second) {s t : Loader Stock.catalog}
    (hlater : Alongside (frame.since first second) s t) : Alongside frame s t :=
  ⟨h.twin.of_since hlater.twin, hlater.sound, hlater.sound'⟩

theorem Alongside.beside (h : Alongside frame first second) {s t : Loader Stock.catalog}
    (hbeside : Beside first second (Unharmed first.host.container second.host.container) s t) :
    Alongside frame s t := by
  obtain ⟨one, other, ⟨hone, hother⟩, rfl, rfl⟩ := hbeside
  exact ⟨h.twin.withContainer hone hother, ⟨h.sound.sets, h.sound.child⟩, ⟨h.sound'.sets, h.sound'.child⟩⟩

theorem Alongside.chunkCode (h : Alongside frame first second) (tocIndex : Nat) (tag : Tag) :
    Matched (Same (Alongside frame)) (Alongside frame) ((chunkCode tocIndex tag).outcome first)
      ((chunkCode tocIndex tag).outcome second) := by
  have hunharmed (s t : Loader Stock.catalog)
      (hbeside : Beside first second (Apart first.host.container second.host.container) s t) :
      Alongside frame s t :=
    h.beside (hbeside.imp fun one => Exists.imp fun other hstates => ⟨hstates.1.unharmed, hstates.2⟩)
  exact (paired_chunkCode h.twin.agree tocIndex tag first second beside_refl).mono
    (fun _ _ s t hsame => ⟨hsame.1, hunharmed s t hsame.2⟩) hunharmed

theorem blind_read (step : CursorStep α) (cursor : Cursor) :
    Blind (read step cursor : LoadStep Stock.catalog (α × Cursor)) := ⟨_, rfl⟩

theorem onWorld_ok {step : WorldStep ConstructionError Stock.catalog α} {a : α}
    {left : Loader Stock.catalog} (h : (onWorld step).outcome loader = (.ok a, left)) :
    step.outcome loader.world = (.ok a, left.world) := by
  rw [onWorld, Step.outcome_on, Step.outcome_mapError, Prod.mk.injEq, Step.mapError_eq_ok_iff] at h
  obtain ⟨hanswer, rfl⟩ := h
  exact Prod.ext hanswer rfl

theorem blind_onWorld {step : WorldStep ConstructionError Stock.catalog α} (h : Blind step) :
    Blind (onWorld step) :=
  (h.mapError _).on fun _ => rfl

theorem Alongside.loadSet (h : Alongside frame first second) (index : Nat) :
    Matched (fun set set' s t => Alongside frame s t ∧ s.host.sets.cached? index = some set ∧
        t.host.sets.cached? index = some set')
      (Alongside frame) ((loadSet frame.title index).outcome first)
      ((loadSet frame.title index).outcome second) := by
  have hsound {loader left : Loader Stock.catalog} {answer : Except LoadError SetHandle}
      (h : loader.Sound) (hload : (Loader.loadSet frame.title index).outcome loader = (answer, left)) :
      left.Sound :=
    (loadSet_spec hload h.sets).1.staysSound h
  rcases (h.twin.loadSet index).ends with
    ⟨set, set', s, t, hfirst, hsecond, htwin, hcached⟩ | ⟨error, s, t, hfirst, hsecond, htwin⟩
  · rw [hfirst, hsecond]
    exact .ok ⟨⟨h.twin.of_since htwin, hsound h.sound hfirst, hsound h.sound' hsecond⟩, hcached⟩
  · rw [hfirst, hsecond]
    exact .error ⟨h.twin.of_since htwin, hsound h.sound hfirst, hsound h.sound' hsecond⟩

/-! ### Groups -/

/-- The record of an actor that was initialised in the scope of its set. -/
def seated (loader : Loader Stock.catalog) (record : ActorRecord Stock.catalog) :
    ActorRecord Stock.catalog :=
  let context : InitContext :=
    ⟨(record.binding.map SetBinding.handle).bind loader.world.className?, loader.host.around.scene⟩
  { record with actor := { record.actor with state := Stock.Actor.init context record.actor.state } }

theorem outcome_addMember (group : Group Stock.catalog) (record : ActorRecord Stock.catalog) :
    (addMember group record).outcome loader =
      (.ok { group with members := group.members ++ [loader.seated record] }, loader) := rfl

theorem outcome_addMembers (records : List (ActorRecord Stock.catalog)) (group : Group Stock.catalog) :
    (addMembers group records).outcome loader =
      (.ok { group with members := group.members ++ records.map loader.seated }, loader) := by
  induction records generalizing group with
  | nil => rw [addMembers, List.map_nil, List.append_nil, Step.outcome_pure]
  | cons record rest ih =>
      rw [addMembers, Step.outcome_bind_ok (outcome_addMember group record), ih, List.map_cons,
        List.append_assoc, List.singleton_append]

/-- What follows the replay of a group cannot fail. -/
theorem outcome_seat (group : Group Stock.catalog) (records : List (ActorRecord Stock.catalog)) :
    (do
      let group ← addMembers group records
      let context ← initContext
      let state ← onWorld (World.onJournal (Stock.catalog.groups.init group.className context group.state))
      return { group with state } : LoadStep Stock.catalog (Group Stock.catalog)).outcome loader =
        (.ok { group with members := group.members ++ records.map loader.seated, state := ⟨true⟩ },
          loader) := by
  rw [Step.outcome_bind_ok (outcome_addMembers records group)]
  rfl

theorem Twin.className? (h : Twin frame first second) {record other : ActorRecord Stock.catalog}
    (hraised : record.Raised frame.raised other) (hbound : record.BoundIn first.host.sets)
    (hbound' : other.BoundIn second.host.sets) :
    (other.binding.map SetBinding.handle).bind second.world.className? =
      (record.binding.map SetBinding.handle).bind first.world.className? := by
  rcases hraised.binding_cases with
    ⟨hbinding, hbinding'⟩ | ⟨binding, binding', hbinding, hbinding', hindex⟩
  · rw [hbinding, hbinding']
    rfl
  · rw [hbinding, hbinding']
    show second.world.className? binding'.handle = first.world.className? binding.handle
    rw [h.kept.className? (hbound binding hbinding), h.kept'.className? (hbound' binding' hbinding'), hindex]

theorem Twin.seated (h : Twin frame first second) {record other : ActorRecord Stock.catalog}
    (hraised : record.Raised frame.raised other) (hbound : record.BoundIn first.host.sets)
    (hbound' : other.BoundIn second.host.sets) :
    (first.seated record).Raised frame.raised (second.seated other) := by
  refine ⟨hraised.id, hraised.typeIndex, ?_, hraised.role, hraised.index⟩
  simp only [Loader.seated, hraised.actor, h.className? hraised hbound hbound', h.around.1, h.around.2]

/-- The actors of two replays that are abreast, as they join their groups. -/
theorem raised_members {one other : Replay Stock.catalog Desk} (h : Replay.Abreast frame one other) :
    List.Forall₂ (ActorRecord.Raised frame.raised) (one.records.map (seated one.session))
      (other.records.map (seated other.session)) := by
  have hslots : List.Forall₂ (Replay.Counterpart frame.raised one.session.host.sets
      other.session.host.sets) one.slots.toList other.slots.toList := by
    refine List.forall₂_iff_get.mpr ⟨?_, fun index hone hother => ?_⟩
    · rw [Array.length_toList, Array.length_toList, h.size]
    · exact h.slot index _ _ (Array.getElem?_eq_getElem hone) (Array.getElem?_eq_getElem hother)
  rw [Replay.records, Replay.records, List.map_map, List.map_map, List.forall₂_map_left_iff,
    List.forall₂_map_right_iff]
  exact hslots.imp fun slot other hsame => h.twin.seated hsame.raised hsame.bound hsame.bound'

/-- What holds of the records of all slots holds of the actors as they join their group. -/
theorem bound_members {replay : Replay Stock.catalog Desk}
    (h : ∀ (index : Nat) slot, replay.slots[index]? = some slot →
      slot.record.BoundIn replay.session.host.sets)
    (record : ActorRecord Stock.catalog) (hrecord : record ∈ replay.records.map (seated replay.session)) :
    record.BoundIn replay.session.host.sets := by
  rw [Replay.records, List.map_map, List.mem_map] at hrecord
  obtain ⟨slot, hslot, rfl⟩ := hrecord
  obtain ⟨index, hindex⟩ := List.mem_iff_getElem?.mp hslot
  rw [Array.getElem?_toList] at hindex
  exact h index slot hindex

/-- Both have loaded the same group, and go on alongside. -/
structure SameGroup (frame : Frame) (group other : Group Stock.catalog) (first second : Loader Stock.catalog) :
    Prop where
  alongside : Alongside frame first second
  raised : group.Raised frame.raised other
  bound : group.BoundIn first.host.sets
  bound' : other.BoundIn second.host.sets

theorem Alongside.loadGroup (h : Alongside frame first second) (tocIndex : Nat) :
    Matched (SameGroup frame) (Alongside frame) ((loadGroup frame.title tocIndex).outcome first)
      ((loadGroup frame.title tocIndex).outcome second) := by
  refine (h.chunkCode tocIndex Tag.grp).bind fun code code' => ?_
  rintro s t ⟨rfl, h⟩
  refine ((blind_read _ _).paired s t h).bind fun word word' => ?_
  rintro s t ⟨rfl, h⟩
  refine ((blind_onWorld (frame.title.blind_newGroup _)).paired_with
    (fun _ _ _ hnew => Title.members_of_newGroup (onWorld_ok hnew)) s t h).bind fun group group' => ?_
  rintro s t ⟨hmembers, rfl, h⟩
  refine ((blind_read _ _).paired s t h).bind fun declared declared' => ?_
  rintro s t ⟨rfl, h⟩
  have hsound := Replay.sound_of_replay frame.title declared.1 declared.2 h.sound
  have hsound' := Replay.sound_of_replay frame.title declared.1 declared.2 h.sound'
  rcases (h.twin.replay h.sound h.sound' declared.1 declared.2).ends with
    ⟨one, other, _, _, hone, hother, habreast, rfl, rfl⟩ | ⟨error, _, _, hone, hother, htwin⟩
  all_goals rw [hone] at hsound; rw [hother] at hsound'
  -- A replay that has ended well is followed by steps that cannot fail.
  · rw [Step.outcome_bind_ok hone, Step.outcome_bind_ok hother, outcome_seat, outcome_seat]
    rw [hmembers, List.nil_append, List.nil_append]
    refine .ok ⟨⟨habreast.twin, hsound, hsound'⟩, ⟨rfl, raised_members habreast, rfl⟩,
      bound_members fun index slot hslot => ?_, bound_members fun index other hother => ?_⟩
    · rcases habreast.lookup index with ⟨hnone, _⟩ | ⟨_, _, hfound, _, hsame⟩
      · cases hnone.symm.trans hslot
      · exact Option.some.inj (hfound.symm.trans hslot) ▸ hsame.bound
    · rcases habreast.lookup index with ⟨_, hnone⟩ | ⟨_, _, _, hfound, hsame⟩
      · cases hnone.symm.trans hother
      · exact Option.some.inj (hfound.symm.trans hother) ▸ hsame.bound'
  · rw [Step.outcome_bind_error hone, Step.outcome_bind_error hother]
    exact .error ⟨htwin, hsound, hsound'⟩

/-! ### Scenes -/

/-- The loader with another scene around what it loads. -/
def inScene (scene : Option String) (loader : Loader Stock.catalog) : Loader Stock.catalog :=
  { loader with host := { loader.host with around := { loader.host.around with scene } } }

/-- Entering the scope of a scene and leaving it cannot fail. -/
theorem outcome_within_scene (scene : Option String) (body : LoadStep Stock.catalog α) :
    (within (·.enterScene scene) body).outcome loader =
      ((body.outcome (loader.inScene scene)).1,
        (body.outcome (loader.inScene scene)).2.inScene loader.host.around.scene) :=
  rfl

theorem Alongside.inScene (h : Alongside frame first second) (scene : Option String) :
    Alongside { frame with scene } (first.inScene scene) (second.inScene scene) := by
  have hkept {loader : Loader Stock.catalog} (h : Kept frame.title frame.container loader) :
      Kept frame.title frame.container (loader.inScene scene) :=
    ⟨h.agree, h.entries, h.apart, h.finished, h.counted⟩
  refine ⟨⟨hkept h.twin.kept, hkept h.twin.kept', h.twin.fuller, h.twin.attachments, h.twin.nextId, ?_,
    h.twin.grown⟩, ⟨h.sound.sets, h.sound.child⟩, ⟨h.sound'.sets, h.sound'.child⟩⟩
  obtain ⟨haround, haround'⟩ := h.twin.around
  simp only [Loader.inScene, haround, haround', and_self]

/-- Both have the same scene at hand, and go on alongside. -/
structure SameScene (frame : Frame) (scene other : Scene Stock.catalog) (first second : Loader Stock.catalog) :
    Prop where
  alongside : Alongside frame first second
  raised : scene.Raised frame.raised other
  bound : scene.BoundIn first.host.sets
  bound' : other.BoundIn second.host.sets

theorem SameScene.addGroups (count : Nat) {scene scene' : Scene Stock.catalog} (code : Cursor)
    (hscene : SameScene frame scene scene' first second) :
    Matched (SameScene frame) (Alongside frame) ((addGroups frame.title scene code count).outcome first)
      ((addGroups frame.title scene' code count).outcome second) := by
  induction count generalizing scene scene' code first second with
  | zero => exact .ok hscene
  | succ count ih =>
      obtain ⟨h, hraised, hbound, hbound'⟩ := hscene
      -- Each round is compared since its beginning: the actors of the scene were bound in the tables then.
      rw [Loader.addGroups, Loader.addGroups]
      have hread := (blind_read Cursor.readWord code).paired (R := Alongside (frame.since first second))
        first second h.since
      refine (hread.failing fun _ _ => h.of_since).bind fun word word' => ?_
      rintro s t ⟨rfl, hread⟩
      refine ((hread.loadGroup word.1.toNat).failing fun _ _ => h.of_since).bind fun group group' => ?_
      rintro s t ⟨hloaded, hgroup, hgroupBound, hgroupBound'⟩
      obtain ⟨hgrown, hgrown'⟩ := hloaded.twin.grown
      rw [hraised.className, hgroup.className, hraised.state]
      have hjoined := h.of_since hloaded
      have hjoin := (blind_onWorld (World.blind_noted
        (Stock.catalog.scenes.join scene.className group.className scene.state))).paired
          (R := fun s' t' => s' = s ∧ t' = t) s t ⟨rfl, rfl⟩
      refine (hjoin.failing ?_).bind fun state state' => ?_
      · rintro _ _ ⟨rfl, rfl⟩
        exact hjoined
      rintro _ _ ⟨rfl, rfl, rfl⟩
      apply ih word.2
      exact ⟨hjoined, ⟨rfl, List.rel_append hraised.groups (.cons hgroup .nil), rfl⟩,
        hbound.joined hgrown hgroupBound state, hbound'.joined hgrown' hgroupBound' state⟩

/-- What follows the groups of a scene cannot fail. -/
theorem outcome_initScene (scene : Scene Stock.catalog) :
    (do
      let context := { ← initContext with sceneClass := none }
      let state ← onWorld (World.onJournal (Stock.catalog.scenes.init scene.className context scene.state))
      return { scene with state } : LoadStep Stock.catalog (Scene Stock.catalog)).outcome loader =
        (.ok { scene with state := ⟨true⟩ }, loader) :=
  rfl

/-- What is loaded in the scope of a scene. -/
theorem Alongside.fillScene (h : Alongside frame first second) {scene : Scene Stock.catalog}
    (hempty : scene.groups = []) (code : Cursor) :
    let fill : LoadStep Stock.catalog (Scene Stock.catalog) := do
      let (count, code) ← read Cursor.readWord code
      let scene ← Loader.addGroups frame.title scene code count.toNat
      let context := { ← initContext with sceneClass := none }
      let state ← onWorld (World.onJournal (Stock.catalog.scenes.init scene.className context scene.state))
      return { scene with state }
    Matched (SameScene frame) (Alongside frame) (fill.outcome first) (fill.outcome second) := by
  have hraised : scene.Raised frame.raised scene := ⟨rfl, by rw [hempty]; exact .nil, rfl⟩
  have hbound (table : SetTable) : scene.BoundIn table := by
    intro group hgroup
    rw [hempty] at hgroup
    cases hgroup
  refine ((blind_read Cursor.readWord code).paired first second h).bind fun count count' => ?_
  rintro s t ⟨rfl, h⟩
  have hscene : SameScene frame scene scene s t := ⟨h, hraised, hbound _, hbound _⟩
  refine (hscene.addGroups count.1.toNat count.2).bind fun scene scene' => ?_
  rintro s t ⟨h, hraised, hbound, hbound'⟩
  rw [outcome_initScene, outcome_initScene]
  exact .ok ⟨h, ⟨hraised.className, hraised.groups, rfl⟩, hbound, hbound'⟩

theorem Alongside.loadScene (h : Alongside frame first second) (tocIndex : Nat) :
    Matched (SameScene frame) (Alongside frame) ((loadScene frame.title tocIndex).outcome first)
      ((loadScene frame.title tocIndex).outcome second) := by
  refine (h.chunkCode tocIndex Tag.scn).bind fun code code' => ?_
  rintro s t ⟨rfl, h⟩
  refine ((blind_read _ _).paired s t h).bind fun word word' => ?_
  rintro s t ⟨rfl, h⟩
  refine ((blind_onWorld (frame.title.blind_newScene _)).paired_with
    (fun _ _ _ hnew => Title.groups_of_newScene (onWorld_ok hnew)) s t h).bind fun scene scene' => ?_
  rintro s t ⟨hempty, rfl, h⟩
  have hfill := (h.inScene (some scene.className)).fillScene hempty word.2
  rw [outcome_within_scene, outcome_within_scene, h.twin.around.1, h.twin.around.2]
  refine hfill.leaving (fun scene scene' s t hscene => ?_) fun s t h => h.inScene frame.scene
  exact ⟨hscene.alongside.inScene frame.scene, hscene.raised, hscene.bound, hscene.bound'⟩

theorem Alongside.loadBootScene (h : Alongside frame first second) :
    Matched (SameScene frame) (Alongside frame) ((loadBootScene frame.title).outcome first)
      ((loadBootScene frame.title).outcome second) := by
  unfold Loader.loadBootScene
  cases frame.title.manifest.bootScene with
  | some tocIndex => exact h.loadScene tocIndex.toNat
  | none => exact .error h

/-! ### Media references -/

theorem paired_addMedia (hagree : Agree first.host.container second.host.container) (count : Nat) :
    ∀ mediaRef : MediaRef Stock.catalog,
      Paired (Beside first second (Listing first.host.container second.host.container))
        (Same (Beside first second (Listing first.host.container second.host.container)))
        (Beside first second (Listing first.host.container second.host.container))
        (addMedia mediaRef count) (addMedia mediaRef count) := by
  induction count with
  | zero => exact fun _ => .pure fun _ _ hst => ⟨rfl, hst⟩
  | succ count ih =>
      intro mediaRef
      refine (paired_onContainer (Container.paired_readMedia hagree)).bind_same fun media => ?_
      exact (blind_onWorld (World.blind_onJournal _)).paired.bind_same fun state => ih _

/-- A media list is left whatever came of its entries. -/
theorem paired_loadMediaRef (hagree : Agree first.host.container second.host.container)
    (title : Title Stock.catalog) (tocIndex : Nat) :
    Paired (Beside first second (Apart first.host.container second.host.container))
      (Same (Beside first second (Unharmed first.host.container second.host.container)))
      (Beside first second (Unharmed first.host.container second.host.container))
      (loadMediaRef title tocIndex) (loadMediaRef title tocIndex) := by
  have hweaken {R S : Container → Container → Prop} (h : ∀ one other, R one other → S one other)
      (s t : Loader Stock.catalog) (hbeside : Beside first second R s t) : Beside first second S s t :=
    hbeside.imp fun one => Exists.imp fun other hstates => ⟨h one other hstates.1, hstates.2⟩
  refine ((paired_onContainer (Container.paired_tocOffset hagree tocIndex)).failing
    (hweaken fun _ _ => Apart.unharmed)).bind_same fun offset => ?_
  refine ((paired_onContainer (Container.paired_goto offset)).failing
    (hweaken fun _ _ h => h.apart.unharmed)).bind_same fun _ => ?_
  refine (paired_onContainer (Container.paired_enterMediaList hagree)).bind_same fun info => ?_
  refine Paired.closing_same ?_ (paired_onContainer Container.paired_endMediaList)
  exact (blind_onWorld (title.blind_newMediaRef _)).paired.bind_same fun mediaRef =>
    paired_addMedia hagree _ mediaRef

theorem Alongside.loadMediaRef (h : Alongside frame first second) (tocIndex : Nat) :
    Matched (Same (Alongside frame)) (Alongside frame)
      ((loadMediaRef frame.title tocIndex).outcome first)
      ((loadMediaRef frame.title tocIndex).outcome second) :=
  (paired_loadMediaRef h.twin.agree frame.title tocIndex first second beside_refl).mono
    (fun _ _ _ _ hsame => ⟨hsame.1, h.beside hsame.2⟩) fun _ _ => h.beside

end Loader

end Playprint
