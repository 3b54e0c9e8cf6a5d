import Mathlib.Logic.Function.Basic
import Playprint.Proofs.Replay.Effects

/-!
Attaching roles as a transition system. A cast is all of a replay that attaching depends on. While the byte
code runs a step creates, binds or hangs one role under another; afterwards the last call hangs what is
left over. No step takes anything down, so a role keeps the one place where it was first hung.
-/

namespace Playprint

/-- What attaching depends on: slots, identities, what hangs on the sets, and how many sets there are. -/
structure Cast where
  slots : List Standing
  nextId : Nat
  hung : SetHandle → List Attachment
  stages : Nat

/-- A point of a run where the role of one slot is hung under that of another one. -/
structure Moment where
  cast : Cast
  parent : Nat
  child : Nat

/-- The slots that a moment is about, and their set. -/
structure Moment.At (moment : Moment) (upper lower : Standing) (set : SetHandle) : Prop where
  parent : moment.cast.slots[moment.parent]? = some upper
  child : moment.cast.slots[moment.child]? = some lower
  upperSet : upper.set = some set
  lowerSet : lower.set = some set

namespace Cast

/-- The cast after the role of a slot was hung on a set. -/
def hang (cast : Cast) (index : Nat) (slot : Standing) (set : SetHandle)
    (parent : Option ObjectId) : Cast :=
  { cast with
    slots := cast.slots.set index { slot with attached := true }
    hung := Function.update cast.hung set (cast.hung set ++ [⟨parent, slot.id⟩]) }

/-- What one instruction can do. The label tells the slots of a role that is hung under another one. -/
inductive Step (before : Cast) : Option (Nat × Nat) → Cast → Prop
  | still {stages : Nat} (hstages : before.stages ≤ stages) : Step before none { before with stages }
  | create {stages : Nat} (hstages : before.stages ≤ stages) :
      Step before none { before with
        slots := before.slots ++ [⟨⟨before.nextId⟩, none, none, false⟩]
        nextId := before.nextId + 1
        stages }
  | bind {index stages : Nat} {slot : Standing} {set : SetHandle} (hstages : before.stages ≤ stages)
      (hslot : before.slots[index]? = some slot) (hset : set.index < stages) :
      Step before none { before with
        slots := before.slots.set index { slot with role := some slot.id, set := some set }
        stages }
  | under {parent child : Nat} {upper lower : Standing} {set : SetHandle} (hne : parent ≠ child)
      (hupper : before.slots[parent]? = some upper) (hlower : before.slots[child]? = some lower)
      (hfree : lower.attached = false) (hset : upper.set = some set) (hsame : lower.set = some set)
      (hfresh : ∀ entry ∈ before.hung set, entry.child ≠ lower.id) :
      Step before (some (parent, child)) (before.hang child lower set (some upper.id))

/-- What the last call can do at one slot. -/
inductive Rest (before : Cast) : Cast → Prop
  | skip : Rest before before
  | hang {index : Nat} {slot : Standing} {set : SetHandle} (hslot : before.slots[index]? = some slot)
      (hfree : slot.attached = false) (hset : slot.set = some set)
      (hfresh : ∀ entry ∈ before.hung set, entry.child ≠ slot.id) :
      Rest before (before.hang index slot set none)

/-- Steps one after another, with the moments where one role was hung under another. -/
inductive Run : Cast → List Moment → Cast → Prop
  | stop (here : Cast) : Run here [] here
  | quietly {first second last : Cast} {moments : List Moment} (hstep : Step first none second)
      (hrest : Run second moments last) : Run first moments last
  | tied {first second last : Cast} {moments : List Moment} {parent child : Nat}
      (hstep : Step first (some (parent, child)) second) (hrest : Run second moments last) :
      Run first (⟨first, parent, child⟩ :: moments) last

/-- The last call at several slots. -/
inductive Rests : Cast → Cast → Prop
  | stop (here : Cast) : Rests here here
  | rest {first second last : Cast} (hrest : Rest first second) (hmore : Rests second last) :
      Rests first last

variable {before after cast : Cast} {slot : Standing}

/-! ### Sound casts -/

/-- The slots have the last identities in order, their roles are their own and play in sets that exist, and
nothing hangs anywhere that was never created. -/
structure Sound (cast : Cast) : Prop where
  id : ∀ (index : Nat) (slot : Standing), cast.slots[index]? = some slot →
    slot.id.value + cast.slots.length = cast.nextId + index
  role : ∀ slot ∈ cast.slots, slot.role = slot.set.map fun _ => slot.id
  set : ∀ slot ∈ cast.slots, ∀ set, slot.set = some set → set.index < cast.stages
  child : ∀ set, ∀ entry ∈ cast.hung set, entry.child.value < cast.nextId

theorem Sound.lt (hsound : cast.Sound) (hslot : slot ∈ cast.slots) :
    slot.id.value < cast.nextId := by
  obtain ⟨index, hindex⟩ := List.mem_iff_getElem?.mp hslot
  obtain ⟨hlt, _⟩ := List.getElem?_eq_some_iff.mp hindex
  have hid := hsound.id index slot hindex
  omega

/-- Slots are told apart by their identities. -/
theorem Sound.index_eq (hsound : cast.Sound) {i j : Nat} {other : Standing}
    (hslot : cast.slots[i]? = some slot) (hother : cast.slots[j]? = some other)
    (hid : slot.id = other.id) : i = j := by
  have hi := hsound.id i slot hslot
  have hj := hsound.id j other hother
  rw [hid] at hi
  omega

theorem Sound.eq_of_id (hsound : cast.Sound) {other : Standing} (hslot : slot ∈ cast.slots)
    (hother : other ∈ cast.slots) (hid : slot.id = other.id) : slot = other := by
  obtain ⟨i, hi⟩ := List.mem_iff_getElem?.mp hslot
  obtain ⟨j, hj⟩ := List.mem_iff_getElem?.mp hother
  obtain rfl := hsound.index_eq hi hj hid
  exact Option.some.inj (hi.symm.trans hj)

theorem mem_hung_hang {index : Nat} {set other : SetHandle} {parent : Option ObjectId}
    {entry : Attachment} :
    entry ∈ (cast.hang index slot set parent).hung other ↔
      entry ∈ cast.hung other ∨ (other = set ∧ entry = ⟨parent, slot.id⟩) := by
  by_cases hother : other = set
  · subst hother
    simp [hang]
  · simp [hang, hother]

/-- Changing a slot but not its identity. -/
theorem Sound.id_set (hsound : cast.Sound) {index : Nat} {changed : Standing}
    (hslot : cast.slots[index]? = some slot) {i : Nat} {found : Standing}
    (hfound : (cast.slots.set index changed)[i]? = some found) (hid : changed.id = slot.id) :
    found.id.value + cast.slots.length = cast.nextId + i := by
  rw [List.getElem?_set] at hfound
  split at hfound
  · rename_i heq
    subst heq
    split at hfound
    · cases hfound
      rw [hid]
      exact hsound.id index slot hslot
    · cases hfound
  · exact hsound.id i found hfound

theorem Sound.hang (hsound : cast.Sound) {index : Nat} {set : SetHandle} (parent : Option ObjectId)
    (hslot : cast.slots[index]? = some slot) : (cast.hang index slot set parent).Sound where
  id i found hfound := by
    have hid := hsound.id_set hslot hfound rfl
    simpa [Cast.hang] using hid
  role found hfound := by
    rcases List.mem_or_eq_of_mem_set hfound with hold | rfl
    · exact hsound.role found hold
    · exact hsound.role slot (List.mem_of_getElem? hslot)
  set found hfound := by
    rcases List.mem_or_eq_of_mem_set hfound with hold | rfl
    · exact hsound.set found hold
    · exact hsound.set slot (List.mem_of_getElem? hslot)
  child other entry hentry := by
    rcases mem_hung_hang.mp hentry with hold | ⟨_, rfl⟩
    · exact hsound.child other entry hold
    · exact hsound.lt (List.mem_of_getElem? hslot)

/-- Every step keeps a cast sound. -/
theorem Sound.step {tie : Option (Nat × Nat)} (hsound : before.Sound) (hstep : Step before tie after) :
    after.Sound := by
  cases hstep with
  | still hstages =>
      exact ⟨hsound.id, hsound.role,
        fun slot hslot set hset => Nat.lt_of_lt_of_le (hsound.set slot hslot set hset) hstages,
        hsound.child⟩
  | create hstages =>
      refine ⟨?id, ?role, ?set, ?child⟩
      case id =>
        intro i found hfound
        simp only [List.length_append, List.length_singleton]
        rw [List.getElem?_append] at hfound
        split at hfound
        · have hid := hsound.id i found hfound
          omega
        · rename_i hlt
          obtain ⟨hzero, hnew⟩ := List.getElem?_eq_some_iff.mp hfound
          simp only [List.length_singleton] at hzero
          rw [List.getElem_singleton] at hnew
          rw [← hnew]
          simp only
          omega
      case role =>
        intro found hfound
        rcases List.mem_append.mp hfound with hold | hnew
        · exact hsound.role found hold
        · obtain rfl := List.mem_singleton.mp hnew
          rfl
      case set =>
        intro found hfound set hset
        rcases List.mem_append.mp hfound with hold | hnew
        · exact Nat.lt_of_lt_of_le (hsound.set found hold set hset) hstages
        · obtain rfl := List.mem_singleton.mp hnew
          cases hset
      case child =>
        intro set entry hentry
        exact Nat.lt_succ_of_lt (hsound.child set entry hentry)
  | bind hstages hslot hset =>
      refine ⟨?id, ?role, ?set, hsound.child⟩
      case id =>
        intro i found hfound
        have hid := hsound.id_set hslot hfound rfl
        rwa [List.length_set]
      case role =>
        intro found hfound
        rcases List.mem_or_eq_of_mem_set hfound with hold | rfl
        · exact hsound.role found hold
        · rfl
      case set =>
        intro found hfound set hbound
        rcases List.mem_or_eq_of_mem_set hfound with hold | rfl
        · exact Nat.lt_of_lt_of_le (hsound.set found hold set hbound) hstages
        · cases hbound
          exact hset
  | under hne hupper hlower hfree hset hsame hfresh => exact hsound.hang _ hlower

/-! ### What is never undone -/

/-- Slots keep their identities, bound roles stay bound, and nothing is taken down. -/
structure Later (before after : Cast) : Prop where
  slot : ∀ (index : Nat) (slot : Standing), before.slots[index]? = some slot →
    ∃ later, after.slots[index]? = some later ∧ later.id = slot.id ∧
      (slot.set.isSome → later.set.isSome)
  hung : ∀ set, ∀ entry ∈ before.hung set, entry ∈ after.hung set

theorem Later.refl (cast : Cast) : Later cast cast :=
  ⟨fun _ slot hslot => ⟨slot, hslot, rfl, id⟩, fun _ _ hentry => hentry⟩

theorem Later.trans {mid : Cast} (hfirst : Later before mid) (hsecond : Later mid after) :
    Later before after where
  slot index slot hslot := by
    obtain ⟨between, hbetween, hid, hset⟩ := hfirst.slot index slot hslot
    obtain ⟨later, hlater, hid', hset'⟩ := hsecond.slot index between hbetween
    exact ⟨later, hlater, hid'.trans hid, fun h => hset' (hset h)⟩
  hung set entry hentry := hsecond.hung set entry (hfirst.hung set entry hentry)

/-- Changing a slot but not its identity, and without taking its set away. -/
theorem later_set {index : Nat} {changed : Standing} {slots : List Standing}
    (hslot : slots[index]? = some slot) (hid : changed.id = slot.id)
    (hset : slot.set.isSome → changed.set.isSome) (i : Nat) (found : Standing)
    (hfound : slots[i]? = some found) :
    ∃ later, (slots.set index changed)[i]? = some later ∧ later.id = found.id ∧
      (found.set.isSome → later.set.isSome) := by
  by_cases hi : index = i
  · subst hi
    obtain rfl : slot = found := Option.some.inj (hslot.symm.trans hfound)
    obtain ⟨hlt, _⟩ := List.getElem?_eq_some_iff.mp hslot
    exact ⟨changed, List.getElem?_set_self hlt, hid, hset⟩
  · exact ⟨found, (List.getElem?_set_ne hi).trans hfound, rfl, id⟩

theorem Later.hang {index : Nat} {set : SetHandle} (parent : Option ObjectId)
    (hslot : cast.slots[index]? = some slot) : Later cast (cast.hang index slot set parent) where
  slot := later_set hslot rfl id
  hung _ _ hentry := mem_hung_hang.mpr (.inl hentry)

theorem Later.step {tie : Option (Nat × Nat)} (hstep : Step before tie after) : Later before after := by
  cases hstep with
  | still hstages => exact ⟨fun _ slot hslot => ⟨slot, hslot, rfl, id⟩, fun _ _ hentry => hentry⟩
  | create hstages =>
      refine ⟨fun index slot hslot => ⟨slot, ?_, rfl, id⟩, fun _ _ hentry => hentry⟩
      obtain ⟨hlt, _⟩ := List.getElem?_eq_some_iff.mp hslot
      exact (List.getElem?_append_left hlt).trans hslot
  | bind hstages hslot hset => exact ⟨later_set hslot rfl fun _ => rfl, fun _ _ hentry => hentry⟩
  | under hne hupper hlower hfree hset hsame hfresh => exact Later.hang _ hlower

theorem Later.rest (hrest : Rest before after) : Later before after := by
  cases hrest with
  | skip => exact Later.refl before
  | hang hslot hfree hset hfresh => exact Later.hang _ hslot

theorem Later.run {moments : List Moment} (hrun : Run before moments after) : Later before after := by
  induction hrun with
  | stop here => exact Later.refl here
  | quietly hstep _ ih | tied hstep _ ih => exact (Later.step hstep).trans ih

theorem Later.rests (hrests : Rests before after) : Later before after := by
  induction hrests with
  | stop here => exact Later.refl here
  | rest hrest _ ih => exact (Later.rest hrest).trans ih

/-- The last call changes no slot but to attach it. -/
theorem slot_rest (hrest : Rest before after) {index : Nat} (hslot : before.slots[index]? = some slot) :
    ∃ later, after.slots[index]? = some later ∧ later.id = slot.id ∧ later.set = slot.set ∧
      (slot.attached = true → later.attached = true) := by
  cases hrest with
  | skip => exact ⟨slot, hslot, rfl, rfl, id⟩
  | @hang changed old set hold =>
      by_cases hindex : changed = index
      · subst hindex
        obtain rfl : old = slot := Option.some.inj (hold.symm.trans hslot)
        have hlt := (List.getElem?_eq_some_iff.mp hold).1
        exact ⟨_, List.getElem?_set_self hlt, rfl, rfl, fun _ => rfl⟩
      · exact ⟨slot, (List.getElem?_set_ne hindex).trans hslot, rfl, rfl, id⟩

theorem slot_rests (hrests : Rests before after) {index : Nat}
    (hslot : before.slots[index]? = some slot) :
    ∃ later, after.slots[index]? = some later ∧ later.id = slot.id ∧ later.set = slot.set ∧
      (slot.attached = true → later.attached = true) := by
  induction hrests generalizing slot with
  | stop here => exact ⟨slot, hslot, rfl, rfl, id⟩
  | rest hrest _ ih =>
      obtain ⟨between, hbetween, hid, hset, hattached⟩ := slot_rest hrest hslot
      obtain ⟨later, hlater, hid', hset', hattached'⟩ := ih hbetween
      exact ⟨later, hlater, hid'.trans hid, hset'.trans hset, fun h => hattached' (hattached h)⟩

theorem length_rests (hrests : Rests before after) : after.slots.length = before.slots.length := by
  induction hrests with
  | stop here => rfl
  | rest hrest _ ih =>
      rw [ih]
      cases hrest with
      | skip => rfl
      | hang => exact List.length_set

/-! ### Fair casts -/

/-- A cast in a run from identity `first` on: a slot counts as attached exactly when its role hangs
somewhere, and no role of the run hangs in two places. -/
structure Fair (first : Nat) (cast : Cast) : Prop where
  sound : cast.Sound
  count : first + cast.slots.length = cast.nextId
  attached : ∀ (index : Nat) (slot : Standing), cast.slots[index]? = some slot →
    (slot.attached = true ↔ ∃ set, ∃ entry ∈ cast.hung set, entry.child = slot.id)
  single : ∀ set other, ∀ entry ∈ cast.hung set, ∀ twin ∈ cast.hung other,
    entry.child = twin.child → first ≤ entry.child.value → set = other ∧ entry = twin

variable {first : Nat}

theorem Fair.le (hfair : cast.Fair first) (hslot : slot ∈ cast.slots) : first ≤ slot.id.value := by
  obtain ⟨index, hindex⟩ := List.mem_iff_getElem?.mp hslot
  have hid := hfair.sound.id index slot hindex
  have hcount := hfair.count
  omega

theorem Fair.hang (hfair : cast.Fair first) {index : Nat} {set : SetHandle} (parent : Option ObjectId)
    (hslot : cast.slots[index]? = some slot) (hfree : slot.attached = false) :
    (cast.hang index slot set parent).Fair first := by
  have hmem := List.mem_of_getElem? hslot
  -- A slot that is free has its role nowhere, so the new entry has no twin.
  have hnowhere : ∀ other, ∀ entry ∈ cast.hung other, entry.child ≠ slot.id := by
    intro other entry hentry hchild
    have hattached := (hfair.attached index slot hslot).mpr ⟨other, entry, hentry, hchild⟩
    rw [hfree] at hattached
    cases hattached
  refine ⟨hfair.sound.hang parent hslot, ?count, ?attached, ?single⟩
  case count =>
    have hcount := hfair.count
    simpa [Cast.hang] using hcount
  case attached =>
    intro i found hfound
    by_cases hi : index = i
    · subst hi
      have hchanged := List.getElem?_set_self (a := { slot with attached := true })
        (List.getElem?_eq_some_iff.mp hslot).1
      obtain rfl := Option.some.inj (hchanged.symm.trans hfound)
      exact ⟨fun _ => ⟨set, _, mem_hung_hang.mpr (.inr ⟨rfl, rfl⟩), rfl⟩, fun _ => rfl⟩
    · have hold : cast.slots[i]? = some found := (List.getElem?_set_ne hi).symm.trans hfound
      rw [hfair.attached i found hold]
      constructor
      · rintro ⟨other, entry, hentry, hchild⟩
        exact ⟨other, entry, mem_hung_hang.mpr (.inl hentry), hchild⟩
      · rintro ⟨other, entry, hentry, hchild⟩
        rcases mem_hung_hang.mp hentry with hentry | ⟨_, rfl⟩
        · exact ⟨other, entry, hentry, hchild⟩
        · exact absurd (hfair.sound.index_eq hslot hold hchild) hi
  case single =>
    intro one other entry hentry twin htwin hchild hown
    rcases mem_hung_hang.mp hentry with hold | ⟨rfl, rfl⟩ <;>
      rcases mem_hung_hang.mp htwin with htwinOld | ⟨rfl, rfl⟩
    · exact hfair.single one other entry hold twin htwinOld hchild hown
    · exact absurd hchild (hnowhere one entry hold)
    · exact absurd hchild.symm (hnowhere other twin htwinOld)
    · exact ⟨rfl, rfl⟩

theorem Fair.step {tie : Option (Nat × Nat)} (hfair : before.Fair first)
    (hstep : Step before tie after) : after.Fair first := by
  have hsound := hfair.sound.step hstep
  cases hstep with
  | still hstages => exact ⟨hsound, hfair.count, hfair.attached, hfair.single⟩
  | create hstages =>
      refine ⟨hsound, ?_, ?_, hfair.single⟩
      · have hcount := hfair.count
        simp only [List.length_append, List.length_singleton]
        omega
      · intro i found hfound
        simp only at hfound ⊢
        rw [List.getElem?_append] at hfound
        split at hfound
        · exact hfair.attached i found hfound
        · obtain rfl := List.mem_singleton.mp (List.mem_of_getElem? hfound)
          refine ⟨fun hfalse => Bool.noConfusion hfalse, ?_⟩
          rintro ⟨set, entry, hentry, hchild⟩
          have hlt := hfair.sound.child set entry hentry
          rw [hchild] at hlt
          exact absurd hlt (Nat.lt_irrefl _)
  | bind hstages hslot hset =>
      refine ⟨hsound, ?_, ?_, hfair.single⟩
      · have hcount := hfair.count
        rwa [← List.length_set] at hcount
      · intro i found hfound
        simp only at hfound ⊢
        rw [List.getElem?_set] at hfound
        split at hfound
        · split at hfound
          · cases hfound
            have hattached := hfair.attached _ _ hslot
            exact hattached
          · cases hfound
        · exact hfair.attached i found hfound
  | under hne hupper hlower hfree hset hsame hfresh => exact hfair.hang _ hlower hfree

theorem Fair.rest (hfair : before.Fair first) (hrest : Rest before after) : after.Fair first := by
  cases hrest with
  | skip => exact hfair
  | hang hslot hfree hset hfresh => exact hfair.hang _ hslot hfree

theorem Fair.run {moments : List Moment} (hfair : before.Fair first)
    (hrun : Run before moments after) : after.Fair first := by
  induction hrun with
  | stop here => exact hfair
  | quietly hstep _ ih | tied hstep _ ih => exact ih (hfair.step hstep)

theorem Fair.rests (hfair : before.Fair first) (hrests : Rests before after) : after.Fair first := by
  induction hrests with
  | stop here => exact hfair
  | rest hrest _ ih => exact ih (hfair.rest hrest)

/-- A sound cast without slots is where a run begins. -/
theorem Sound.fair (hsound : cast.Sound) (hempty : cast.slots = []) : cast.Fair cast.nextId where
  sound := hsound
  count := by rw [hempty]; rfl
  attached index slot hslot := by
    rw [hempty] at hslot
    cases hslot
  single set _ entry hentry _ _ _ hown := absurd (hsound.child set entry hentry) (Nat.not_lt.mpr hown)

/-! ### Where attachments come from -/

/-- What hangs after a run hung there before it, or was hung at one of its moments. -/
theorem mem_hung_run {moments : List Moment} (hrun : Run before moments after) {set : SetHandle}
    {entry : Attachment} (hentry : entry ∈ after.hung set) :
    entry ∈ before.hung set ∨ ∃ moment ∈ moments, ∃ upper lower, moment.At upper lower set ∧
      entry = ⟨some upper.id, lower.id⟩ := by
  induction hrun with
  | stop here => exact .inl hentry
  | quietly hstep _ ih =>
      rcases ih hentry with hold | hmade
      · cases hstep with
        | still | create | bind => exact .inl hold
      · exact .inr hmade
  | tied hstep _ ih =>
      rcases ih hentry with hold | ⟨moment, hmoment, hmade⟩
      · cases hstep with
        | under hne hupper hlower hfree hset hsame hfresh =>
            rcases mem_hung_hang.mp hold with hold | ⟨rfl, rfl⟩
            · exact .inl hold
            · exact .inr ⟨_, List.mem_cons_self, _, _, ⟨hupper, hlower, hset, hsame⟩, rfl⟩
      · exact .inr ⟨moment, List.mem_cons_of_mem _ hmoment, hmade⟩

/-- A moment lies between two parts of its run. -/
theorem Run.at_moment {moments : List Moment} (hrun : Run before moments after) {moment : Moment}
    (hmoment : moment ∈ moments) :
    ∃ next done rest, Run before done moment.cast ∧
      Step moment.cast (some (moment.parent, moment.child)) next ∧ Run next rest after := by
  induction hrun with
  | stop here => cases hmoment
  | quietly hstep _ ih =>
      obtain ⟨next, done, rest, hdone, hmid, hrest⟩ := ih hmoment
      exact ⟨next, done, rest, .quietly hstep hdone, hmid, hrest⟩
  | tied hstep hrun ih =>
      rcases List.mem_cons.mp hmoment with rfl | hlater
      · exact ⟨_, [], _, .stop _, hstep, hrun⟩
      · obtain ⟨next, done, rest, hdone, hmid, hrest⟩ := ih hlater
        exact ⟨next, _, rest, .tied hstep hdone, hmid, hrest⟩

theorem Run.later_of_moment {moments : List Moment} (hrun : Run before moments after) {moment : Moment}
    (hmoment : moment ∈ moments) : Later moment.cast after := by
  obtain ⟨next, _, _, _, hstep, hrest⟩ := hrun.at_moment hmoment
  exact (Later.step hstep).trans (Later.run hrest)

/-- What was hung at a moment hangs there for good. -/
theorem Run.hung_of_moment {moments : List Moment} (hrun : Run before moments after) {moment : Moment}
    (hmoment : moment ∈ moments) :
    ∃ upper lower set, moment.At upper lower set ∧ ⟨some upper.id, lower.id⟩ ∈ after.hung set := by
  obtain ⟨next, _, _, _, hstep, hrest⟩ := hrun.at_moment hmoment
  cases hstep with
  | under hne hupper hlower hfree hset hsame hfresh =>
      exact ⟨_, _, _, ⟨hupper, hlower, hset, hsame⟩,
        (Later.run hrest).hung _ _ (mem_hung_hang.mpr (.inr ⟨rfl, rfl⟩))⟩

/-- A slot of a moment is a slot at the end, with the same identity. -/
theorem slot_at_end {start mid last : Cast} {moments : List Moment} (hrun : Run start moments mid)
    (hrests : Rests mid last) {moment : Moment} (hmoment : moment ∈ moments) {index : Nat}
    (hslot : moment.cast.slots[index]? = some slot) :
    ∃ later, last.slots[index]? = some later ∧ later.id = slot.id ∧ (slot.set.isSome → later.set.isSome) :=
  ((hrun.later_of_moment hmoment).trans (Later.rests hrests)).slot index slot hslot

end Cast

end Playprint
