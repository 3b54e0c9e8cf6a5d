import Mathlib.Data.Fintype.EquivFin
import Mathlib.Logic.Relation
import Playprint.Proofs.Replay.Cast

/-!
When the roles of a run are a forest. Hanging a role under another one checks only that the two are not the
same. The roles end up as a forest exactly when no role was ever put under one that was already below it,
and every role that others were put under has come to hang on the same set itself.
-/

namespace Playprint

open Relation (TransGen ReflTransGen)

/-- Whether a list of attachments puts a child directly under a parent. -/
def Attachment.Under (list : List Attachment) (child parent : ObjectId) : Prop :=
  ⟨some parent, child⟩ ∈ list

/-- Whether following parents from a role leads to one that hangs directly on the set. -/
inductive Attachment.Rooted (list : List Attachment) : ObjectId → Prop
  | top {child : ObjectId} (h : ⟨none, child⟩ ∈ list) : Rooted list child
  | under {child parent : ObjectId} (h : Under list child parent) (hparent : Rooted list parent) :
      Rooted list child

/-- A path with one more edge goes through it or could do without. -/
theorem transGen_insert {α : Type} {old new : α → α → Prop} {source target : α}
    (hnew : ∀ a b, new a b → old a b ∨ (a = source ∧ b = target)) {a b : α} (hpath : TransGen new a b) :
    TransGen old a b ∨ (ReflTransGen old a source ∧ ReflTransGen old target b) := by
  induction hpath with
  | single hedge =>
      rcases hnew _ _ hedge with hold | ⟨rfl, rfl⟩
      · exact .inl (.single hold)
      · exact .inr ⟨.refl, .refl⟩
  | tail _ hedge ih =>
      rcases hnew _ _ hedge with hold | ⟨rfl, rfl⟩ <;> rcases ih with hpath | ⟨hbefore, hbehind⟩
      · exact .inl (hpath.tail hold)
      · exact .inr ⟨hbefore, hbehind.tail hold⟩
      · exact .inr ⟨hpath.to_reflTransGen, .refl⟩
      · exact .inr ⟨hbefore, .refl⟩

namespace Cast

open Attachment (Under Rooted)

variable {start mid last before after cast : Cast} {moments : List Moment} {first : Nat}

/-- Every role of the run that hangs on a set reaches the set through its parents, and no role is above
itself that was not when the run began. -/
def Forest (start last : Cast) : Prop :=
  ∀ set, (∀ slot ∈ last.slots, ∀ entry ∈ last.hung set, entry.child = slot.id →
      Rooted (last.hung set) slot.id) ∧
    ∀ id, TransGen (Under (last.hung set)) id id → TransGen (Under (start.hung set)) id id

/-- The parent of a moment hangs on the same set in another cast, and was not below the child. -/
def Upholds (cast : Cast) (moment : Moment) : Prop :=
  ∀ upper lower set, moment.At upper lower set →
    (∃ entry ∈ cast.hung set, entry.child = upper.id) ∧
      ¬TransGen (Under (moment.cast.hung set)) upper.id lower.id

/-- No role from identity `first` on is above itself. -/
def Acyclic (first : Nat) (cast : Cast) : Prop :=
  ∀ set (id : ObjectId), first ≤ id.value → ¬TransGen (Under (cast.hung set)) id id

theorem Sound.acyclic (hsound : cast.Sound) : cast.Acyclic cast.nextId := by
  intro set id hid hcycle
  obtain ⟨parent, hunder, _⟩ := TransGen.head'_iff.mp hcycle
  exact absurd (hsound.child set _ hunder) (Nat.not_lt.mpr hid)

/-- Hanging a role under one that is not below it closes no ring. -/
theorem Acyclic.hang {index : Nat} {upper lower : Standing} {set : SetHandle}
    (hacyclic : cast.Acyclic first) (hne : upper.id ≠ lower.id)
    (hfree : ¬TransGen (Under (cast.hung set)) upper.id lower.id) :
    (cast.hang index lower set (some upper.id)).Acyclic first := by
  intro other id hid hcycle
  have hedges : ∀ child parent,
      Under ((cast.hang index lower set (some upper.id)).hung other) child parent →
      Under (cast.hung other) child parent ∨ (child = lower.id ∧ parent = upper.id) := by
    intro child parent hunder
    rcases mem_hung_hang.mp hunder with hold | ⟨_, hentry⟩
    · exact .inl hold
    · cases hentry
      exact .inr ⟨rfl, rfl⟩
  by_cases hother : other = set
  · subst hother
    rcases transGen_insert hedges hcycle with hold | ⟨hbefore, hbehind⟩
    · exact hacyclic other id hid hold
    · rcases Relation.reflTransGen_iff_eq_or_transGen.mp (hbehind.trans hbefore) with heq | hpath
      · exact hne heq.symm
      · exact hfree hpath
  · have hsame : ∀ child parent,
        Under ((cast.hang index lower set (some upper.id)).hung other) child parent →
        Under (cast.hung other) child parent := by
      intro child parent hunder
      rcases mem_hung_hang.mp hunder with hold | ⟨heq, _⟩
      · exact hold
      · exact absurd heq hother
    exact hacyclic other id hid (Relation.TransGen.mono hsame id id hcycle)

theorem Acyclic.run (hrun : Run before moments after) (hsound : before.Sound)
    (hacyclic : before.Acyclic first)
    (hfree : ∀ moment ∈ moments, ∀ upper lower set, moment.At upper lower set →
      ¬TransGen (Under (moment.cast.hung set)) upper.id lower.id) : after.Acyclic first := by
  induction hrun with
  | stop here => exact hacyclic
  | quietly hstep _ ih =>
      refine ih (hsound.step hstep) ?_ hfree
      cases hstep with
      | still | create | bind => exact hacyclic
  | tied hstep _ ih =>
      refine ih (hsound.step hstep) ?_ fun moment hmoment => hfree moment (List.mem_cons_of_mem _ hmoment)
      cases hstep with
      | under hne hupper hlower hopen hset hsame hfresh =>
          exact hacyclic.hang (fun hid => hne (hsound.index_eq hupper hlower hid))
            (hfree _ List.mem_cons_self _ _ _ ⟨hupper, hlower, hset, hsame⟩)

/-- The last call puts no role under another one. -/
theorem under_rests (hrests : Rests before after) {set : SetHandle} {child parent : ObjectId}
    (hunder : Under (after.hung set) child parent) : Under (before.hung set) child parent := by
  induction hrests with
  | stop here => exact hunder
  | rest hrest _ ih =>
      have hmid := ih hunder
      cases hrest with
      | skip => exact hmid
      | hang hslot hfree hset hfresh =>
          rcases mem_hung_hang.mp hmid with hold | ⟨_, hentry⟩
          · exact hold
          · cases hentry

/-- When nothing is above itself and every parent hangs somewhere, following parents comes to an end. -/
theorem rooted_of_acyclic (hfair : cast.Fair first) (hacyclic : cast.Acyclic first) {set : SetHandle}
    (hparent : ∀ slot ∈ cast.slots, ∀ parent, Under (cast.hung set) slot.id parent →
      ∃ owner ∈ cast.slots, owner.id = parent ∧ ∃ entry ∈ cast.hung set, entry.child = parent)
    {slot : Standing} (hslot : slot ∈ cast.slots) {entry : Attachment} (hentry : entry ∈ cast.hung set)
    (hchild : entry.child = slot.id) : Rooted (cast.hung set) slot.id := by
  -- Being above is a strict order on the finitely many slots, so it can be recurred on.
  let above (i j : Fin cast.slots.length) : Prop :=
    TransGen (Under (cast.hung set)) cast.slots[j].id cast.slots[i].id
  have htrans : IsTrans _ above := ⟨fun _ _ _ hij hjk => hjk.trans hij⟩
  have hirrefl : Std.Irrefl above := ⟨fun i =>
    hacyclic set _ (hfair.le (List.getElem_mem i.isLt))⟩
  have hwf : WellFounded above := Finite.wellFounded_of_trans_of_irrefl above
  obtain ⟨index, hlt, hindex⟩ := List.mem_iff_getElem.mp hslot
  have hall : ∀ i : Fin cast.slots.length, ∀ entry ∈ cast.hung set, entry.child = cast.slots[i].id →
      Rooted (cast.hung set) cast.slots[i].id := by
    intro i
    induction i using hwf.induction with
    | _ i ih =>
        rintro ⟨parent, child⟩ hentry rfl
        cases parent with
        | none => exact .top hentry
        | some parent =>
            obtain ⟨owner, howner, rfl, above, habove, hid⟩ :=
              hparent _ (List.getElem_mem i.isLt) parent hentry
            obtain ⟨j, hj, rfl⟩ := List.mem_iff_getElem.mp howner
            exact .under hentry (ih ⟨j, hj⟩ (.single hentry) above habove hid)
  have hroot := hall ⟨index, hlt⟩ entry hentry (hchild.trans (congrArg Standing.id hindex.symm))
  exact hindex ▸ hroot

/-- A ring of roles from before a run was there before it. -/
theorem Acyclic.ring (hacyclic : last.Acyclic first) {set : SetHandle}
    (hold : ∀ child parent, Under (last.hung set) child parent → child.value < first →
      Under (start.hung set) child parent) {a b : ObjectId}
    (hpath : TransGen (Under (last.hung set)) a b) (hback : TransGen (Under (last.hung set)) b a) :
    TransGen (Under (start.hung set)) a b := by
  have hring : ∀ id, TransGen (Under (last.hung set)) id id → id.value < first := by
    intro id hcycle
    by_contra hlt
    exact hacyclic set id (Nat.le_of_not_lt hlt) hcycle
  induction hpath with
  | single hedge => exact .single (hold _ _ hedge (hring _ (.head hedge hback)))
  | tail hpath hedge ih =>
      have hreturn := TransGen.head hedge hback
      exact (ih hreturn).tail (hold _ _ hedge (hring _ (hreturn.trans hpath)))

/-- What is under something now was so before the run, or has come there at a moment of it. -/
theorem under_cases (hrun : Run start moments mid) (hrests : Rests mid last) {set : SetHandle}
    {child parent : ObjectId} (hunder : Under (last.hung set) child parent) :
    Under (start.hung set) child parent ∨ ∃ moment ∈ moments, ∃ upper lower,
      moment.At upper lower set ∧ child = lower.id ∧ parent = upper.id := by
  rcases mem_hung_run hrun (under_rests hrests hunder) with hold | ⟨moment, hmoment, upper, lower, hat, heq⟩
  · exact .inl hold
  · cases heq
    exact .inr ⟨moment, hmoment, upper, lower, hat, rfl, rfl⟩

theorem Forest.upholds (hforest : Forest start last) (hsound : start.Sound)
    (hfair : last.Fair start.nextId) (hrun : Run start moments mid) (hrests : Rests mid last)
    {moment : Moment} (hmoment : moment ∈ moments) : last.Upholds moment := by
  intro upper lower set hat
  obtain ⟨_, _, _, ⟨hparent, hchild, _, hset⟩, hmade⟩ := hrun.hung_of_moment hmoment
  obtain rfl := Option.some.inj (hat.parent.symm.trans hparent)
  obtain rfl := Option.some.inj (hat.child.symm.trans hchild)
  obtain rfl := Option.some.inj (hat.lowerSet.symm.trans hset)
  have hlater := (hrun.later_of_moment hmoment).trans (Later.rests hrests)
  have hentry := (Later.rests hrests).hung _ _ hmade
  obtain ⟨below, hbelow, hbelowId, _⟩ := slot_at_end hrun hrests hmoment hat.child
  have hmem := List.mem_of_getElem? hbelow
  obtain ⟨hrooted, hring⟩ := hforest set
  have hroot := hrooted below hmem _ hentry hbelowId.symm
  have hown := hfair.le hmem
  rw [hbelowId] at hroot hown
  constructor
  · -- The child has this one entry, so its way to the set leads through the parent.
    have hthrough : ∀ twin ∈ last.hung set, twin.child = lower.id → twin.parent = some upper.id := by
      intro twin htwin hchild
      obtain ⟨_, rfl⟩ := hfair.single _ _ _ hentry twin htwin hchild.symm hown
      rfl
    cases hroot with
    | top htop => cases hthrough _ htop rfl
    | under hunder hparent =>
        obtain rfl := Option.some.inj (hthrough _ hunder rfl)
        cases hparent with
        | top htop => exact ⟨_, htop, rfl⟩
        | under habove _ => exact ⟨_, habove, rfl⟩
  · intro hpath
    have hbehind := Relation.TransGen.mono (fun _ _ hunder => hlater.hung set _ hunder) _ _ hpath
    exact hsound.acyclic set lower.id hown (hring lower.id (.head hentry hbehind))

theorem forest_of_upholds (hsound : start.Sound) (hfair : last.Fair start.nextId)
    (hrun : Run start moments mid) (hrests : Rests mid last)
    (hupholds : ∀ moment ∈ moments, last.Upholds moment) : Forest start last := by
  have hacyclic : last.Acyclic start.nextId := by
    have hmid := Acyclic.run hrun hsound hsound.acyclic fun moment hmoment upper lower set hat =>
      (hupholds moment hmoment upper lower set hat).2
    intro set id hid hcycle
    exact hmid set id hid (Relation.TransGen.mono (fun _ _ => under_rests hrests) _ _ hcycle)
  intro set
  constructor
  · intro slot hslot entry hentry hchild
    refine rooted_of_acyclic hfair hacyclic ?_ hslot hentry hchild
    intro slot hslot parent hunder
    rcases under_cases hrun hrests hunder with hold | ⟨moment, hmoment, upper, lower, hat, _, rfl⟩
    · exact absurd (hsound.child set _ hold) (Nat.not_lt.mpr (hfair.le hslot))
    · obtain ⟨owner, howner, hid, _⟩ := slot_at_end hrun hrests hmoment hat.parent
      obtain ⟨entry, hentry, hchild⟩ := (hupholds moment hmoment upper lower set hat).1
      exact ⟨owner, List.mem_of_getElem? howner, hid, entry, hentry, hchild⟩
  · intro id hcycle
    refine hacyclic.ring (fun child parent hunder hlt => ?_) hcycle hcycle
    rcases under_cases hrun hrests hunder with hold | ⟨moment, hmoment, upper, lower, hat, rfl, _⟩
    · exact hold
    · obtain ⟨below, hbelow, hid, _⟩ := slot_at_end hrun hrests hmoment hat.child
      have hown := hfair.le (List.mem_of_getElem? hbelow)
      rw [hid] at hown
      exact absurd hlt (Nat.not_lt.mpr hown)

/-- The roles of a run are a forest exactly when every moment is upheld. -/
theorem forest_iff (hsound : start.Sound) (hempty : start.slots = []) (hrun : Run start moments mid)
    (hrests : Rests mid last) : Forest start last ↔ ∀ moment ∈ moments, last.Upholds moment := by
  have hfair := ((hsound.fair hempty).run hrun).rests hrests
  constructor
  · intro hforest moment hmoment
    exact hforest.upholds hsound hfair hrun hrests hmoment
  · exact forest_of_upholds hsound hfair hrun hrests

end Cast

end Playprint
