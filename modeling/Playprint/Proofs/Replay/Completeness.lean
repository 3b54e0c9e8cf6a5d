import Playprint.Proofs.Replay.Cast

/-!
When the last call is complete. After a run every bound role is to hang on the set that it is bound to, under
a role of the same set if under any. This holds exactly when no slot that ever took part in hanging one role
under another was bound to another set afterwards.
-/

namespace Playprint

namespace Cast

variable {start mid last before after cast : Cast} {moments : List Moment} {first : Nat}

/-- The set that a slot is bound to. -/
def setOf (cast : Cast) (index : Nat) : Option SetHandle :=
  cast.slots[index]?.bind Standing.set

/-- Every bound role hangs on the set it is bound to, under a role of this set if under any. -/
def Complete (cast : Cast) : Prop :=
  ∀ slot ∈ cast.slots, ∀ set, slot.set = some set → ∃ entry ∈ cast.hung set, entry.child = slot.id ∧
    ∀ parent, entry.parent = some parent →
      ∃ owner ∈ cast.slots, owner.id = parent ∧ owner.set = some set

/-- Both slots of a moment are bound to the same sets in another cast. -/
def Keeps (cast : Cast) (moment : Moment) : Prop :=
  cast.setOf moment.parent = moment.cast.setOf moment.parent ∧
    cast.setOf moment.child = moment.cast.setOf moment.child

theorem setOf_eq {index : Nat} {slot : Standing} (hslot : cast.slots[index]? = some slot) :
    cast.setOf index = slot.set := by
  rw [setOf, hslot, Option.bind_some]

/-- What the last call hangs is hung directly on the set of its slot. -/
theorem mem_hung_rests (hrests : Rests before after) {set : SetHandle} {entry : Attachment}
    (hentry : entry ∈ after.hung set) :
    entry ∈ before.hung set ∨ (entry.parent = none ∧
      ∃ slot ∈ after.slots, slot.id = entry.child ∧ slot.set = some set) := by
  induction hrests with
  | stop here => exact .inl hentry
  | rest hrest hmore ih =>
      rcases ih hentry with hold | hcalled
      · cases hrest with
        | skip => exact .inl hold
        | hang hslot hfree hset hfresh =>
            rcases mem_hung_hang.mp hold with hold | ⟨rfl, rfl⟩
            · exact .inl hold
            · obtain ⟨later, hlater, hid, hbound, _⟩ := slot_rests hmore
                (List.getElem?_set_self (List.getElem?_eq_some_iff.mp hslot).1)
              exact .inr ⟨rfl, later, List.mem_of_getElem? hlater, hid, hbound.trans hset⟩
      · exact .inr hcalled

theorem Complete.keeps (hcomplete : last.Complete) (hfair : last.Fair first)
    (hrun : Run start moments mid) (hrests : Rests mid last) {moment : Moment}
    (hmoment : moment ∈ moments) : last.Keeps moment := by
  obtain ⟨upper, lower, set, hat, hmade⟩ := hrun.hung_of_moment hmoment
  obtain ⟨above, habove, haboveId, _⟩ := slot_at_end hrun hrests hmoment hat.parent
  obtain ⟨below, hbelow, hbelowId, hbound⟩ := slot_at_end hrun hrests hmoment hat.child
  have hentry := (Later.rests hrests).hung _ _ hmade
  rw [hat.lowerSet] at hbound
  obtain ⟨other, hother⟩ := Option.isSome_iff_exists.mp (hbound rfl)
  obtain ⟨twin, htwin, hchild, hparent⟩ := hcomplete below (List.mem_of_getElem? hbelow) other hother
  -- The role of the child has one place only, so this is where it was hung at the moment.
  have hown := hfair.le (List.mem_of_getElem? hbelow)
  obtain ⟨rfl, rfl⟩ := hfair.single _ _ _ hentry _ htwin (hchild.trans hbelowId).symm (hbelowId ▸ hown)
  obtain ⟨owner, howner, hownerId, hownerSet⟩ := hparent _ rfl
  obtain rfl := hfair.sound.eq_of_id howner (List.mem_of_getElem? habove) (hownerId.trans haboveId.symm)
  constructor
  · rw [setOf_eq habove, setOf_eq hat.parent, hownerSet, hat.upperSet]
  · rw [setOf_eq hbelow, setOf_eq hat.child, hother, hat.lowerSet]

theorem complete_of_keeps (hsound : start.Sound) (hfair : last.Fair start.nextId)
    (hrun : Run start moments mid) (hrests : Rests mid last)
    (hall : ∀ slot ∈ last.slots, slot.set.isSome → slot.attached = true)
    (hkept : ∀ moment ∈ moments, last.Keeps moment) : last.Complete := by
  intro slot hslot set hset
  obtain ⟨index, hindex⟩ := List.mem_iff_getElem?.mp hslot
  obtain ⟨other, entry, hentry, hchild⟩ :=
    (hfair.attached index slot hindex).mp (hall slot hslot (hset ▸ rfl))
  rcases mem_hung_rests hrests hentry with hmade | ⟨hparent, owner, howner, hid, hbound⟩
  · rcases mem_hung_run hrun hmade with hold | ⟨moment, hmoment, upper, lower, hat, rfl⟩
    · have hlt := hsound.child other entry hold
      rw [hchild] at hlt
      exact absurd hlt (Nat.not_lt.mpr (hfair.le hslot))
    · obtain ⟨above, habove, haboveId, _⟩ := slot_at_end hrun hrests hmoment hat.parent
      obtain ⟨below, hbelow, hbelowId, _⟩ := slot_at_end hrun hrests hmoment hat.child
      obtain ⟨hparentSet, hchildSet⟩ := hkept moment hmoment
      rw [setOf_eq habove, setOf_eq hat.parent, hat.upperSet] at hparentSet
      rw [setOf_eq hbelow, setOf_eq hat.child, hat.lowerSet] at hchildSet
      obtain rfl := hfair.sound.eq_of_id hslot (List.mem_of_getElem? hbelow)
        (hchild.symm.trans hbelowId.symm)
      obtain rfl : set = other := Option.some.inj (hset.symm.trans hchildSet)
      refine ⟨_, hentry, hchild, ?_⟩
      rintro parent ⟨⟩
      exact ⟨above, List.mem_of_getElem? habove, haboveId, hparentSet⟩
  · obtain rfl := hfair.sound.eq_of_id howner hslot (hid.trans hchild)
    obtain rfl : set = other := Option.some.inj (hset.symm.trans hbound)
    refine ⟨entry, hentry, hchild, ?_⟩
    rw [hparent]
    rintro parent ⟨⟩

/-- The last call is complete exactly when no slot of a moment was bound to another set afterwards. -/
theorem complete_iff (hsound : start.Sound) (hempty : start.slots = []) (hrun : Run start moments mid)
    (hrests : Rests mid last)
    (hall : ∀ slot ∈ last.slots, slot.set.isSome → slot.attached = true) :
    last.Complete ↔ ∀ moment ∈ moments, last.Keeps moment := by
  have hfair := ((hsound.fair hempty).run hrun).rests hrests
  constructor
  · intro hcomplete moment hmoment
    exact hcomplete.keeps hfair hrun hrests hmoment
  · exact complete_of_keeps hsound hfair hrun hrests hall

end Cast

end Playprint
