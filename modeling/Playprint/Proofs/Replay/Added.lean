import Mathlib.Data.List.Nodup
import Playprint.Proofs.Replay.Cast

/-!
What a run hangs. On every set it is added behind what was there before, and what is added in all belongs
to the roles of the run: each of them, bound to a set in the end, has come to hang in exactly one place.
-/

namespace Playprint

/-- What hangs on a set behind everything that hung there before. -/
def Attachment.appended (before after : SetHandle → List Attachment) (set : SetHandle) : List Attachment :=
  (after set).drop (before set).length

/-- Where the role of an actor was added: a set, and a position among all that was added there. -/
def Attachment.AddedAt (before after : SetHandle → List Attachment) (id : ObjectId)
    (place : SetHandle × Nat) : Prop :=
  (appended before after place.1)[place.2]?.map Attachment.child = some id

namespace Cast

variable {before mid after cast : Cast} {slot : Standing} {set : SetHandle}

/-- What was added to one set: roles that did not hang there, no two of them the same, of slots that are
bound in the end. -/
structure Adds (before after : Cast) (set : SetHandle) (more : List Attachment) : Prop where
  hung : after.hung set = before.hung set ++ more
  nodup : (more.map Attachment.child).Nodup
  fresh : ∀ entry ∈ more, ∀ old ∈ before.hung set, old.child ≠ entry.child
  owner : ∀ entry ∈ more, ∃ slot ∈ after.slots, slot.id = entry.child ∧ slot.set.isSome

theorem Adds.nothing (h : after.hung set = before.hung set) : Adds before after set [] where
  hung := h.trans (List.append_nil _).symm
  nodup := List.nodup_nil
  fresh := fun _ hentry => absurd hentry List.not_mem_nil
  owner := fun _ hentry => absurd hentry List.not_mem_nil

theorem Later.owner (hlater : Later before after) {id : ObjectId}
    (h : ∃ slot ∈ before.slots, slot.id = id ∧ slot.set.isSome) :
    ∃ slot ∈ after.slots, slot.id = id ∧ slot.set.isSome := by
  obtain ⟨slot, hslot, rfl, hset⟩ := h
  obtain ⟨index, hindex⟩ := List.mem_iff_getElem?.mp hslot
  obtain ⟨later, hfound, hid, hkept⟩ := hlater.slot index slot hindex
  exact ⟨later, List.mem_of_getElem? hfound, hid, hkept hset⟩

theorem Adds.append {first second : List Attachment} (hfirst : Adds before mid set first)
    (hsecond : Adds mid after set second) (hlater : Later mid after) :
    Adds before after set (first ++ second) := by
  have hearlier : ∀ entry ∈ second, ∀ old ∈ before.hung set ++ first, old.child ≠ entry.child := by
    rw [← hfirst.hung]
    exact hsecond.fresh
  refine ⟨?hung, ?nodup, fun entry hentry => ?fresh, fun entry hentry => ?owner⟩
  case hung => rw [hsecond.hung, hfirst.hung, List.append_assoc]
  case nodup =>
    rw [List.map_append, List.nodup_append]
    refine ⟨hfirst.nodup, hsecond.nodup, fun id hid other hother hsame => ?_⟩
    obtain ⟨old, hold, rfl⟩ := List.mem_map.mp hid
    obtain ⟨entry, hentry, rfl⟩ := List.mem_map.mp hother
    exact hearlier entry hentry old (List.mem_append_right _ hold) hsame
  case fresh =>
    rcases List.mem_append.mp hentry with hentry | hentry
    · exact hfirst.fresh entry hentry
    · exact fun old hold => hearlier entry hentry old (List.mem_append_left _ hold)
  case owner =>
    rcases List.mem_append.mp hentry with hentry | hentry
    · exact hlater.owner (hfirst.owner entry hentry)
    · exact hsecond.owner entry hentry

/-- Hanging a role adds it to its set and nothing to any other one. -/
theorem adds_hang {index : Nat} (parent : Option ObjectId) (hslot : cast.slots[index]? = some slot)
    (hset : slot.set = some set) (hfresh : ∀ entry ∈ cast.hung set, entry.child ≠ slot.id)
    (other : SetHandle) : ∃ more, Adds cast (cast.hang index slot set parent) other more := by
  by_cases hother : other = set
  · subst hother
    have hlt := (List.getElem?_eq_some_iff.mp hslot).1
    have hmem : { slot with attached := true } ∈ (cast.hang index slot other parent).slots :=
      List.mem_of_getElem? (List.getElem?_set_self hlt)
    refine ⟨[⟨parent, slot.id⟩], Function.update_self .., List.nodup_singleton _, ?_, ?_⟩
    · intro entry hentry old hold
      obtain rfl := List.mem_singleton.mp hentry
      exact hfresh old hold
    · intro entry hentry
      obtain rfl := List.mem_singleton.mp hentry
      exact ⟨_, hmem, rfl, Option.isSome_of_mem hset⟩
  · exact ⟨[], .nothing (Function.update_of_ne hother ..)⟩

theorem adds_step {tie : Option (Nat × Nat)} (hstep : Step before tie after) (set : SetHandle) :
    ∃ more, Adds before after set more := by
  cases hstep with
  | still | create | bind => exact ⟨[], .nothing rfl⟩
  | under hne hupper hlower hfree hset hsame hfresh => exact adds_hang _ hlower hsame hfresh set

theorem adds_rest (hrest : Rest before after) (set : SetHandle) : ∃ more, Adds before after set more := by
  cases hrest with
  | skip => exact ⟨[], .nothing rfl⟩
  | hang hslot hfree hset hfresh => exact adds_hang _ hslot hset hfresh set

theorem adds_run {moments : List Moment} (hrun : Run before moments after) (set : SetHandle) :
    ∃ more, Adds before after set more := by
  induction hrun with
  | stop here => exact ⟨[], .nothing rfl⟩
  | quietly hstep hrest ih | tied hstep hrest ih =>
      obtain ⟨first, hfirst⟩ := adds_step hstep set
      obtain ⟨second, hsecond⟩ := ih
      exact ⟨_, hfirst.append hsecond (Later.run hrest)⟩

/-- While instructions are executed, what is added is hung at the moments of the run. -/
theorem adds_moments {moments : List Moment} (hrun : Run before moments after) (set : SetHandle) :
    ∃ more, Adds before after set more ∧ ∀ entry ∈ more, ∃ moment ∈ moments, ∃ upper lower,
      moment.At upper lower set ∧ entry = ⟨some upper.id, lower.id⟩ := by
  obtain ⟨more, hadds⟩ := adds_run hrun set
  refine ⟨more, hadds, fun entry hentry => ?_⟩
  rcases mem_hung_run hrun (hadds.hung ▸ List.mem_append_right _ hentry) with hold | hmade
  · exact absurd rfl (hadds.fresh entry hentry entry hold)
  · exact hmade

theorem adds_rests (hrests : Rests before after) (set : SetHandle) :
    ∃ more, Adds before after set more := by
  induction hrests with
  | stop here => exact ⟨[], .nothing rfl⟩
  | rest hrest hmore ih =>
      obtain ⟨first, hfirst⟩ := adds_rest hrest set
      obtain ⟨second, hsecond⟩ := ih
      exact ⟨_, hfirst.append hsecond (Later.rests hmore)⟩

theorem adds_appended {start last : Cast} {moments : List Moment} (hrun : Run start moments mid)
    (hrests : Rests mid last) (set : SetHandle) :
    Adds start last set (Attachment.appended start.hung last.hung set) := by
  obtain ⟨first, hfirst⟩ := adds_run hrun set
  obtain ⟨second, hsecond⟩ := adds_rests hrests set
  have hadds := hfirst.append hsecond (Later.rests hrests)
  rwa [Attachment.appended, hadds.hung, List.drop_left]

/-- A role that hangs in the end was added in one place and no other. -/
theorem existsUnique_addedAt {start last : Cast} {first : Nat} (hfair : last.Fair first)
    (hadds : ∀ set, Adds start last set (Attachment.appended start.hung last.hung set))
    (hstart : ∀ set, ∀ entry ∈ start.hung set, entry.child.value < first) (hslot : slot ∈ last.slots)
    (hattached : slot.attached = true) :
    ∃! place, Attachment.AddedAt start.hung last.hung slot.id place := by
  have hown := hfair.le hslot
  obtain ⟨index, hindex⟩ := List.mem_iff_getElem?.mp hslot
  obtain ⟨set, entry, hentry, hchild⟩ := (hfair.attached index slot hindex).mp hattached
  rw [(hadds set).hung] at hentry
  -- What hung before belongs to older actors.
  have hnew : entry ∈ Attachment.appended start.hung last.hung set := by
    rcases List.mem_append.mp hentry with hold | hnew
    · have hlt := hstart set entry hold
      rw [hchild] at hlt
      omega
    · exact hnew
  obtain ⟨position, hposition⟩ := List.mem_iff_getElem?.mp hnew
  have hadded : Attachment.AddedAt start.hung last.hung slot.id (set, position) := by
    rw [Attachment.AddedAt, hposition, Option.map_some, hchild]
  refine ⟨(set, position), hadded, fun place hplace => ?_⟩
  obtain ⟨other, twinPosition⟩ := place
  obtain ⟨twin, htwin, htwinChild⟩ := Option.map_eq_some_iff.mp hplace
  have hhung : twin ∈ last.hung other := by
    rw [(hadds other).hung]
    exact List.mem_append_right _ (List.mem_of_getElem? htwin)
  have hthere : entry ∈ last.hung set := (hadds set).hung ▸ hentry
  obtain ⟨rfl, rfl⟩ := hfair.single set other entry hthere twin hhung (hchild.trans htwinChild.symm)
    (hchild ▸ hown)
  have hlt := (List.getElem?_eq_some_iff.mp htwin).1
  have hsame : twinPosition = position :=
    (List.getElem?_inj (by rwa [List.length_map]) (hadds set).nodup).mp (by
      rw [List.getElem?_map, List.getElem?_map, htwin, hposition])
  rw [hsame]

end Cast

end Playprint
