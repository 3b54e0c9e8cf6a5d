import Playprint.Proofs.Container.RoundTrip
import Playprint.Proofs.Loader.Failures
import Playprint.Proofs.Loader.Staged
import Playprint.Proofs.Replay.Added

/-!
Every role is attached once. Two paths lead to a set, one while the byte code runs and one after it, with a
flag at each slot between them, and the sets watch over identities on their own. Over any loader that can be
reached, these agree: a replay that succeeds adds each role in one place, and no replay fails because they
disagree.
-/

namespace Playprint.Replay

open Loader (groupHost)
open Attachment (appended AddedAt)

variable {title : Title Stock.catalog} {declared : Nat} {code : Cursor}
  {loader left : Loader Stock.catalog} {ended : Replay Stock.catalog Desk}

theorem isSome_role_iff (hsound : ended.cast.Sound) {slot : Slot Stock.catalog}
    (hslot : slot ∈ ended.slots.toList) : slot.record.role.isSome ↔ slot.standing.set.isSome := by
  have hown := hsound.role slot.standing (mem_cast.mpr ⟨slot, hslot, rfl⟩)
  have hsome := congrArg Option.isSome hown
  rw [Option.isSome_map] at hsome
  rw [← hsome, Slot.standing, Option.isSome_map]

theorem nodup_ids (hsound : ended.cast.Sound) : (ended.records.map ActorRecord.id).Nodup := by
  have hids : ended.records.map ActorRecord.id = ended.cast.slots.map Standing.id := by
    change (ended.slots.toList.map Slot.record).map _ = (ended.slots.toList.map Slot.standing).map _
    rw [List.map_map, List.map_map]
    rfl
  rw [hids, List.nodup_iff_getElem?_ne_getElem?]
  intro i j hlt hj hsame
  rw [List.length_map] at hj
  rw [List.getElem?_map, List.getElem?_map, List.getElem?_eq_getElem hj,
    List.getElem?_eq_getElem (hlt.trans hj), Option.map_some, Option.map_some, Option.some.injEq] at hsame
  have heq := hsound.index_eq (List.getElem?_eq_getElem (hlt.trans hj)) (List.getElem?_eq_getElem hj) hsame
  omega

/-- What a replay that succeeded has added, over a sound loader. -/
theorem added_of_replay (hsound : loader.Sound)
    (h : (Loader.replay (.group title declared) (groupHost title) code).outcome loader =
      (.ok ended, left)) :
    (∀ set, loader.world.attachments set <+: left.world.attachments set) ∧
    (ended.records.map ActorRecord.id).Nodup ∧
    (∀ record ∈ ended.records, record.role.isSome →
      ∃! place, AddedAt loader.world.attachments left.world.attachments record.id place) ∧
    ∀ set, ∀ entry ∈ appended loader.world.attachments left.world.attachments set,
      ∃ record ∈ ended.records, record.role.isSome ∧ record.id = entry.child := by
  obtain ⟨rfl, moments, mid, hrun, hrests, hattached, _⟩ := casting_of_replay hsound h
  have hfair := ((orderly_start hsound).fair.run hrun).rests hrests
  have hadds := Cast.adds_appended hrun hrests
  refine ⟨fun set => ?prefixes, nodup_ids hfair.sound, fun record hrecord hrole => ?places,
    fun set entry hentry => ?owners⟩
  case prefixes => exact ⟨_, (hadds set).hung.symm⟩
  case places =>
    obtain ⟨slot, hslot, rfl⟩ := mem_records.mp hrecord
    have hmem := mem_cast.mpr ⟨slot, hslot, rfl⟩
    have hset := (isSome_role_iff hfair.sound hslot).mp hrole
    exact Cast.existsUnique_addedAt hfair hadds hsound.child hmem (hattached _ hmem hset)
  case owners =>
    obtain ⟨standing, hstanding, hid, hset⟩ := (hadds set).owner entry hentry
    obtain ⟨slot, hslot, rfl⟩ := mem_cast.mp hstanding
    exact ⟨slot.record, mem_records.mpr ⟨slot, hslot, rfl⟩, (isSome_role_iff hfair.sound hslot).mpr hset, hid⟩

/-- The replay of a group over a loader that can be reached never fails because a set refuses a role or a
role is missing. When it succeeds, what it adds to the sets and the actors that have a role in the end
correspond one to one: each of these actors is the child in exactly one place, and there are no others. -/
theorem roles_attached_once (h : Loader.Reachable title loader) {answer : Except LoadError _}
    (hreplay : (Loader.replay (.group title declared) (groupHost title) code).outcome loader =
      (answer, left)) :
    (∀ reason, answer ≠ .error (.format (.attachRejected reason))) ∧
    (∀ slot, answer ≠ .error (.format (.missingRole slot))) ∧
    ∀ ended, answer = .ok ended →
      (∀ set, loader.world.attachments set <+: left.world.attachments set) ∧
      (ended.records.map ActorRecord.id).Nodup ∧
      (∀ record ∈ ended.records, record.role.isSome →
        ∃! place, AddedAt loader.world.attachments left.world.attachments record.id place) ∧
      ∀ set, ∀ entry ∈ appended loader.world.attachments left.world.attachments set,
        ∃ record ∈ ended.records, record.role.isSome ∧ record.id = entry.child := by
  refine ⟨?_, ?_, ?_⟩
  · rintro reason rfl
    exact ordinary_of_replay h.sound hreplay
  · rintro slot rfl
    exact ordinary_of_replay h.sound hreplay
  · rintro ended rfl
    exact added_of_replay h.sound hreplay

/-- A container to be written with the chunk of one set. -/
def oneSet : Master where
  order := .big
  header := ⟨1, 2⟩
  sections := [.set (Instruction.encodeAll .big [.createSet 0, .endSet])]

/-- Its loader, when it was opened. -/
def oneSetLoader : Loader Stock.catalog := Loader.start stagedTitle oneSet.loaded ()

/-- Two actors are bound to the set that is built for the first of them, and one goes under the other. -/
theorem pair_attached_once :
    Container.load oneSet.encode = .ok oneSet.loaded ∧ Loader.Reachable stagedTitle oneSetLoader ∧
    ∃ ended left,
      (Loader.replay (.group stagedTitle 2) (groupHost stagedTitle) (stagedCode [])).outcome
        oneSetLoader = (.ok ended, left) ∧
      ended.records.map (fun record => (record.id, record.role.isSome)) = [(⟨0⟩, true), (⟨1⟩, true)] ∧
      (∀ record ∈ ended.records, record.role.isSome → ∃! place,
        AddedAt oneSetLoader.world.attachments left.world.attachments record.id
          place) ∧
      ∀ set, ∀ entry ∈ left.world.attachments set,
        ∃ record ∈ ended.records, record.role.isSome ∧ record.id = entry.child := by
  have hload : Container.load oneSet.encode = .ok oneSet.loaded :=
    Master.load_eq_loaded (by simp [oneSet]) (by decide +kernel)
  have hreachable : Loader.Reachable stagedTitle oneSetLoader := .start oneSet.loaded
  have hids : ((Loader.replay (.group stagedTitle 2) (groupHost stagedTitle) (stagedCode [])).outcome
      oneSetLoader).1.toOption.map (fun ended =>
        ended.records.map fun record => (record.id, record.role.isSome)) =
      some [(⟨0⟩, true), (⟨1⟩, true)] := by
    decide +kernel
  rcases hreplay : (Loader.replay (.group stagedTitle 2) (groupHost stagedTitle) (stagedCode [])).outcome
    oneSetLoader with ⟨error | ended, left⟩ <;> rw [hreplay] at hids
  · cases hids
  · obtain ⟨_, _, hadded⟩ := roles_attached_once hreachable hreplay
    obtain ⟨_, _, hplaces, howners⟩ := hadded ended rfl
    exact ⟨hload, hreachable, ended, left, rfl, Option.some.inj hids, hplaces, howners⟩

end Playprint.Replay
