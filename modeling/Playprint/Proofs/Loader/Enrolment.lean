import Playprint.Proofs.Loader.Log

/-!
What the actors of a group are known by. An actor is named in its record, in the log, and in the role that is
bound to it. While the byte code of a group runs, these names are given out one actor after another, and never
come apart again, not even when an actor is bound anew.
-/

namespace Playprint

open Step (Along)

/-! ### Instructions of byte code -/

/-- The type of the actor that an instruction creates. -/
def Instruction.created? : Instruction → Option Nat
  | .createActor typeIndex => some typeIndex
  | _ => none

/-- The instructions that byte code spells to its end, when `length` is the property length before them. -/
inductive Cursor.Spells : Nat → Cursor → List Instruction → Prop
  | nothing {length : Nat} {code : Cursor} (hend : code.isExhausted) : Spells length code []
  | instruction {length : Nat} {code operands left : Cursor} {op : Opcode} {byte : UInt8}
      {instruction : Instruction} {rest : List Instruction}
      (hbyte : Cursor.nextByte.outcome code = (.ok byte, operands)) (hop : Opcode.ofByte? byte = some op)
      (hoperands : (op.readOperands length).outcome operands = (.ok instruction, left))
      (hrest : Spells (instruction.lengthAfter length) left rest) : Spells length code (instruction :: rest)

namespace Replay

variable {K : Catalog} {σ : Type} {script : Script K} {host : Host K σ}

/-- Rounds to the end of byte code execute the instructions that it spells. -/
theorem Rounds.spells {start last : Cursor × Replay K σ} {done : List Instruction}
    (h : Rounds script host start done last) (hend : last.1.isExhausted) :
    start.1.Spells start.2.registers.length done := by
  induction h with
  | stop here => exact .nothing hend
  | round hfetch hexecute _ ih =>
      obtain ⟨byte, op, operands, hbyte, hop, hoperands⟩ := fetch_ok hfetch
      have hrest := ih hend
      rw [length_execute hexecute] at hrest
      exact .instruction hbyte hop hoperands hrest

end Replay

/-! ### Names of actors -/

/-- What an actor is known by, and what its role knows of it. -/
structure Credentials where
  id : ObjectId
  typeIndex : Nat
  className : String
  role : Option ActorRef

/-- What an actor is known by, and what its role knows of it. -/
def ActorRecord.credentials {K : Catalog} (record : ActorRecord K) : Credentials :=
  ⟨record.id, record.typeIndex, record.actor.className, record.role.map Role.actor⟩

/-- The actor in a slot is logged under its own identity, type and class, and its role knows it by these. -/
structure Credentials.Registered (log : ObjectLog) (id : ObjectId) (slot : Nat) (who : Credentials) : Prop where
  named : who.id = id
  logged : log.objects[id.value]? = some ⟨id, who.typeIndex, who.className⟩
  role : ∀ actor, who.role = some actor → actor = ⟨id, who.typeIndex, slot⟩

/-- The actors of a roster are registered under consecutive identities. -/
def Enrolled (log : ObjectLog) (first : Nat) (roster : List Credentials) : Prop :=
  ∀ (slot : Nat) who, roster[slot]? = some who → who.Registered log ⟨first + slot⟩ slot

section Rosters

variable {log later : ObjectLog} {first declared : Nat} {roster changed : List Credentials}

theorem Enrolled.grows (h : Enrolled log first roster) (hgrows : log.Grows later) :
    Enrolled later first roster := by
  intro slot who hwho
  obtain ⟨hid, hlogged, hrole⟩ := h slot who hwho
  exact ⟨hid, hgrows.kept _ _ hlogged, hrole⟩

/-- What an instruction does to the roster and the log. -/
inductive Enrols (declared : Nat) (log : ObjectLog) (roster : List Credentials) :
    Option Nat → ObjectLog → List Credentials → Prop
  | still : Enrols declared log roster none log roster
  | create (typeIndex : Nat) (className : String) (hroom : roster.length < declared) :
      Enrols declared log roster (some typeIndex) (log.register typeIndex className).2
        (roster ++ [⟨⟨log.nextId⟩, typeIndex, className, none⟩])
  | bind {slot : Nat} {who : Credentials} (hwho : roster[slot]? = some who) :
      Enrols declared log roster none log
        (roster.set slot { who with role := some ⟨who.id, who.typeIndex, slot⟩ })

/-- A roster in the making: all of it is enrolled, and the next actor of the log is the next one of it. -/
structure Enrolling (declared first : Nat) (log : ObjectLog) (roster : List Credentials) : Prop where
  room : roster.length ≤ declared
  next : log.nextId = first + roster.length
  numbered : log.Numbered
  enrolled : Enrolled log first roster

theorem Enrolled.bind {slot : Nat} {who : Credentials} (h : Enrolled log first roster)
    (hwho : roster[slot]? = some who) :
    Enrolled log first (roster.set slot { who with role := some ⟨who.id, who.typeIndex, slot⟩ }) := by
  intro other found hfound
  rw [List.getElem?_set] at hfound
  split at hfound
  · rename_i hother
    subst hother
    split at hfound
    · cases hfound
      obtain ⟨hid, hlogged, _⟩ := h slot who hwho
      refine ⟨hid, hlogged, fun actor hactor => ?_⟩
      cases hactor
      rw [hid]
    · cases hfound
  · exact h other found hfound

theorem Enrolling.create (h : Enrolling declared first log roster) (typeIndex : Nat) (className : String)
    (hroom : roster.length < declared) :
    Enrolling declared first (log.register typeIndex className).2
      (roster ++ [⟨⟨log.nextId⟩, typeIndex, className, none⟩]) where
  room := by
    rw [List.length_append, List.length_singleton]
    exact hroom
  next := by
    rw [ObjectLog.register, List.length_append, List.length_singleton, h.next, Nat.add_assoc]
  numbered := h.numbered.register typeIndex className
  enrolled slot who hwho := by
    rcases Nat.lt_or_ge slot roster.length with hlt | hge
    · rw [List.getElem?_append_left hlt] at hwho
      exact h.enrolled.grows (ObjectLog.grows_register log typeIndex className) slot who hwho
    · obtain rfl : slot = roster.length := by
        have hlt := (List.getElem?_eq_some_iff.mp hwho).1
        rw [List.length_append, List.length_singleton] at hlt
        omega
      rw [List.getElem?_concat_length] at hwho
      cases hwho
      rw [← h.next]
      refine ⟨rfl, ?_, fun actor hactor => by cases hactor⟩
      rw [ObjectLog.register, h.numbered.size, Array.getElem?_push_size]

/-- What an instruction creates comes to the end of the roster. -/
theorem Enrolling.step {created : Option Nat} (h : Enrolling declared first log roster)
    (hstep : Enrols declared log roster created later changed) :
    Enrolling declared first later changed ∧
      changed.map Credentials.typeIndex = roster.map Credentials.typeIndex ++ created.toList := by
  cases hstep with
  | still => exact ⟨h, (List.append_nil _).symm⟩
  | create typeIndex className hroom => exact ⟨h.create typeIndex className hroom, List.map_append⟩
  | @bind slot who hwho =>
      refine ⟨⟨?_, ?_, h.numbered, h.enrolled.bind hwho⟩, ?_⟩
      · rw [List.length_set]
        exact h.room
      · rw [List.length_set]
        exact h.next
      · have hsame : (roster.map Credentials.typeIndex)[slot]? = some who.typeIndex := by
          rw [List.getElem?_map, hwho, Option.map_some]
        obtain ⟨hlt, hget⟩ := List.getElem?_eq_some_iff.mp hsame
        rw [List.map_set, Option.toList_none, List.append_nil, ← hget, List.set_getElem_self]

end Rosters

/-! ### Replays -/

namespace Replay

open Loader (groupHost)

variable {title : Title Stock.catalog} {declared first : Nat} {before after : Replay Stock.catalog Desk}

/-- What the actors of a replay are known by, in order of their slots. -/
def roster (replay : Replay Stock.catalog Desk) : List Credentials :=
  replay.slots.toList.map (·.record.credentials)

/-- The log of a replay. -/
def log (replay : Replay Stock.catalog Desk) : ObjectLog := replay.session.host.objects

/-- The log and the roster of a replay. -/
def enrolment (replay : Replay Stock.catalog Desk) : ObjectLog × List Credentials :=
  (replay.log, replay.roster)

theorem roster_getElem? (replay : Replay Stock.catalog Desk) (index : Nat) :
    replay.roster[index]? = replay.slots[index]?.map (·.record.credentials) := by
  rw [roster, List.getElem?_map, Array.getElem?_toList]

theorem enrolment_withAttached (index : Nat) (world : World Stock.catalog) :
    (before.withAttached index world).enrolment = before.enrolment :=
  congrArg (Prod.mk before.log) (map_slots_modify_of_same index fun _ => rfl)

theorem enrolment_attachChild {parent child : Nat}
    (h : (attachChild parent child).outcome before = (.ok (), after)) :
    after.enrolment = before.enrolment := by
  obtain ⟨_, _, _, _, _, world, _, _, _, _, _, _, _, _, _, rfl⟩ := attachChild_ok h
  exact enrolment_withAttached child world

theorem enrolment_attachRest {index : Nat} (h : (attachRest index).outcome before = (.ok (), after)) :
    after.enrolment = before.enrolment := by
  rcases attachRest_ok h with ⟨_, _, _, world, _, _, _, _, _, rfl⟩ | ⟨rfl, _⟩
  · exact enrolment_withAttached index world
  · rfl

theorem enrolment_lastCall (h : lastCall.outcome before = (.ok (), after)) :
    after.enrolment = before.enrolment := by
  rw [lastCall, Step.outcome_bind_ok (Step.outcome_get _)] at h
  exact Step.forEach_keeps (I := fun replay => replay.enrolment = before.enrolment)
    (fun _ _ _ hsame hattach => (enrolment_attachRest hattach).trans hsame) h rfl

/-- The newest actor stays who it is when it gets a property. -/
theorem enrolment_assignToActor {name : String} {value : Assignment}
    (h : (assignToActor name value).outcome before = (.ok (), after)) :
    after.enrolment = before.enrolment := by
  simp only [assignToActor, Step.outcome_bind_eq_ok_iff] at h
  obtain ⟨_, _, ⟨⟩, h⟩ := h
  split at h
  · cases h
  rename_i slot hlast
  simp only [Step.outcome_bind_eq_ok_iff] at h
  obtain ⟨state, _, hstate, h⟩ := h
  obtain ⟨world, _, rfl⟩ := onWorld_eq_ok_iff.mp hstate
  cases h
  rw [Array.back?_eq_getElem?] at hlast
  have hroster := map_slots_modify (·.record.credentials)
    (fun found => { found with record :=
      { found.record with actor := { slot.record.actor with state } } }) hlast
  have hsame : before.roster[before.slots.size - 1]? = some slot.record.credentials := by
    rw [roster_getElem?, hlast, Option.map_some]
  obtain ⟨hlt, hget⟩ := List.getElem?_eq_some_iff.mp hsame
  refine congrArg (Prod.mk before.log) (hroster.trans ?_)
  show before.roster.set _ slot.record.credentials = before.roster
  rw [← hget, List.set_getElem_self]

theorem enrolment_assign (title : Title Stock.catalog) (declared : Nat) {value : Assignment}
    (h : (assign (.group title declared) value).outcome before = (.ok (), after)) :
    after.enrolment = before.enrolment := by
  simp only [assign, Step.outcome_bind_eq_ok_iff] at h
  obtain ⟨_, _, ⟨⟩, h⟩ := h
  split at h
  · cases h
  · exact enrolment_assignToActor h

theorem enrols_createActor {typeIndex : Nat}
    (h : (createActor (.group title declared) (groupHost title) typeIndex).outcome before = (.ok (), after)) :
    Enrols declared before.log before.roster (some typeIndex) after.log after.roster := by
  obtain ⟨hroom, actor, world, _, rfl⟩ := createActor_ok h
  have hlength : before.roster.length < declared := by
    rw [roster, List.length_map, Array.length_toList]
    exact hroom
  have hroster : (before.withActor (groupHost title) typeIndex actor world).roster =
      before.roster ++ [⟨⟨before.log.nextId⟩, typeIndex, actor.className, none⟩] := by
    simp only [roster, withActor, Array.toList_push, List.map_append]
    rfl
  rw [hroster]
  exact .create typeIndex actor.className hlength

theorem enrols_bindRole {typeIndex : Nat}
    (h : (bindRole (.group title declared) (groupHost title) typeIndex).outcome before = (.ok (), after)) :
    Enrols declared before.log before.roster none after.log after.roster := by
  obtain ⟨index, setIndex, set, loaded, slot, role, world, _, hload, hslot, hrole, rfl⟩ := bindRole_ok h
  have hplace := Loader.inPlace_loadSet title setIndex before.session
  rw [show (Loader.loadSet title setIndex).outcome before.session = _ from hload] at hplace
  have hroster := map_slots_modify (·.record.credentials) (Slot.bound role ⟨setIndex, set⟩) hslot
  rw [show (Slot.bound role ⟨setIndex, set⟩ slot).record.credentials =
      { slot.record.credentials with role := some role.actor } from rfl,
    Title.actor_of_newRole hrole] at hroster
  have hfound : before.roster[index]? = some slot.record.credentials := by
    rw [roster_getElem?, hslot, Option.map_some]
  have hbind : Enrols declared before.log before.roster none before.log _ := .bind hfound
  rw [show (before.withRole index role ⟨setIndex, set⟩ ⟨loaded.host, world⟩).log = before.log from
      hplace.objects,
    show (before.withRole index role ⟨setIndex, set⟩ ⟨loaded.host, world⟩).roster = _ from hroster]
  exact hbind

theorem enrols_of_enrolment (h : after.enrolment = before.enrolment) :
    Enrols declared before.log before.roster none after.log after.roster := by
  obtain ⟨hlog, hroster⟩ := Prod.mk.inj h
  rw [hlog, hroster]
  exact .still

theorem enrols_of_execute {instruction : Instruction}
    (h : (execute (.group title declared) (groupHost title) instruction).outcome before = (.ok (), after)) :
    Enrols declared before.log before.roster instruction.created? after.log after.roster := by
  obtain ⟨_, h⟩ := execute_eq_ok_iff.mp h
  cases instruction with
  | createActor typeIndex => exact enrols_createActor h
  | bindRole typeIndex => exact enrols_bindRole h
  | childRole child =>
      obtain ⟨_, mid, _, hattach, rfl⟩ := childRole_ok h
      have hsame : mid.enrolment = before.enrolment := enrolment_attachChild hattach
      exact enrols_of_enrolment hsame
  | setSet index | parentRole index | setPropertyLength index =>
      cases h
      exact .still
  | setPropertyOffset index =>
      simp only [perform] at h
      split at h
      · cases h
      · cases h
        exact .still
  | copyProperty data | copyDynamicProperty data | copyMediaRef index =>
      exact enrols_of_enrolment (enrolment_assign title declared h)
  | copyArrayProperty count data =>
      simp only [perform, Step.outcome_bind, Step.outcome_get] at h
      exact enrols_of_enrolment (enrolment_assign title declared h)
  | createSet typeIndex =>
      simp only [perform, Step.outcome_bind_eq_ok_iff] at h
      obtain ⟨_, _, hset, h⟩ := h
      obtain ⟨world, _, rfl⟩ := onWorld_eq_ok_iff.mp hset
      cases h
      exact .still
  | endActorGroup | endSet =>
      cases h
      exact .still

/-- Rounds enrol the actors that their instructions create, in order. -/
theorem Rounds.enrolling {start last : Cursor × Replay Stock.catalog Desk} {done : List Instruction}
    (hrounds : Rounds (.group title declared) (groupHost title) start done last)
    (h : Enrolling declared first start.2.log start.2.roster) :
    Enrolling declared first last.2.log last.2.roster ∧
      last.2.roster.map Credentials.typeIndex =
        start.2.roster.map Credentials.typeIndex ++ done.filterMap Instruction.created? := by
  induction hrounds with
  | stop here => exact ⟨h, (List.append_nil _).symm⟩
  | @round _ _ _ _ instruction rest _ _ hexecute _ ih =>
      obtain ⟨hafter, hcreated⟩ := h.step (enrols_of_execute hexecute)
      obtain ⟨hlast, htypes⟩ := ih hafter
      refine ⟨hlast, ?_⟩
      rw [htypes, hcreated, List.append_assoc]
      cases hinstruction : instruction.created? with
      | none => rw [List.filterMap_cons_none hinstruction]; rfl
      | some typeIndex => rw [List.filterMap_cons_some hinstruction]; rfl

/-- A replay that succeeds has enrolled what its byte code creates, behind all that was logged before. -/
theorem enrolling_of_replay {loader left : Loader Stock.catalog} {code : Cursor}
    {ended : Replay Stock.catalog Desk} (hnumbered : loader.host.objects.Numbered)
    (h : (Loader.replay (.group title declared) (groupHost title) code).outcome loader = (.ok ended, left)) :
    ∃ instructions, code.Spells 0 instructions ∧
      ended.roster.map Credentials.typeIndex = instructions.filterMap Instruction.created? ∧
      Enrolling declared loader.host.objects.nextId left.host.objects ended.roster := by
  obtain ⟨rfl, done, last, hend, hrounds, hcall⟩ := replay_ok h
  have hstart : Enrolling declared loader.host.objects.nextId loader.host.objects [] :=
    ⟨Nat.zero_le _, rfl, hnumbered, fun _ _ hwho => nomatch hwho⟩
  obtain ⟨hlast, htypes⟩ := hrounds.enrolling hstart
  obtain ⟨hlog, hroster⟩ := Prod.mk.inj (enrolment_lastCall hcall)
  rw [← hlog, ← hroster] at hlast
  rw [← hroster] at htypes
  exact ⟨done, hrounds.spells hend, htypes, hlast⟩

end Replay

end Playprint
