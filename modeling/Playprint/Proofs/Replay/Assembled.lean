import Playprint.Loader
import Playprint.Proofs.Container.Reading
import Playprint.Proofs.Replay.Effects
import Playprint.Proofs.Replay.Rounds
import Playprint.Stock

/-!
Assembled byte code means its instructions. Where every operand fits and the last one does not end in an
index, a run reads back exactly the instructions that were assembled, for one of these always ends the
index operand before it. A run then has the effect of the instructions on fresh registers, and a group
chunk that of its instructions between its header and the initialisation of its actors.
-/

namespace Playprint

namespace Instruction

/-- Whether instructions can be told from their bytes when `length` is the property length before them. -/
def FitAll : Nat → List Instruction → Prop
  | _, [] => True
  | length, instruction :: rest => instruction.Fits length ∧ FitAll (instruction.lengthAfter length) rest

instance fitAllDecidable : (length : Nat) → (instructions : List Instruction) →
    Decidable (FitAll length instructions)
  | _, [] => inferInstanceAs (Decidable True)
  | length, instruction :: rest =>
    have := fitAllDecidable (instruction.lengthAfter length) rest
    inferInstanceAs (Decidable (instruction.Fits length ∧ FitAll (instruction.lengthAfter length) rest))

/-- Whether the last of some instructions ends in an index. -/
def EndInIndex (instructions : List Instruction) : Prop :=
  ∃ last ∈ instructions.getLast?, last.EndsInIndex

instance (instructions : List Instruction) : Decidable (EndInIndex instructions) :=
  inferInstanceAs (Decidable (∃ last ∈ instructions.getLast?, last.EndsInIndex))

theorem startsWithOpcode_encodeAll (order : ByteOrder) {instructions : List Instruction}
    (h : instructions ≠ []) : StartsWithOpcode (encodeAll order instructions) := by
  obtain ⟨instruction, rest, rfl⟩ := List.exists_cons_of_ne_nil h
  exact ⟨instruction.opcode, _, rfl⟩

/-- An index operand is followed by another opcode. -/
theorem startsWithOpcode_of_endsInIndex (order : ByteOrder) {instruction : Instruction}
    {rest : List Instruction} (hlast : ¬EndInIndex (instruction :: rest))
    (hindex : instruction.EndsInIndex) : StartsWithOpcode (encodeAll order rest) := by
  apply startsWithOpcode_encodeAll order
  rintro rfl
  exact hlast ⟨instruction, rfl, hindex⟩

theorem not_endInIndex_of_cons {instruction : Instruction} {rest : List Instruction}
    (h : ¬EndInIndex (instruction :: rest)) : ¬EndInIndex rest := by
  rintro ⟨last, hlast, hindex⟩
  refine h ⟨last, ?_, hindex⟩
  rw [List.getLast?_cons, hlast, Option.getD_some, Option.mem_some]

theorem encodeAll_cons (order : ByteOrder) (instruction : Instruction) (rest : List Instruction) :
    encodeAll order (instruction :: rest) =
      instruction.opcode.byte :: (instruction.operandBytes order ++ encodeAll order rest) := rfl

theorem length_encodeAll_cons (order : ByteOrder) (instruction : Instruction)
    (rest : List Instruction) :
    (encodeAll order (instruction :: rest)).length =
      (instruction.encode order).length + (encodeAll order rest).length := by
  rw [encodeAll, List.flatMap_cons, List.length_append, encodeAll]

end Instruction

namespace Assembly

/-- A stream with instructions appended one after another. -/
def pushAll (assembly : Assembly) (instructions : List Instruction) : Assembly :=
  instructions.foldl push assembly

theorem pushAll_eq (assembly : Assembly) (instructions : List Instruction) :
    assembly.pushAll instructions =
      ⟨assembly.order, assembly.stream ++ Instruction.encodeAll assembly.order instructions⟩ := by
  induction instructions generalizing assembly with
  | nil => simp [pushAll, Instruction.encodeAll]
  | cons instruction rest ih =>
      calc assembly.pushAll (instruction :: rest)
          = (assembly.push instruction).pushAll rest := rfl
        _ = _ := ih _
        _ = _ := by simp [push, Instruction.encodeAll]

/-- What appending instructions to an empty stream makes. -/
theorem pushAll_empty (order : ByteOrder) (instructions : List Instruction) :
    (empty order).pushAll instructions = ⟨order, Instruction.encodeAll order instructions⟩ :=
  pushAll_eq _ _

end Assembly

namespace Replay

open Instruction (FitAll EndInIndex encodeAll)

variable {K : Catalog} {σ : Type} {script : Script K} {host : Host K σ} {order : ByteOrder}
  {replay : Replay K σ} {instruction : Instruction} {instructions rest : List Instruction}
  {offset : Nat}

/-! ### One instruction -/

theorem outcome_fetch_of_permit (order : ByteOrder) (offset : Nat)
    (hpermit : permit script instruction.opcode replay = .ok ())
    (hfits : instruction.Fits replay.registers.length)
    (hlast : ¬EndInIndex (instruction :: rest)) :
    (fetch script replay).outcome ⟨order, offset, encodeAll order (instruction :: rest)⟩ =
      (.ok instruction, ⟨order, offset + (instruction.encode order).length, encodeAll order rest⟩) := by
  have hread := Instruction.outcome_readOperands order (offset + 1) hfits
    (Instruction.startsWithOpcode_of_endsInIndex order hlast)
  have hlength : offset + 1 + (instruction.operandBytes order).length =
      offset + (instruction.encode order).length := by
    rw [Instruction.encode, List.length_cons]
    omega
  simp only [fetch, Cursor.position, Step.outcome_bind, Step.outcome_get, Step.outcome_pure,
    Instruction.encodeAll_cons, Cursor.outcome_nextByte, Opcode.ofByte?_byte, hpermit,
    Step.outcome_ofExcept, hread, hlength]

/-- An opcode that is refused is refused before its operands are read. -/
theorem outcome_fetch_of_refuse {error : FormatError}
    (hpermit : permit script instruction.opcode replay = .error error) :
    (fetch script replay).outcome ⟨order, offset, encodeAll order (instruction :: rest)⟩ =
      (.error error, ⟨order, offset + 1, instruction.operandBytes order ++ encodeAll order rest⟩) := by
  simp only [fetch, Cursor.position, Step.outcome_bind, Step.outcome_get, Step.outcome_pure,
    Instruction.encodeAll_cons, Cursor.outcome_nextByte, Opcode.ofByte?_byte, hpermit,
    Step.outcome_ofExcept]

theorem outcome_execute_of_refuse {error : FormatError}
    (hpermit : permit script instruction.opcode replay = .error error) :
    (execute script host instruction).outcome replay = (.error (.format error), replay) := by
  simp only [execute, Step.outcome_bind, Step.outcome_get, hpermit, outcome_refuse]

/-! ### All instructions -/

/-- A run of assembled bytes has the effect of the instructions. -/
theorem runFrom_encodeAll (order : ByteOrder) (offset : Nat) (script : Script K) (host : Host K σ)
    (replay : Replay K σ) (hfits : FitAll replay.registers.length instructions)
    (hlast : ¬EndInIndex instructions) :
    (runFrom script host ⟨order, offset, encodeAll order instructions⟩ replay).map id Prod.snd =
      (executeAll script host instructions).outcome replay := by
  induction instructions generalizing replay offset with
  | nil =>
      rw [runFrom_exhausted replay rfl]
      rfl
  | cons instruction rest ih =>
      obtain ⟨hfirst, hrest⟩ := hfits
      have hcursor : ¬(Cursor.mk order offset (encodeAll order (instruction :: rest))).isExhausted := by
        simp [Cursor.isExhausted, Instruction.encodeAll_cons]
      rw [executeAll, Step.forEach]
      cases hpermit : permit script instruction.opcode replay with
      | error error =>
          rw [runFrom_fetch_error hcursor (outcome_fetch_of_refuse hpermit),
            Step.outcome_bind_error (outcome_execute_of_refuse hpermit)]
          rfl
      | ok _ =>
          have hfetch := outcome_fetch_of_permit order offset hpermit hfirst hlast
          rcases hexecute : (execute script host instruction).outcome replay with ⟨error | _, after⟩
          · rw [runFrom_execute_error hfetch hexecute, Step.outcome_bind_error hexecute]
            rfl
          · rw [runFrom_round hfetch hexecute, Step.outcome_bind_ok hexecute]
            exact ih _ _ (length_execute hexecute ▸ hrest) (Instruction.not_endInIndex_of_cons hlast)

/-- The rounds of a run of assembled bytes stop between two of the instructions. -/
theorem Rounds.boundary {start last : Cursor × Replay K σ} {done : List Instruction}
    (h : Rounds script host start done last)
    (hstart : start.1 = ⟨order, offset, encodeAll order instructions⟩)
    (hfits : FitAll start.2.registers.length instructions) (hlast : ¬EndInIndex instructions) :
    ∃ rest, instructions = done ++ rest ∧
      last.1 = ⟨order, offset + (encodeAll order done).length, encodeAll order rest⟩ := by
  induction h generalizing instructions offset with
  | stop here => exact ⟨instructions, rfl, hstart⟩
  | round hfetch hexecute hrounds ih =>
      rename_i cursor left replay after fetched done last
      obtain rfl : cursor = _ := hstart
      cases instructions with
      | nil => exact absurd rfl (not_isExhausted_of_fetch hfetch)
      | cons instruction rest =>
          obtain ⟨hfirst, hrest⟩ := hfits
          cases hpermit : permit script instruction.opcode replay with
          | error error =>
              rw [outcome_fetch_of_refuse hpermit] at hfetch
              cases hfetch
          | ok _ =>
              rw [outcome_fetch_of_permit order offset hpermit hfirst hlast] at hfetch
              cases hfetch
              obtain ⟨rest, rfl, hleft⟩ := ih rfl (length_execute hexecute ▸ hrest)
                (Instruction.not_endInIndex_of_cons hlast)
              refine ⟨rest, rfl, ?_⟩
              rw [hleft, Instruction.length_encodeAll_cons, Nat.add_assoc]

/-- Instructions executed from fresh registers, and the end of their chunk. -/
def follow (script : Script K) (host : Host K σ) (instructions : List Instruction) :
    ReplayStep K σ Unit := do
  setRegisters fun _ => .fresh
  executeAll script host instructions
  finish script

theorem outcome_run_encodeAll (order : ByteOrder) (offset : Nat) (script : Script K)
    (host : Host K σ) (replay : Replay K σ) (hfits : FitAll 0 instructions)
    (hlast : ¬EndInIndex instructions) :
    ((run script host).outcome (⟨order, offset, encodeAll order instructions⟩, replay)).map id Prod.snd =
      (follow script host instructions).outcome replay := by
  have h := runFrom_encodeAll order offset script host { replay with registers := .fresh } hfits hlast
  rw [follow, Step.outcome_bind_ok (outcome_setRegisters _ _), run, Step.outcome_bind,
    Step.outcome_bind, ← h]
  simp only [Step.outcome_of]
  rcases runFrom script host _ _ with ⟨_ | _, left, after⟩ <;> rfl

end Replay

namespace Loader

open Instruction (FitAll EndInIndex encodeAll)

variable {K : Catalog} {σ : Type} {order : ByteOrder} {instructions : List Instruction}

/-- Instructions in a session; the answer is the replay as it has ended. -/
def follow (script : Script K) (host : Host K σ) (instructions : List Instruction) :
    SessionStep K σ (Replay K σ) :=
  Step.of fun session =>
    let (answer, ended) := (Replay.follow script host instructions).outcome (.start session)
    (answer.map fun () => ended, ended.session)

theorem replay_encodeAll {offset : Nat} (script : Script K) (host : Host K σ)
    (hfits : FitAll 0 instructions) (hlast : ¬EndInIndex instructions) :
    replay script host ⟨order, offset, encodeAll order instructions⟩ =
      follow script host instructions := by
  apply Step.ext
  intro session
  have h := Replay.outcome_run_encodeAll order offset script host (.start session) hfits hlast
  simp only [replay, follow, Step.outcome_of, ← h]
  rfl

/-- The group of a class whose actors a step of the session creates. -/
def groupAround (title : Title K) (typeIndex : UInt32)
    (create : SessionStep K Desk (Replay K Desk)) : LoadStep K (Group K) := do
  let group ← onWorld (title.newGroup typeIndex.toNat)
  let ended ← create
  let group ← addMembers group ended.records
  let context ← initContext
  let state ← onWorld (World.onJournal (K.groups.init group.className context group.state))
  return { group with state }

theorem read_eq_pure {α : Type} {step : CursorStep α} {cursor left : Cursor} {a : α}
    (h : step.outcome cursor = (.ok a, left)) : (read step cursor : LoadStep K _) = pure (a, left) := by
  rw [read, h]
  rfl

/-! ### Groups -/

theorem outcome_chunkCode {loader after : Loader K} {tocIndex : Nat} {tag : Tag} {payload : Bytes}
    (h : (onContainer (Container.readChunkAt tocIndex tag)).outcome loader = (.ok payload, after)) :
    (chunkCode tocIndex tag).outcome loader =
      (.ok (.ofBytes loader.host.container.order payload), after) := by
  have horder := Container.along_readChunkAt tocIndex tag loader.host.container
  rw [Step.Alike] at horder
  rw [chunkCode, Step.outcome_bind_ok h]
  rw [onContainer, Step.outcome_on, Prod.mk.injEq] at h
  obtain ⟨_, rfl⟩ := h
  simp only [Step.outcome_bind, Step.outcome_get, Step.outcome_pure, Step.outcome_mapError, horder]

/-- A group chunk is read up to its stream. -/
theorem outcome_loadGroup_encodeAll {loader after : Loader K} {title : Title K} {tocIndex : Nat}
    {typeIndex : UInt32} {actors : Nat} (hactors : actors ≤ Cursor.maxIndex)
    (hne : instructions ≠ []) (horder : loader.host.container.order = order)
    (hread : (onContainer (Container.readChunkAt tocIndex Tag.grp)).outcome loader =
      (.ok ((Assembly.mk order (encodeAll order instructions)).groupPayload typeIndex actors), after)) :
    (loadGroup title tocIndex).outcome loader =
      (groupAround title typeIndex (replay (.group title actors) (groupHost title)
        ⟨order, 4 + (Cursor.encodeIndex actors).length, encodeAll order instructions⟩)).outcome after := by
  obtain ⟨op, rest, hstream⟩ :=
    Instruction.startsWithOpcode_encodeAll order hne
  have hindex := Cursor.outcome_readIndex order 4 hactors op.le_byte rest
  rw [← hstream] at hindex
  have hword := Cursor.outcome_readWord order 0 typeIndex
    (Cursor.encodeIndex actors ++ encodeAll order instructions)
  rw [loadGroup, Step.outcome_bind_ok (outcome_chunkCode hread), horder, Cursor.ofBytes,
    Assembly.groupPayload, List.append_assoc, read_eq_pure hword]
  simp only [pure_bind, groupAround, Nat.zero_add, read_eq_pure hindex]

/-- Assembled instructions are run as such, whatever is around their bytes: a run has their effect and
outcome, it stops only between two of them, and a group chunk that holds them creates its actors by them. -/
theorem assembled_means_instructions (order : ByteOrder) {instructions : List Instruction}
    (hfits : FitAll 0 instructions) (hlast : ¬EndInIndex instructions) :
    let assembly := (Assembly.empty order).pushAll instructions
    (∀ {K : Catalog} {σ : Type} (script : Script K) (host : Host K σ) (offset : Nat)
      (replay : Replay K σ),
      ((Replay.run script host).outcome (⟨order, offset, assembly.stream⟩, replay)).map id Prod.snd =
        (Replay.follow script host instructions).outcome replay) ∧
    (∀ {K : Catalog} {σ : Type} (script : Script K) (host : Host K σ) (offset : Nat)
      (replay : Replay K σ) (done : List Instruction) (last : Cursor × Replay K σ),
      Replay.Rounds script host
        (⟨order, offset, assembly.stream⟩, { replay with registers := .fresh }) done last →
      ∃ rest, instructions = done ++ rest ∧
        last.1 = ⟨order, offset + (encodeAll order done).length, encodeAll order rest⟩) ∧
    (∀ {K : Catalog} (title : Title K) (loader after : Loader K) (tocIndex actors : Nat)
      (typeIndex : UInt32), actors ≤ Cursor.maxIndex → instructions ≠ [] →
      loader.host.container.order = order →
      (onContainer (Container.readChunkAt tocIndex Tag.grp)).outcome loader =
        (.ok (assembly.groupPayload typeIndex actors), after) →
      let header := 4 + (Cursor.encodeIndex actors).length
      let stream := replay (.group title actors) (groupHost title) ⟨order, header, assembly.stream⟩
      (loadGroup title tocIndex).outcome loader =
          (groupAround title typeIndex stream).outcome after ∧
        stream = follow (.group title actors) (groupHost title) instructions) := by
  intro assembly
  have hassembly : assembly = ⟨order, encodeAll order instructions⟩ :=
    Assembly.pushAll_empty order instructions
  rw [hassembly]
  refine ⟨?run, ?boundary, ?group⟩
  case run =>
    intro K σ script host offset replay
    exact Replay.outcome_run_encodeAll order offset script host replay hfits hlast
  case boundary =>
    intro K σ script host offset replay done last hrounds
    exact hrounds.boundary rfl hfits hlast
  case group =>
    intro K title loader after tocIndex actors typeIndex hactors hne horder hread
    exact ⟨outcome_loadGroup_encodeAll hactors hne horder hread, replay_encodeAll _ _ hfits hlast⟩

/-- A title that can build a set and name its tint. -/
def tintedTitle : Title Stock.catalog where
  manifest := ⟨[], [], [⟨"StageSet", none⟩], [], [], [], [], [⟨"StageSet", "tint"⟩], [], none⟩

/-- A set with a tint whose bytes look like opcodes. -/
def tintedSet : List Instruction :=
  [.createSet 0, .setPropertyOffset 0, .setPropertyLength 2, .copyProperty [0x8d, 0x80], .endSet]

theorem tintedSet_assembled :
    FitAll 0 tintedSet ∧ ¬EndInIndex tintedSet ∧
      ((Replay.run (.set tintedTitle) setHost).outcome
          (⟨.little, 0, ((Assembly.empty .little).pushAll tintedSet).stream⟩,
            .start ⟨(), .empty ()⟩)).map id Prod.snd =
        (Replay.follow (.set tintedTitle) setHost tintedSet).outcome (.start ⟨(), .empty ()⟩) ∧
      ((Replay.follow (.set tintedTitle) setHost tintedSet).outcome
        (.start ⟨(), .empty ()⟩)).1 = .ok () := by
  have hfits : FitAll 0 tintedSet := by decide
  have hlast : ¬EndInIndex tintedSet := by decide
  obtain ⟨hrun, _⟩ := assembled_means_instructions .little hfits hlast
  exact ⟨hfits, hlast, hrun _ _ _ _, rfl⟩

end Loader

end Playprint
