import Playprint.Proofs.Replay.Assembled

/-!
Byte code in either byte order. The order enters the operands only in their words, and these are read back as
they were; indices and copied data do not depend on it. So instructions that were assembled in both orders are
read alike, up to the same failure, and replaying them comes to the same end. Nothing is asked of indices: one
that is too great, or that nothing ends, is refused in both orders.
-/

namespace Playprint

namespace Instruction

/-- Whether data that is copied is as long as it has to be when `length` is the property length in force. -/
def Measured (length : Nat) : Instruction → Prop
  | copyProperty data => data.length = length
  | copyArrayProperty count data => data.length = count.toNat * length
  | createActor _ | setSet _ | bindRole _ | parentRole _ | childRole _ | setPropertyOffset _
  | setPropertyLength _ | copyMediaRef _ | createSet _ | copyDynamicProperty _ | endActorGroup
  | endSet => True

instance (length : Nat) : (instruction : Instruction) → Decidable (instruction.Measured length)
  | copyProperty data => inferInstanceAs (Decidable (data.length = length))
  | copyArrayProperty count data => inferInstanceAs (Decidable (data.length = count.toNat * length))
  | createActor _ | setSet _ | bindRole _ | parentRole _ | childRole _ | setPropertyOffset _
  | setPropertyLength _ | copyMediaRef _ | createSet _ | copyDynamicProperty _ | endActorGroup
  | endSet => inferInstanceAs (Decidable True)

/-- Whether all data that instructions copy is as long as it has to be. -/
def MeasuredAll : Nat → List Instruction → Prop
  | _, [] => True
  | length, instruction :: rest =>
    instruction.Measured length ∧ MeasuredAll (instruction.lengthAfter length) rest

instance measuredAllDecidable : (length : Nat) → (instructions : List Instruction) →
    Decidable (MeasuredAll length instructions)
  | _, [] => inferInstanceAs (Decidable True)
  | length, instruction :: rest =>
    have := measuredAllDecidable (instruction.lengthAfter length) rest
    inferInstanceAs (Decidable
      (instruction.Measured length ∧ MeasuredAll (instruction.lengthAfter length) rest))

theorem length_operandBytes (order other : ByteOrder) (instruction : Instruction) :
    (instruction.operandBytes order).length = (instruction.operandBytes other).length := by
  cases instruction <;> simp [operandBytes]

theorem length_encodeAll (order other : ByteOrder) (instructions : List Instruction) :
    (encodeAll order instructions).length = (encodeAll other instructions).length := by
  induction instructions with
  | nil => rfl
  | cons instruction rest ih =>
      rw [length_encodeAll_cons, length_encodeAll_cons, ih, encode, encode, List.length_cons,
        List.length_cons, length_operandBytes order other]

/-- All operands but indices are told from their bytes. -/
theorem fits_of_measured {length : Nat} {instruction : Instruction} (h : instruction.Measured length)
    (order : ByteOrder) (hsize : (instruction.operandBytes order).length < UInt32.size)
    (hindex : ¬instruction.EndsInIndex) : instruction.Fits length := by
  cases instruction with
  | createActor _ | setSet _ | bindRole _ | parentRole _ | childRole _ | setPropertyOffset _
  | setPropertyLength _ | copyMediaRef _ | createSet _ => exact absurd trivial hindex
  | copyProperty data => exact h
  | copyDynamicProperty data =>
      rw [operandBytes, List.length_append] at hsize
      exact Nat.lt_of_le_of_lt (Nat.le_add_left _ _) hsize
  | copyArrayProperty count data =>
      rw [operandBytes, List.length_append] at hsize
      exact ⟨h, Nat.lt_of_le_of_lt (Nat.le_add_left _ _) hsize⟩
  | endActorGroup | endSet => trivial

end Instruction

open Instruction (encodeAll Measured MeasuredAll)

/-! ### Reading operands -/

namespace Cursor

variable {α β : Type}

/-- From bytes that were written in either order, the step reads the same value and stops in front of the
rest, or fails for the same cause. -/
inductive ReadsAlike (step : CursorStep α) (offset : Nat) (bytes : ByteOrder → Bytes) (value : α)
    (rest : ByteOrder → Bytes) : Prop
  | ok (next : Nat)
      (h : ∀ order, step.outcome ⟨order, offset, bytes order⟩ = (.ok value, ⟨order, next, rest order⟩))
  | error (error : FormatError)
      (h : ∀ order, ∃ left, step.outcome ⟨order, offset, bytes order⟩ = (.error error, left))

namespace ReadsAlike

variable {step : CursorStep α} {offset : Nat} {bytes rest : ByteOrder → Bytes} {value : α}

theorem map (f : α → β) (h : ReadsAlike step offset bytes value rest) :
    ReadsAlike (f <$> step) offset bytes (f value) rest := by
  cases h with
  | ok next h => exact .ok next fun order => Step.outcome_map_ok f (h order)
  | error error h =>
      refine .error error fun order => ?_
      obtain ⟨left, h⟩ := h order
      rw [← bind_pure_comp]
      exact ⟨left, Step.outcome_bind_error h⟩

end ReadsAlike

theorem readsAlike_readWord (offset : Nat) (word : UInt32) (rest : ByteOrder → Bytes) :
    ReadsAlike readWord offset (fun order => order.wordBytes word ++ rest order) word rest :=
  .ok (offset + 4) fun order => outcome_readWord order offset word (rest order)

/-- Digits in front of instructions spell an index, unless it is too great, or there are no instructions. -/
theorem readIndexFrom_encodeAll (start : Nat) {digits : Bytes} (hdigits : ∀ digit ∈ digits, digit < 128)
    (rest : List Instruction) (value offset : Nat) :
    (∀ order, readIndexFrom order start value offset (digits ++ encodeAll order rest) =
      (.ok (spelled value digits), ⟨order, offset + digits.length, encodeAll order rest⟩)) ∨
    ∃ error, ∀ order, ∃ left,
      readIndexFrom order start value offset (digits ++ encodeAll order rest) = (.error error, left) := by
  induction digits generalizing value offset with
  | nil =>
      cases rest with
      | nil => exact .inr ⟨_, fun order => ⟨_, rfl⟩⟩
      | cons instruction rest =>
          -- Every instruction begins with an opcode, at which the index ends.
          left
          intro order
          rw [List.nil_append, Instruction.encodeAll_cons, readIndexFrom,
            if_pos instruction.opcode.le_byte]
          rfl
  | cons digit digits ih =>
      have hdigit : ¬128 ≤ digit := UInt8.not_le.mpr (hdigits digit List.mem_cons_self)
      by_cases hroom : maxIndex / 128 < value
      · right
        refine ⟨.indexOverflow start, fun order => ⟨⟨order, offset + 1, digits ++ encodeAll order rest⟩, ?_⟩⟩
        rw [List.cons_append, readIndexFrom, if_neg hdigit, if_pos hroom]
      have hstep (order : ByteOrder) :
          readIndexFrom order start value offset (digit :: digits ++ encodeAll order rest) =
            readIndexFrom order start (value * 128 + digit.toNat) (offset + 1)
              (digits ++ encodeAll order rest) := by
        rw [List.cons_append, readIndexFrom, if_neg hdigit, if_neg hroom]
      simp only [hstep, List.length_cons, Nat.add_comm digits.length 1, ← Nat.add_assoc]
      exact ih (fun other hother => hdigits other (List.mem_cons_of_mem _ hother)) _ _

theorem readsAlike_readIndex (offset index : Nat) (rest : List Instruction) :
    ReadsAlike readIndex offset (fun order => encodeIndex index ++ encodeAll order rest) index
      fun order => encodeAll order rest := by
  rcases readIndexFrom_encodeAll offset (fun _ => lt_of_mem_encodeIndex) rest 0 offset with h | ⟨error, h⟩
  · rw [spelled_encodeIndex] at h
    exact .ok _ h
  · exact .error error h

end Cursor

namespace Instruction

open Cursor (ReadsAlike)

/-- The operands of an instruction in front of others. -/
theorem readsAlike_readOperands (offset : Nat) {length : Nat} {instruction : Instruction}
    (h : instruction.Measured length)
    (hsize : ∀ order, (instruction.operandBytes order).length < UInt32.size) (rest : List Instruction) :
    ReadsAlike (instruction.opcode.readOperands length) offset
      (fun order => instruction.operandBytes order ++ encodeAll order rest) instruction
      fun order => encodeAll order rest := by
  by_cases hindex : instruction.EndsInIndex
  · cases instruction with
    | createActor index | setSet index | bindRole index | parentRole index | childRole index
    | setPropertyOffset index | setPropertyLength index | copyMediaRef index | createSet index =>
        exact (Cursor.readsAlike_readIndex offset index rest).map _
    | copyProperty _ | copyDynamicProperty _ | copyArrayProperty _ _ | endActorGroup | endSet =>
        cases hindex
  · refine .ok (offset + (instruction.operandBytes .big).length) fun order => ?_
    have hfits := fits_of_measured h order (hsize order) hindex
    have hread := @outcome_readOperands order offset _ (encodeAll order rest) _ hfits (absurd · hindex)
    rwa [length_operandBytes order .big] at hread

end Instruction

/-! ### Replaying -/

namespace Replay

open Cursor (ReadsAlike)

variable {K : Catalog} {σ : Type} {script : Script K} {host : Host K σ}

/-- The next instruction is read alike, if it is permitted. -/
theorem readsAlike_fetch {replay : Replay K σ} {instruction : Instruction}
    (h : instruction.Measured replay.registers.length)
    (hsize : ∀ order, (instruction.operandBytes order).length < UInt32.size)
    (rest : List Instruction) (offset : Nat) :
    ReadsAlike (fetch script replay) offset (fun order => encodeAll order (instruction :: rest)) instruction
      fun order => encodeAll order rest := by
  cases hpermit : permit script instruction.opcode replay with
  | error error => exact .error error fun order => ⟨_, outcome_fetch_of_refuse hpermit⟩
  | ok _ =>
      have hfetch (order : ByteOrder) :
          (fetch script replay).outcome ⟨order, offset, encodeAll order (instruction :: rest)⟩ =
            (instruction.opcode.readOperands replay.registers.length).outcome
              ⟨order, offset + 1, instruction.operandBytes order ++ encodeAll order rest⟩ := by
        simp only [fetch, Cursor.position, Step.outcome_bind, Step.outcome_get, Step.outcome_pure,
          Instruction.encodeAll_cons, Cursor.outcome_nextByte, Opcode.ofByte?_byte, hpermit,
          Step.outcome_ofExcept]
      cases Instruction.readsAlike_readOperands (offset + 1) h hsize rest with
      | ok next h => exact .ok next fun order => (hfetch order).trans (h order)
      | error error h => exact .error error fun order => (h order).imp fun _ h => (hfetch order).trans h

/-- Runs of the same instructions come to the same end in both orders. -/
theorem runFrom_eitherOrder (order other : ByteOrder) {instructions : List Instruction} (offset : Nat)
    (replay : Replay K σ) (h : MeasuredAll replay.registers.length instructions)
    (hsize : ∀ order, (encodeAll order instructions).length < UInt32.size) :
    (runFrom script host ⟨order, offset, encodeAll order instructions⟩ replay).map id Prod.snd =
      (runFrom script host ⟨other, offset, encodeAll other instructions⟩ replay).map id Prod.snd := by
  induction instructions generalizing replay offset with
  | nil =>
      rw [runFrom_exhausted replay rfl, runFrom_exhausted replay rfl]
      rfl
  | cons instruction rest ih =>
      obtain ⟨hfirst, hrest⟩ := h
      have hlength (order : ByteOrder) := hsize order
      simp only [Instruction.length_encodeAll_cons, Instruction.encode, List.length_cons] at hlength
      have hcursor (order : ByteOrder) :
          ¬(Cursor.mk order offset (encodeAll order (instruction :: rest))).isExhausted := by
        simp [Cursor.isExhausted, Instruction.encodeAll_cons]
      cases @readsAlike_fetch _ _ script _ _ hfirst (fun order => by have := hlength order; omega)
        rest offset with
      | error error hfetch =>
          obtain ⟨_, hfetch₁⟩ := hfetch order
          obtain ⟨_, hfetch₂⟩ := hfetch other
          rw [runFrom_fetch_error (hcursor order) hfetch₁, runFrom_fetch_error (hcursor other) hfetch₂]
          rfl
      | ok next hfetch =>
          rcases hexecute : (execute script host instruction).outcome replay with ⟨error | _, after⟩
          · rw [runFrom_execute_error (hfetch order) hexecute, runFrom_execute_error (hfetch other) hexecute]
            rfl
          · rw [runFrom_round (hfetch order) hexecute, runFrom_round (hfetch other) hexecute]
            apply ih next after (length_execute hexecute ▸ hrest)
            intro order
            have := hlength order
            omega

end Replay

namespace Loader

variable {K : Catalog} {σ : Type}

/-- Byte code is replayed alike in both orders. -/
theorem replay_eitherOrder (script : Script K) (host : Host K σ) (order other : ByteOrder)
    {instructions : List Instruction} (offset : Nat) (h : MeasuredAll 0 instructions)
    (hsize : ∀ order, (encodeAll order instructions).length < UInt32.size) :
    replay script host ⟨order, offset, encodeAll order instructions⟩ =
      replay script host ⟨other, offset, encodeAll other instructions⟩ := by
  apply Step.ext
  intro session
  have hrun := @Replay.runFrom_eitherOrder _ _ script host order other _ offset
    { Replay.start session with registers := .fresh } h hsize
  rw [replay, replay, Step.outcome_of, Step.outcome_of]
  rcases hone : Replay.runFrom script host ⟨order, offset, encodeAll order instructions⟩
    { Replay.start session with registers := .fresh } with ⟨error | _, left, one⟩
  all_goals
    rcases hother : Replay.runFrom script host ⟨other, offset, encodeAll other instructions⟩
      { Replay.start session with registers := .fresh } with ⟨error' | _, left', two⟩
    all_goals
      rw [hone, hother] at hrun
      cases hrun
  · rw [Replay.outcome_run_error hone, Replay.outcome_run_error hother]
  · rw [Replay.outcome_run_ok hone, Replay.outcome_run_ok hother]

end Loader

end Playprint
