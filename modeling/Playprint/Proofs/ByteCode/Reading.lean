import Playprint.ByteCode.Instruction
import Playprint.Proofs.Step

/-!
Instructions read back from their bytes. An index operand is ended by the byte after it, so an
instruction that ends in one is read back only in front of another opcode; all others whatever follows.
Main statement: `outcome_readOperands`.
-/

namespace Playprint

namespace Cursor

variable (order : ByteOrder) (offset : Nat)

theorem outcome_nextByte (byte : UInt8) (rest : Bytes) :
    nextByte.outcome ⟨order, offset, byte :: rest⟩ = (.ok byte, ⟨order, offset + 1, rest⟩) := rfl

theorem outcome_readBytes (data rest : Bytes) :
    (readBytes data.length).outcome ⟨order, offset, data ++ rest⟩ =
      (.ok data, ⟨order, offset + data.length, rest⟩) := by
  simp [readBytes, remaining]

theorem outcome_readWord (word : UInt32) (rest : Bytes) :
    readWord.outcome ⟨order, offset, order.wordBytes word ++ rest⟩ =
      (.ok word, ⟨order, offset + 4, rest⟩) := by
  have h := outcome_readBytes order offset (order.wordBytes word) rest
  rw [ByteOrder.length_wordBytes] at h
  simp only [readWord, Step.outcome_bind, Step.outcome_get, h, Step.outcome_pure,
    ByteOrder.word_wordBytes]

/-! ### Index operands -/

/-- The number that groups of seven bits spell, most significant first, after `value`. -/
def spelled (value : Nat) (digits : Bytes) : Nat :=
  digits.foldl (fun value digit => value * 128 + digit.toNat) value

theorem le_spelled (value : Nat) (digits : Bytes) : value ≤ spelled value digits := by
  induction digits generalizing value with
  | nil => exact Nat.le_refl value
  | cons digit digits ih =>
      calc value ≤ value * 128 + digit.toNat := by omega
        _ ≤ spelled value (digit :: digits) := ih _

theorem spelled_encodeIndex (value : Nat) : spelled 0 (encodeIndex value) = value := by
  rw [spelled, encodeIndex, List.foldl_map, List.foldl_reverse]
  exact Vlq.foldr_groups value

theorem lt_of_mem_encodeIndex {value : Nat} {digit : UInt8} (h : digit ∈ encodeIndex value) :
    digit < 128 := by
  simp only [encodeIndex, List.mem_map, List.mem_reverse] at h
  obtain ⟨group, hmem, rfl⟩ := h
  have hlt := Vlq.lt_of_mem_groups hmem
  rwa [UInt8.lt_iff_toNat_lt, Vlq.toNat_ofNat_of_lt hlt]

/-- Digits that spell an index are read up to the byte with the high bit that follows them. -/
theorem readIndexFrom_digits (start : Nat) {value : Nat} {digits : Bytes} (rest : Bytes) {stop : UInt8}
    (hdigits : ∀ digit ∈ digits, digit < 128) (hstop : 128 ≤ stop)
    (hmax : spelled value digits ≤ maxIndex) :
    readIndexFrom order start value offset (digits ++ stop :: rest) =
      (.ok (spelled value digits), ⟨order, offset + digits.length, stop :: rest⟩) := by
  induction digits generalizing value offset with
  | nil => simp [readIndexFrom, hstop, spelled]
  | cons digit digits ih =>
      have hdigit : ¬128 ≤ digit := UInt8.not_le.mpr (hdigits digit List.mem_cons_self)
      have hroom : ¬maxIndex / 128 < value := by
        have := Nat.le_trans (le_spelled (value * 128 + digit.toNat) digits) hmax
        omega
      rw [List.cons_append, readIndexFrom, if_neg hdigit, if_neg hroom,
        ih _ (fun other hmem => hdigits other (List.mem_cons_of_mem _ hmem)) hmax, List.length_cons,
        Nat.add_right_comm]
      rfl

theorem outcome_readIndex {value : Nat} (hmax : value ≤ maxIndex) {stop : UInt8}
    (hstop : 128 ≤ stop) (rest : Bytes) :
    readIndex.outcome ⟨order, offset, encodeIndex value ++ stop :: rest⟩ =
      (.ok value, ⟨order, offset + (encodeIndex value).length, stop :: rest⟩) := by
  have h := readIndexFrom_digits order offset offset rest
    (fun digit (hmem : digit ∈ encodeIndex value) => lt_of_mem_encodeIndex hmem) hstop
    ((spelled_encodeIndex value).symm ▸ hmax)
  rwa [spelled_encodeIndex] at h

end Cursor

namespace Opcode

theorem le_byte (op : Opcode) : 128 ≤ op.byte := by
  cases op <;> decide

end Opcode

namespace Instruction

/-- The property length in force after an instruction. -/
def lengthAfter (length : Nat) : Instruction → Nat
  | setPropertyLength length => length
  | _ => length

/-- Whether an instruction can be told from its bytes when `length` is the property length in force. -/
def Fits (length : Nat) : Instruction → Prop
  | createActor index | setSet index | bindRole index | parentRole index | childRole index
  | setPropertyOffset index | setPropertyLength index | copyMediaRef index | createSet index =>
    index ≤ Cursor.maxIndex
  | copyProperty data => data.length = length
  | copyDynamicProperty data => data.length < UInt32.size
  | copyArrayProperty count data =>
    data.length = count.toNat * length ∧ data.length < UInt32.size
  | endActorGroup | endSet => True

instance (length : Nat) : (instruction : Instruction) → Decidable (instruction.Fits length)
  | createActor index | setSet index | bindRole index | parentRole index | childRole index
  | setPropertyOffset index | setPropertyLength index | copyMediaRef index | createSet index =>
    inferInstanceAs (Decidable (index ≤ Cursor.maxIndex))
  | copyProperty data => inferInstanceAs (Decidable (data.length = length))
  | copyDynamicProperty data => inferInstanceAs (Decidable (data.length < UInt32.size))
  | copyArrayProperty count data =>
    inferInstanceAs (Decidable (data.length = count.toNat * length ∧ data.length < UInt32.size))
  | endActorGroup | endSet => inferInstanceAs (Decidable True)

/-- Whether the last operand of an instruction is an index, which the next opcode has to end. -/
def EndsInIndex : Instruction → Prop
  | createActor _ | setSet _ | bindRole _ | parentRole _ | childRole _ | setPropertyOffset _
  | setPropertyLength _ | copyMediaRef _ | createSet _ => True
  | copyProperty _ | copyDynamicProperty _ | copyArrayProperty _ _ | endActorGroup | endSet => False

instance : (instruction : Instruction) → Decidable instruction.EndsInIndex
  | createActor _ | setSet _ | bindRole _ | parentRole _ | childRole _ | setPropertyOffset _
  | setPropertyLength _ | copyMediaRef _ | createSet _ => inferInstanceAs (Decidable True)
  | copyProperty _ | copyDynamicProperty _ | copyArrayProperty _ _ | endActorGroup | endSet =>
    inferInstanceAs (Decidable False)

/-- Whether bytes start with an opcode. -/
def StartsWithOpcode (bytes : Bytes) : Prop :=
  ∃ (op : Opcode) (rest : Bytes), bytes = op.byte :: rest

theorem outcome_map_readIndex (order : ByteOrder) (offset : Nat) {index : Nat} {rest : Bytes}
    (build : Nat → Instruction) (hmax : index ≤ Cursor.maxIndex) (hrest : StartsWithOpcode rest) :
    (build <$> Cursor.readIndex).outcome ⟨order, offset, Cursor.encodeIndex index ++ rest⟩ =
      (.ok (build index), ⟨order, offset + (Cursor.encodeIndex index).length, rest⟩) := by
  obtain ⟨op, rest, rfl⟩ := hrest
  exact Step.outcome_map_ok build (Cursor.outcome_readIndex order offset hmax op.le_byte rest)

/-- The operands of an instruction are read back from their bytes. -/
theorem outcome_readOperands (order : ByteOrder) (offset : Nat) {length : Nat} {rest : Bytes}
    {instruction : Instruction} (hfits : instruction.Fits length)
    (hrest : instruction.EndsInIndex → StartsWithOpcode rest) :
    (instruction.opcode.readOperands length).outcome
        ⟨order, offset, instruction.operandBytes order ++ rest⟩ =
      (.ok instruction, ⟨order, offset + (instruction.operandBytes order).length, rest⟩) := by
  cases instruction with
  | createActor index | setSet index | bindRole index | parentRole index | childRole index
  | setPropertyOffset index | setPropertyLength index | copyMediaRef index | createSet index =>
      exact outcome_map_readIndex order offset _ hfits (hrest trivial)
  | copyProperty data =>
      have hlength : data.length = length := hfits
      subst hlength
      exact Step.outcome_map_ok copyProperty (Cursor.outcome_readBytes order _ data rest)
  | copyDynamicProperty data =>
      have hsize : (UInt32.ofNat data.length).toNat = data.length :=
        UInt32.toNat_ofNat_of_lt' hfits
      simp only [opcode, Opcode.readOperands, operandBytes, List.append_assoc]
      rw [Step.outcome_bind_ok (Cursor.outcome_readWord order _ _ _), hsize,
        Step.outcome_map_ok _ (Cursor.outcome_readBytes order _ data rest), List.length_append,
        ByteOrder.length_wordBytes, Nat.add_assoc]
  | copyArrayProperty count data =>
      obtain ⟨hlength, hsize⟩ := hfits
      have hroom : ¬UInt32.size ≤ count.toNat * length := by omega
      simp only [opcode, Opcode.readOperands, operandBytes, List.append_assoc]
      rw [Step.outcome_bind_ok (Cursor.outcome_readWord order _ _ _), if_neg hroom, ← hlength,
        Step.outcome_map_ok _ (Cursor.outcome_readBytes order _ data rest), List.length_append,
        ByteOrder.length_wordBytes, Nat.add_assoc]
  | endActorGroup | endSet => rfl

end Instruction

end Playprint
