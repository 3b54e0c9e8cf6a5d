import Playprint.Proofs.ByteCode.Reading
import Playprint.Proofs.ByteCode.Tape

/-!
Instructions that were read. An index is never too great, and data that is copied is as long as the property length
or a word before it says. So whatever is read could also have been written.
-/

namespace Playprint

namespace Cursor

variable {cursor left : Cursor}

theorem readIndexFrom_le {order : ByteOrder} {start value offset index : Nat} {bytes : Bytes}
    (hvalue : value ≤ maxIndex) (h : readIndexFrom order start value offset bytes = (.ok index, left)) :
    index ≤ maxIndex := by
  induction bytes generalizing value offset with
  | nil => cases h
  | cons byte rest ih =>
    rw [readIndexFrom] at h
    split at h
    · cases h
      exact hvalue
    · split at h
      · cases h
      · next hbyte hroom =>
        have hdigit : byte.toNat < 128 := UInt8.lt_iff_toNat_lt.mp (UInt8.not_le.mp hbyte)
        have hmax : maxIndex = 128 * (maxIndex / 128) + 127 := rfl
        exact ih (by omega) h

theorem readIndex_le {index : Nat} (h : readIndex.outcome cursor = (.ok index, left)) : index ≤ maxIndex :=
  readIndexFrom_le (Nat.zero_le _) h

end Cursor

namespace Opcode

/-- Only instructions that fit are ever read. -/
theorem fits_of_readOperands {op : Opcode} {length : Nat} {cursor left : Cursor} {instruction : Instruction}
    (h : (op.readOperands length).outcome cursor = (.ok instruction, left)) : instruction.Fits length := by
  cases op with
  | beginActorSet =>
    obtain ⟨_, _, _, hthrow⟩ := Step.outcome_bind_eq_ok_iff.mp h
    cases hthrow
  | createActor | setSet | bindRole | parentRole | childRole | setPropertyOffset | setPropertyLength
  | copyMediaRef | createSet =>
    obtain ⟨index, hindex, rfl⟩ := Step.outcome_map_eq_ok_iff.mp h
    exact Cursor.readIndex_le hindex
  | copyProperty =>
    obtain ⟨data, hdata, rfl⟩ := Step.outcome_map_eq_ok_iff.mp h
    exact Tape.length_of_readBytes hdata
  | copyDynamicProperty =>
    obtain ⟨size, _, _, hread⟩ := Step.outcome_bind_eq_ok_iff.mp h
    obtain ⟨data, hdata, rfl⟩ := Step.outcome_map_eq_ok_iff.mp hread
    rw [Instruction.Fits, Tape.length_of_readBytes hdata]
    exact size.toNat_lt
  | copyArrayProperty =>
    obtain ⟨count, _, _, hread⟩ := Step.outcome_bind_eq_ok_iff.mp h
    split at hread
    · cases hread
    · next hroom =>
      obtain ⟨data, hdata, rfl⟩ := Step.outcome_map_eq_ok_iff.mp hread
      have hlength := Tape.length_of_readBytes hdata
      exact ⟨hlength, by omega⟩
  | endActorGroup | endSet =>
    cases h
    trivial

end Opcode

theorem Instruction.lengthAfter_le {length : Nat} {instruction : Instruction} (h : instruction.Fits length)
    (hlength : length ≤ Cursor.maxIndex) : instruction.lengthAfter length ≤ Cursor.maxIndex := by
  cases instruction with
  | setPropertyLength other => exact h
  | _ => exact hlength

end Playprint
