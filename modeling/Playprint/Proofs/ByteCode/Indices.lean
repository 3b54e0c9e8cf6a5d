import Mathlib.Data.List.TakeWhile
import Playprint.Proofs.ByteCode.Reading
import Playprint.Proofs.Vlq

/-!
Index operands as numbers of base 128. The digits of an index are all bytes from where it starts to the first
one with the high bit. What they come to decides alone whether the index is refused: leading zeros do not count,
and an index that is too great is refused even where the stream ends within it. Main statement:
`readIndex_exact`.
-/

namespace Playprint.Cursor

variable {order : ByteOrder} {start value offset : Nat} {bytes : Bytes}

/-- The bytes at the front that have no high bit. -/
def digits (bytes : Bytes) : Bytes :=
  bytes.takeWhile (· < 128)

/-- The number that digits spell, the first one counting most. -/
def indexValue (digits : Bytes) : Nat :=
  Nat.ofDigits 128 (digits.reverse.map UInt8.toNat)

theorem spelled_zero (digits : Bytes) : spelled 0 digits = indexValue digits := by
  rw [spelled, indexValue, Nat.ofDigits_eq_foldr, List.foldr_map, List.foldr_reverse]
  simp only [Nat.cast_id, Nat.mul_comm, Nat.add_comm]

theorem digits_cons_of_lt {byte : UInt8} (h : byte < 128) : digits (byte :: bytes) = byte :: digits bytes :=
  List.takeWhile_cons_of_pos (decide_eq_true h)

theorem digits_cons_of_le {byte : UInt8} (h : 128 ≤ byte) : digits (byte :: bytes) = [] :=
  List.takeWhile_cons_of_neg (by simpa using h)

/-- No digit makes up for a value that is too great. -/
theorem readIndexFrom_overflow (hvalue : value ≤ maxIndex) (h : maxIndex < spelled value (digits bytes)) :
    (readIndexFrom order start value offset bytes).1 = .error (.indexOverflow start) := by
  induction bytes generalizing value offset with
  | nil => exact absurd h (Nat.not_lt.mpr hvalue)
  | cons byte rest ih =>
      by_cases hbyte : byte < 128
      · rw [readIndexFrom, if_neg (UInt8.not_le.mpr hbyte)]
        rw [digits_cons_of_lt hbyte] at h
        by_cases hroom : maxIndex / 128 < value
        · rw [if_pos hroom]
        · rw [if_neg hroom]
          have hdigit : byte.toNat < 128 := UInt8.lt_iff_toNat_lt.mp hbyte
          have hmax : maxIndex = 128 * (maxIndex / 128) + 127 := rfl
          exact ih (by omega) h
      · rw [digits_cons_of_le (UInt8.not_lt.mp hbyte)] at h
        exact absurd h (Nat.not_lt.mpr hvalue)

/-- Without a byte that ends the index the stream ends too soon. -/
theorem readIndexFrom_cut (hdigits : ∀ byte ∈ bytes, byte < 128) (hmax : spelled value bytes ≤ maxIndex) :
    readIndexFrom order start value offset bytes =
      (.error (.truncated (offset + bytes.length) 1), ⟨order, offset + bytes.length, []⟩) := by
  induction bytes generalizing value offset with
  | nil => rfl
  | cons byte rest ih =>
      have hbyte := hdigits byte List.mem_cons_self
      have hroom : ¬maxIndex / 128 < value := by
        have hle := Nat.le_trans (le_spelled (value * 128 + byte.toNat) rest) hmax
        omega
      rw [readIndexFrom, if_neg (UInt8.not_le.mpr hbyte), if_neg hroom,
        ih (fun other hmem => hdigits other (List.mem_cons_of_mem _ hmem)) hmax, List.length_cons,
        Nat.add_right_comm, Nat.add_assoc]

theorem all_lt_iff : bytes.all (· < 128) ↔ ∀ byte ∈ bytes, byte < 128 := by
  rw [List.all_eq_true]
  exact forall₂_congr fun _ _ => decide_eq_true_iff

theorem digits_eq_self (h : ∀ byte ∈ bytes, byte < 128) : digits bytes = bytes :=
  List.takeWhile_eq_self_iff.mpr fun byte hmem => decide_eq_true (h byte hmem)

theorem lt_of_mem_digits {digit : UInt8} (h : digit ∈ digits bytes) : digit < 128 := by
  have hdigit := List.mem_takeWhile_imp h
  exact of_decide_eq_true hdigit

/-- Behind the digits comes a byte with the high bit, unless all bytes are digits. -/
theorem exists_stop (h : ¬∀ byte ∈ bytes, byte < 128) :
    ∃ stop rest, 128 ≤ stop ∧ bytes = digits bytes ++ stop :: rest := by
  induction bytes with
  | nil => exact absurd (fun _ hmem => absurd hmem List.not_mem_nil) h
  | cons byte bytes ih =>
      by_cases hbyte : byte < 128
      · have hrest : ¬∀ other ∈ bytes, other < 128 := fun hall =>
          h fun other hmem => (List.mem_cons.mp hmem).elim (· ▸ hbyte) (hall other)
        obtain ⟨stop, rest, hstop, hbytes⟩ := ih hrest
        refine ⟨stop, rest, hstop, ?_⟩
        rw [digits_cons_of_lt hbyte, List.cons_append, ← hbytes]
      · have hstop := UInt8.not_lt.mp hbyte
        exact ⟨byte, bytes, hstop, by rw [digits_cons_of_le hstop, List.nil_append]⟩

theorem digits_append {stop : UInt8} {rest : Bytes} (h : ∀ byte ∈ bytes, byte < 128) (hstop : 128 ≤ stop) :
    digits (bytes ++ stop :: rest) = bytes := by
  rw [digits, List.takeWhile_append_of_pos fun byte hmem => decide_eq_true (h byte hmem)]
  change bytes ++ digits (stop :: rest) = bytes
  rw [digits_cons_of_le hstop, List.append_nil]

theorem indexValue_encodeIndex (value : Nat) : indexValue (encodeIndex value) = value := by
  rw [← spelled_zero, spelled_encodeIndex]

theorem length_encodeIndex (value : Nat) : (encodeIndex value).length = Vlq.encodedLength value := by
  rw [encodeIndex, List.length_map, List.length_reverse, Vlq.length_groups]

variable (order offset)

theorem outcome_readIndex_overflow (h : maxIndex < indexValue (digits bytes)) :
    (readIndex.outcome ⟨order, offset, bytes⟩).1 = .error (.indexOverflow offset) := by
  rw [← spelled_zero] at h
  exact readIndexFrom_overflow (Nat.zero_le _) h

/-- A number that is not too great is read, or cut off by the end of the stream; either way its digits were
consumed, and nothing behind them. -/
theorem outcome_readIndex_eq (h : indexValue (digits bytes) ≤ maxIndex) :
    readIndex.outcome ⟨order, offset, bytes⟩ =
      (if bytes.all (· < 128) then .error (.truncated (offset + bytes.length) 1)
        else .ok (indexValue (digits bytes)),
        ⟨order, offset + (digits bytes).length, bytes.drop (digits bytes).length⟩) := by
  rw [← spelled_zero] at h
  by_cases hdigits : ∀ byte ∈ bytes, byte < 128
  · rw [if_pos (all_lt_iff.mpr hdigits)]
    rw [digits_eq_self hdigits] at h ⊢
    rw [List.drop_length]
    exact readIndexFrom_cut hdigits h
  · rw [if_neg (mt all_lt_iff.mp hdigits)]
    obtain ⟨stop, rest, hstop, hbytes⟩ := exists_stop hdigits
    have hread := readIndexFrom_digits order offset offset rest (fun _ => lt_of_mem_digits) hstop h
    rw [← hbytes, spelled_zero] at hread
    have hdrop : bytes.drop (digits bytes).length = stop :: rest :=
      calc
        bytes.drop (digits bytes).length
            = (digits bytes ++ stop :: rest).drop (digits bytes).length := by rw [← hbytes]
        _ = stop :: rest := List.drop_left
    rw [hdrop]
    exact hread

/-- An index is refused exactly when its digits spell more than the greatest one; otherwise the stream ends
too soon, unless a byte with the high bit follows the digits, and then they are read and this byte is not. So
what was written as an index is read back in front of such a byte, unless it is too great. -/
theorem readIndex_exact :
    (∀ bytes : Bytes,
      (readIndex.outcome ⟨order, offset, bytes⟩).1 =
        (if maxIndex < indexValue (digits bytes) then .error (.indexOverflow offset)
          else if bytes.all (· < 128) then .error (.truncated (offset + bytes.length) 1)
          else .ok (indexValue (digits bytes))) ∧
      (indexValue (digits bytes) ≤ maxIndex → (readIndex.outcome ⟨order, offset, bytes⟩).2 =
        ⟨order, offset + (digits bytes).length, bytes.drop (digits bytes).length⟩)) ∧
    ∀ (value : UInt32) (stop : UInt8) (rest : Bytes), 128 ≤ stop →
      let read := readIndex.outcome ⟨order, offset, encodeIndex value.toNat ++ stop :: rest⟩
      (encodeIndex value.toNat).length = Vlq.encodedLength value.toNat ∧
        (value.toNat ≤ maxIndex → read =
          (.ok value.toNat, ⟨order, offset + (encodeIndex value.toNat).length, stop :: rest⟩)) ∧
        (maxIndex < value.toNat → read.1 = .error (.indexOverflow offset)) := by
  constructor
  · intro bytes
    by_cases hmax : maxIndex < indexValue (digits bytes)
    · rw [if_pos hmax]
      exact ⟨outcome_readIndex_overflow order offset hmax, fun hle => absurd hmax (Nat.not_lt.mpr hle)⟩
    · rw [if_neg hmax, outcome_readIndex_eq order offset (Nat.le_of_not_lt hmax)]
      exact ⟨rfl, fun _ => rfl⟩
  · intro value stop rest hstop
    have hdigits : digits (encodeIndex value.toNat ++ stop :: rest) = encodeIndex value.toNat :=
      digits_append (fun _ => lt_of_mem_encodeIndex) hstop
    refine ⟨length_encodeIndex _, fun hle => outcome_readIndex order offset hle hstop rest, fun hlt => ?_⟩
    apply outcome_readIndex_overflow
    rwa [hdigits, indexValue_encodeIndex]

/-- The greatest index is read back up to the byte that ends it; the next number is too great. -/
theorem greatestIndex_read_exactly :
    128 ≤ (0x80 : UInt8) ∧ (0x7fffffff : UInt32).toNat = maxIndex ∧
      readIndex.outcome ⟨.little, 0, encodeIndex (0x7fffffff : UInt32).toNat ++ [0x80]⟩ =
        (.ok (0x7fffffff : UInt32).toNat, ⟨.little, 5, [0x80]⟩) ∧
      (readIndex.outcome ⟨.little, 0, encodeIndex (0x80000000 : UInt32).toNat ++ [0x80]⟩).1 =
        .error (.indexOverflow 0) := by
  obtain ⟨_, hread⟩ := readIndex_exact .little 0
  have hstop : 128 ≤ (0x80 : UInt8) := by decide
  obtain ⟨hlength, hgreatest, _⟩ := hread 0x7fffffff 0x80 [] hstop
  obtain ⟨_, _, hbeyond⟩ := hread 0x80000000 0x80 [] hstop
  have hfive : Vlq.encodedLength (0x7fffffff : UInt32).toNat = 5 := by decide
  refine ⟨hstop, rfl, ?_, hbeyond (by decide)⟩
  rw [hlength, hfive] at hgreatest
  exact hgreatest (by decide)

end Playprint.Cursor
