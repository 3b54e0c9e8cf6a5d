import Playprint.Error
import Playprint.Step

/-!
Variable-length integers. A number is written in groups of seven bits, least significant group first,
and every byte but the last has its high bit set. Encodings longer than needed are read all the same;
one that spells more bits than the reader has room for is refused.
-/

namespace Playprint.Vlq

/-- The groups of seven bits of a number, least significant first; zero has one group. -/
def groups (value : Nat) : List Nat :=
  if value < 128 then [value] else value % 128 :: groups (value / 128)

/-- The groups as bytes, with the high bit set on all but the last. -/
def chain : List Nat → Bytes
  | [] => []
  | [last] => [UInt8.ofNat last]
  | group :: rest => UInt8.ofNat (group + 128) :: chain rest

/-- A number in its shortest form. -/
def encode (value : Nat) : Bytes :=
  chain (groups value)

/-- How many bytes `encode` takes: one for every seven bits or part of seven, at least one. -/
def encodedLength (value : Nat) : Nat :=
  value.log2 / 7 + 1

/-- The seven value bits of a byte. -/
def valueBits (byte : UInt8) : Nat :=
  byte.toNat % 128

/-- Whether a byte says that another follows. -/
def continues (byte : UInt8) : Bool :=
  128 ≤ byte

/-- What a group counts for: 128 times as much as the one before it. -/
def weight : Nat → Nat
  | 0 => 1
  | index + 1 => 128 * weight index

/-- Goes on reading at group `index`, with `value` read so far. -/
def decodeFrom (index value : Nat) : Bytes → Except FormatError (Nat × Nat)
  | [] => .error (.truncated index 1)
  | byte :: rest =>
    let group := valueBits byte * weight index
    if 64 ≤ 7 * index ∨ UInt64.size ≤ group then .error (.vlqOverflow 64)
    else if continues byte then decodeFrom (index + 1) (value + group) rest
    else .ok (value + group, index + 1)

/-- The 64-bit number at the front of the data, and how many bytes spell it. -/
def decode (data : Bytes) : Except FormatError (Nat × Nat) :=
  decodeFrom 0 0 data

theorem toNat_ofNat_of_lt {group : Nat} (h : group < 128) : (UInt8.ofNat group).toNat = group := by
  rw [UInt8.toNat_ofNat', Nat.mod_eq_of_lt (by omega)]

theorem foldr_groups (value : Nat) :
    (groups value).foldr (fun group rest => rest * 128 + (UInt8.ofNat group).toNat) 0 = value := by
  induction value using groups.induct with
  | case1 value h =>
      rw [groups, if_pos h, List.foldr_cons, List.foldr_nil, toNat_ofNat_of_lt h]
      omega
  | case2 value h ih =>
      rw [groups, if_neg h, List.foldr_cons, ih, toNat_ofNat_of_lt (by omega)]
      omega

theorem lt_of_mem_groups {value group : Nat} (h : group ∈ groups value) : group < 128 := by
  induction value using groups.induct with
  | case1 value hlt =>
      rw [groups, if_pos hlt, List.mem_singleton] at h
      omega
  | case2 value hlt ih =>
      rw [groups, if_neg hlt, List.mem_cons] at h
      rcases h with rfl | h
      · omega
      · exact ih h

end Playprint.Vlq
