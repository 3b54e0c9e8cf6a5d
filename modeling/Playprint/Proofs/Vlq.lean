import Mathlib.Data.Nat.Digits.Defs
import Mathlib.Data.Nat.Log
import Mathlib.Tactic.Ring
import Playprint.Vlq

/-!
Variable-length integers as numbers of base 128. A number of 64 bits is written in as many bytes as its
length in groups of seven bits says, and read back whatever follows. What can be read is told by the first
byte that says that none follows, and is in shortest form exactly when it has that length. Main statement:
`decode_exact`.
-/

namespace Playprint.Vlq

variable {value index group : Nat} {data : Bytes} {byte : UInt8}

/-! ### Groups of seven bits -/

theorem groups_ne_nil (value : Nat) : groups value ≠ [] := by
  rw [groups]
  split <;> exact List.cons_ne_nil _ _

theorem ofDigits_groups (value : Nat) : Nat.ofDigits 128 (groups value) = value := by
  induction value using groups.induct with
  | case1 value h => rw [groups, if_pos h, Nat.ofDigits_singleton]
  | case2 value h ih =>
      rw [groups, if_neg h, Nat.ofDigits_cons, ih]
      exact Nat.mod_add_div value 128

theorem encodedLength_of_lt (h : value < 128) : encodedLength value = 1 := by
  have hlog : value.log2 < 7 := by
    rcases Nat.eq_zero_or_pos value with rfl | hpos
    · decide
    · exact (Nat.log2_lt (Nat.pos_iff_ne_zero.mp hpos)).mpr h
  rw [encodedLength, Nat.div_eq_of_lt hlog]

theorem encodedLength_of_le (h : 128 ≤ value) : encodedLength value = encodedLength (value / 128) + 1 := by
  have hlog : (value / 128).log2 + 7 = value.log2 := by
    simp only [Nat.log2_eq_log_two]
    rw [show 128 = 2 ^ 7 from rfl, Nat.log_div_base_pow]
    have hle : 7 ≤ Nat.log 2 value := (Nat.le_log_iff_pow_le (by decide) (by omega)).mpr h
    omega
  rw [encodedLength, encodedLength, ← hlog, Nat.add_div_right _ (by decide)]

theorem length_groups (value : Nat) : (groups value).length = encodedLength value := by
  induction value using groups.induct with
  | case1 value h => rw [groups, if_pos h, encodedLength_of_lt h, List.length_singleton]
  | case2 value h ih =>
      rw [groups, if_neg h, List.length_cons, ih, encodedLength_of_le (Nat.le_of_not_lt h)]

/-! ### Bytes that spell a number -/

/-- The index of the first byte that says that no other follows. -/
def lastIndex? (data : Bytes) : Option Nat :=
  data.findIdx? fun byte => !continues byte

/-- The number that the value bits of bytes spell, the first byte counting least. -/
def spelled (bytes : Bytes) : Nat :=
  Nat.ofDigits 128 (bytes.map valueBits)

theorem valueBits_lt (byte : UInt8) : valueBits byte < 128 :=
  Nat.mod_lt _ (by decide)

theorem spelled_cons (byte : UInt8) (bytes : Bytes) :
    spelled (byte :: bytes) = valueBits byte + 128 * spelled bytes := rfl

theorem weight_eq (index : Nat) : weight index = 128 ^ index := by
  induction index with
  | zero => rfl
  | succ index ih => rw [weight, ih, Nat.pow_succ, Nat.mul_comm]

/-- What the groups from an index on add to a value that was read before them. -/
theorem add_weight_spelled (index value : Nat) (byte : UInt8) (bytes : Bytes) :
    value + weight index * spelled (byte :: bytes) =
      value + valueBits byte * weight index + weight (index + 1) * spelled bytes := by
  rw [spelled_cons, weight]
  ring

theorem lastIndex?_last {rest : Bytes} (h : continues byte = false) : lastIndex? (byte :: rest) = some 0 := by
  rw [lastIndex?, List.findIdx?_cons, h]
  rfl

theorem lastIndex?_continued {rest : Bytes} (h : continues byte = true) :
    lastIndex? (byte :: rest) = (lastIndex? rest).map (· + 1) := by
  rw [lastIndex?, List.findIdx?_cons, h]
  rfl

/-- A byte is refused behind the tenth, and there if it has more than the one bit that is left. -/
theorem refused_iff : (64 ≤ 7 * index ∨ UInt64.size ≤ valueBits byte * weight index) ↔
    9 < index ∨ (index = 9 ∧ 1 < valueBits byte) := by
  have hbits := valueBits_lt byte
  rcases Nat.lt_trichotomy index 9 with hlt | rfl | hgt
  · have hweight : weight index ≤ weight 8 := by
      rw [weight_eq, weight_eq]
      exact Nat.pow_le_pow_right (by decide) (by omega)
    have hroom : valueBits byte * weight index < UInt64.size := by
      calc valueBits byte * weight index ≤ 127 * weight 8 := Nat.mul_le_mul (by omega) hweight
        _ < UInt64.size := by decide
    omega
  · have hweight : UInt64.size = 2 * weight 9 := by decide
    have hpos : 0 < weight 9 := by decide
    have hmul : UInt64.size ≤ valueBits byte * weight 9 ↔ 2 ≤ valueBits byte := by
      rw [hweight]
      exact Nat.mul_le_mul_right_iff hpos
    omega
  · omega

/-- Reading goes on to the first byte that says that no other follows, if there are bits left for it. -/
theorem decodeFrom_eq_ok_iff {result count : Nat} : decodeFrom index value data = .ok (result, count) ↔
    ∃ last, lastIndex? data = some last ∧ index + last ≤ 9 ∧
      (index + last = 9 → ∀ byte ∈ data[last]?, valueBits byte ≤ 1) ∧
      result = value + weight index * spelled (data.take (last + 1)) ∧ count = index + last + 1 := by
  induction data generalizing index value with
  | nil => simp [decodeFrom, lastIndex?]
  | cons byte rest ih =>
      rw [decodeFrom]
      by_cases hrefused : 9 < index ∨ (index = 9 ∧ 1 < valueBits byte)
      · rw [if_pos (refused_iff.mpr hrefused)]
        refine ⟨fun h => (nomatch h), ?_⟩
        rintro ⟨last, hlast, hshort, hfits, _⟩
        obtain ⟨rfl, hbits⟩ := hrefused.resolve_left (by omega)
        obtain rfl : last = 0 := by omega
        exact absurd (hfits rfl byte rfl) (Nat.not_le.mpr hbits)
      rw [if_neg (mt refused_iff.mp hrefused)]
      cases hcontinues : continues byte with
      | false =>
          rw [if_neg Bool.false_ne_true, lastIndex?_last hcontinues]
          constructor
          · rintro ⟨⟩
            refine ⟨0, rfl, by omega, ?_, ?_, rfl⟩
            · rintro hlast _ ⟨⟩
              omega
            · simp [spelled, Nat.mul_comm]
          · rintro ⟨_, ⟨⟩, _, _, rfl, rfl⟩
            simp [spelled, Nat.mul_comm]
      | true =>
          rw [if_pos rfl, ih, lastIndex?_continued hcontinues]
          constructor
          · rintro ⟨last, hlast, hshort, hfits, rfl, rfl⟩
            refine ⟨last + 1, by rw [hlast]; rfl, by omega, fun h => hfits (by omega), ?_, by omega⟩
            rw [List.take_succ_cons, add_weight_spelled]
          · rintro ⟨_, hindex, hshort, hfits, rfl, rfl⟩
            obtain ⟨last, hlast, rfl⟩ := Option.map_eq_some_iff.mp hindex
            refine ⟨last, hlast, by omega, fun h => hfits (by omega), ?_, by omega⟩
            rw [List.take_succ_cons, add_weight_spelled]

/-! ### Shortest forms -/

theorem continues_last (h : group < 128) : continues (UInt8.ofNat group) = false := by
  rw [continues, decide_eq_false_iff_not, UInt8.not_le, UInt8.lt_iff_toNat_lt, toNat_ofNat_of_lt h]
  exact h

theorem toNat_ofNat_add (h : group < 128) : (UInt8.ofNat (group + 128)).toNat = group + 128 := by
  rw [UInt8.toNat_ofNat', Nat.mod_eq_of_lt (by omega)]

theorem continues_more (h : group < 128) : continues (UInt8.ofNat (group + 128)) = true := by
  rw [continues, decide_eq_true_iff, UInt8.le_iff_toNat_le, toNat_ofNat_add h]
  exact Nat.le_add_left 128 group

theorem chain_cons {rest : List Nat} (h : rest ≠ []) :
    chain (group :: rest) = UInt8.ofNat (group + 128) :: chain rest := by
  cases rest with
  | nil => exact absurd rfl h
  | cons => rfl

theorem length_chain (groups : List Nat) : (chain groups).length = groups.length := by
  fun_induction chain groups with
  | case1 | case2 => rfl
  | case3 group rest _ ih => rw [List.length_cons, List.length_cons, ih]

theorem map_valueBits_chain {groups : List Nat} (h : ∀ group ∈ groups, group < 128) :
    (chain groups).map valueBits = groups := by
  fun_induction chain groups with
  | case1 => rfl
  | case2 last =>
      have hlast := h last List.mem_cons_self
      rw [List.map_singleton, valueBits, toNat_ofNat_of_lt hlast, Nat.mod_eq_of_lt hlast]
  | case3 group rest _ ih =>
      have hgroup := h group List.mem_cons_self
      rw [List.map_cons, ih fun other hmem => h other (List.mem_cons_of_mem _ hmem), valueBits,
        toNat_ofNat_add hgroup, Nat.add_mod_right, Nat.mod_eq_of_lt hgroup]

theorem lastIndex?_chain {groups : List Nat} (suffix : Bytes) (hne : groups ≠ [])
    (h : ∀ group ∈ groups, group < 128) :
    lastIndex? (chain groups ++ suffix) = some (groups.length - 1) := by
  fun_induction chain groups with
  | case1 => exact absurd rfl hne
  | case2 last => exact lastIndex?_last (continues_last (h last List.mem_cons_self))
  | case3 group rest hrest ih =>
      rw [List.cons_append, lastIndex?_continued (continues_more (h group List.mem_cons_self)),
        ih hrest fun other hmem => h other (List.mem_cons_of_mem _ hmem), List.length_cons]
      have hpos := List.length_pos_iff.mpr hrest
      simp only [Option.map_some, Option.some.injEq]
      omega

/-- The bytes of a number are the chain of their value bits. -/
theorem chain_map_valueBits {last : Nat} (h : lastIndex? data = some last) :
    chain ((data.take (last + 1)).map valueBits) = data.take (last + 1) := by
  induction data generalizing last with
  | nil => cases h
  | cons byte rest ih =>
      have hbits : byte.toNat < 256 := byte.toNat_lt
      cases hcontinues : continues byte with
      | false =>
          rw [lastIndex?_last hcontinues] at h
          cases h
          rw [continues, decide_eq_false_iff_not, UInt8.not_le, UInt8.lt_iff_toNat_lt] at hcontinues
          have hsmall : byte.toNat % 128 = byte.toNat := Nat.mod_eq_of_lt hcontinues
          simp only [List.take_succ_cons, List.take_zero, List.map_singleton, chain, valueBits, hsmall,
            UInt8.ofNat_toNat]
      | true =>
          rw [lastIndex?_continued hcontinues] at h
          obtain ⟨last, hlast, rfl⟩ := Option.map_eq_some_iff.mp h
          rw [continues, decide_eq_true_iff, UInt8.le_iff_toNat_le] at hcontinues
          have hhigh : (128 : UInt8).toNat = 128 := rfl
          have hbyte : byte.toNat % 128 + 128 = byte.toNat := by omega
          have hne : (rest.take (last + 1)).map valueBits ≠ [] := by
            cases rest with
            | nil => cases hlast
            | cons => exact List.cons_ne_nil _ _
          rw [List.take_succ_cons, List.map_cons, chain_cons hne, ih hlast, valueBits, hbyte,
            UInt8.ofNat_toNat]

/-! ### Numbers of 64 bits -/

theorem lastIndex?_encode (value : Nat) (suffix : Bytes) :
    lastIndex? (encode value ++ suffix) = some (encodedLength value - 1) := by
  rw [encode, lastIndex?_chain suffix (groups_ne_nil value) fun _ => lt_of_mem_groups, length_groups]

theorem length_encode (value : Nat) : (encode value).length = encodedLength value := by
  rw [encode, length_chain, length_groups]

theorem spelled_encode (value : Nat) : spelled (encode value) = value := by
  rw [spelled, encode, map_valueBits_chain fun _ => lt_of_mem_groups, ofDigits_groups]

theorem encodedLength_le (h : value < UInt64.size) : encodedLength value ≤ 10 := by
  have hlog : value.log2 < 64 := by
    rcases Nat.eq_zero_or_pos value with rfl | hpos
    · decide
    · exact (Nat.log2_lt (Nat.pos_iff_ne_zero.mp hpos)).mpr h
  rw [encodedLength]
  omega

/-- The last byte that is read at an index counts for its value bits times the weight of the index. -/
theorem spelled_take_succ {last : Nat} (h : data[last]? = some byte) :
    spelled (data.take (last + 1)) = spelled (data.take last) + weight last * valueBits byte := by
  obtain ⟨hlt, _⟩ := List.getElem?_eq_some_iff.mp h
  rw [List.take_add_one, h, Option.toList_some, spelled, List.map_append, Nat.ofDigits_append,
    List.length_map, List.length_take, Nat.min_eq_left (Nat.le_of_lt hlt), weight_eq,
    List.map_singleton, Nat.ofDigits_singleton]
  rfl

theorem spelled_lt (bytes : Bytes) : spelled bytes < weight bytes.length := by
  have hdigits : ∀ group ∈ bytes.map valueBits, group < 128 := by
    intro group hgroup
    obtain ⟨byte, _, rfl⟩ := List.mem_map.mp hgroup
    exact valueBits_lt byte
  have hlt := Nat.ofDigits_lt_base_pow_length (by decide) hdigits
  rwa [List.length_map, ← weight_eq] at hlt

theorem decode_eq_ok_iff {count : Nat} : decode data = .ok (value, count) ↔
    ∃ last, lastIndex? data = some last ∧ last ≤ 9 ∧
      (last = 9 → ∀ byte ∈ data[last]?, valueBits byte ≤ 1) ∧
      value = spelled (data.take (last + 1)) ∧ count = last + 1 := by
  simp only [decode, decodeFrom_eq_ok_iff, weight, Nat.zero_add, Nat.one_mul]

/-- The tenth byte adds a single bit to the 63 of the nine before it. -/
theorem decode_lt {count : Nat} (h : decode data = .ok (value, count)) : value < UInt64.size := by
  obtain ⟨last, hlast, hshort, hfits, rfl, _⟩ := decode_eq_ok_iff.mp h
  have hsize : UInt64.size = weight 9 + weight 9 := by decide
  have hfront : spelled (data.take 9) < weight 9 := by
    refine Nat.lt_of_lt_of_le (spelled_lt _) ?_
    rw [weight_eq, weight_eq]
    exact Nat.pow_le_pow_right (by decide) (List.length_take_le 9 data)
  rcases Nat.lt_or_eq_of_le hshort with hlt | rfl
  · have hfew : spelled (data.take (last + 1)) < weight 9 := by
      refine Nat.lt_of_lt_of_le (spelled_lt _) ?_
      rw [weight_eq, weight_eq]
      exact Nat.pow_le_pow_right (by decide) (Nat.le_trans (List.length_take_le _ data) hlt)
    omega
  · obtain ⟨hindex, _⟩ := List.findIdx?_eq_some_iff_getElem.mp hlast
    have hbits := hfits rfl _ (List.getElem?_eq_getElem hindex)
    rw [spelled_take_succ (List.getElem?_eq_getElem hindex), hsize]
    have hmul := Nat.mul_le_mul_left (weight 9) hbits
    omega

theorem decode_encode (h : value < UInt64.size) (suffix : Bytes) :
    decode (encode value ++ suffix) = .ok (value, encodedLength value) := by
  have hlength := length_encode value
  have hpos : 0 < encodedLength value := Nat.succ_pos _
  have htake : (encode value ++ suffix).take (encodedLength value - 1 + 1) = encode value := by
    rw [Nat.sub_add_cancel hpos, ← hlength, List.take_left]
  have hle := encodedLength_le h
  refine decode_eq_ok_iff.mpr ⟨_, lastIndex?_encode value suffix, by omega, fun hlast byte hbyte => ?_, ?_,
    (Nat.sub_add_cancel hpos).symm⟩
  · have hvalue := spelled_take_succ hbyte
    rw [htake, spelled_encode, hlast] at hvalue
    have hsize : UInt64.size = 2 * weight 9 := by decide
    have hweight : 0 < weight 9 := by decide
    have hlt : weight 9 * valueBits byte < weight 9 * 2 := by omega
    exact Nat.le_of_lt_succ (Nat.lt_of_mul_lt_mul_left hlt)
  · rw [htake, spelled_encode]

/-- Two numbers in as many bytes are the same bytes, so the shortest form is known by its length. -/
theorem take_eq_encode_iff {count : Nat} (h : decode data = .ok (value, count)) :
    data.take count = encode value ↔ count = encodedLength value := by
  obtain ⟨last, hlast, _, _, rfl, rfl⟩ := decode_eq_ok_iff.mp h
  obtain ⟨hindex, _⟩ := List.findIdx?_eq_some_iff_getElem.mp hlast
  have htaken : (data.take (last + 1)).length = last + 1 := by
    rw [List.length_take, Nat.min_eq_left hindex]
  constructor
  · intro hsame
    rw [← length_encode, ← hsame, htaken]
  · intro hcount
    have hgroups : (data.take (last + 1)).map valueBits = groups (spelled (data.take (last + 1))) := by
      refine Nat.ofDigits_inj_of_len_eq (by decide) ?_ ?_ (fun _ => lt_of_mem_groups) ?_
      · rw [List.length_map, htaken, length_groups]
        exact hcount
      · intro group hgroup
        obtain ⟨byte, _, rfl⟩ := List.mem_map.mp hgroup
        exact valueBits_lt byte
      · exact (ofDigits_groups _).symm
    rw [encode, ← hgroups, chain_map_valueBits hlast]

/-- Every number of 64 bits is written in its length of groups and read back whatever follows. Data can be
read exactly when the first byte that says that none follows is among the first ten, and has one bit at most if
it is the tenth; then the value is what the bytes up to there spell, and they are its shortest form exactly when
they are as many as that takes. -/
theorem decode_exact :
    (∀ (value : UInt64) (suffix : Bytes),
      (encode value.toNat).length = encodedLength value.toNat ∧
        decode (encode value.toNat ++ suffix) = .ok (value.toNat, encodedLength value.toNat)) ∧
    ∀ (data : Bytes) (value count : Nat),
      (decode data = .ok (value, count) ↔ ∃ last, lastIndex? data = some last ∧ last ≤ 9 ∧
        (last = 9 → ∀ byte ∈ data[last]?, valueBits byte ≤ 1) ∧
        value = spelled (data.take (last + 1)) ∧ count = last + 1) ∧
      (decode data = .ok (value, count) → value < UInt64.size ∧
        (data.take count = encode value ↔ count = encodedLength value)) := by
  refine ⟨fun value suffix => ⟨length_encode _, decode_encode value.toNat_lt suffix⟩, ?_⟩
  intro data value count
  exact ⟨decode_eq_ok_iff, fun h => ⟨decode_lt h, take_eq_encode_iff h⟩⟩

/-- A zero in ten bytes is read, and is not in shortest form. -/
def longZero : Bytes :=
  List.replicate 9 0x80 ++ [0x00, 0xff]

theorem longZero_decode_exact :
    decode longZero = .ok (0, 10) ∧ (longZero.take 10 = encode 0 ↔ 10 = encodedLength 0) ∧
      10 ≠ encodedLength 0 := by
  have hread : decode longZero = .ok (0, 10) := by cbv
  obtain ⟨_, hexact⟩ := decode_exact
  obtain ⟨_, hshortest⟩ := (hexact longZero 0 10).2 hread
  exact ⟨hread, hshortest, by decide⟩

end Playprint.Vlq
