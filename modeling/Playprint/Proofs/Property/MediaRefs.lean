import Mathlib.Data.Nat.Digits.Defs
import Playprint.Property
import Playprint.Proofs.Text.Decimal
import Playprint.Proofs.Text.Utf8

/-!
The text of media references. The bytes of one are read as characters one by one, which comes to the same as
reading them as UTF-8, because everything a number is spelled with is ASCII. What they spell is said by their
digits in the positional system, apart from the reader. Main statement: `mediaRefIndex?_exact`.
-/

namespace Playprint

namespace Decimal

variable {data digits : Bytes} {value bound : Nat}

/-- The characters that have bytes for their codes. -/
def characters (data : Bytes) : List Char :=
  data.map fun byte => Char.ofNat byte.toNat

/-- The bytes are digits of ASCII, one at least, and spell a number, the first one counting most. -/
structure Spells (digits : Bytes) (value : Nat) : Prop where
  nonempty : digits ≠ []
  ascii : ∀ digit ∈ digits, 0x30 ≤ digit ∧ digit ≤ 0x39
  value_eq : Nat.ofDigits 10 (digits.reverse.map fun digit => digit.toNat - 0x30) = value

theorem toNat_character (byte : UInt8) : (Char.ofNat byte.toNat).toNat = byte.toNat :=
  Utf8.toNat_ofNat_of_isValidChar (.inl (Nat.lt_trans byte.toNat_lt (by decide)))

theorem character_eq_iff {byte : UInt8} {c : Char} : Char.ofNat byte.toNat = c ↔ byte.toNat = c.toNat := by
  rw [← Char.toNat_inj, toNat_character]

theorem isDigit_character_iff {byte : UInt8} :
    (Char.ofNat byte.toNat).isDigit = true ↔ 0x30 ≤ byte ∧ byte ≤ 0x39 := by
  rw [isDigit_iff, toNat_character, UInt8.le_iff_toNat_le, UInt8.le_iff_toNat_le]
  rfl

/-- The digits that are read count as in the positional system. -/
theorem ofDigitChars_characters (digits : Bytes) :
    Nat.ofDigitChars 10 (characters digits) 0 =
      Nat.ofDigits 10 (digits.reverse.map fun digit => digit.toNat - 0x30) := by
  rw [Nat.ofDigitChars, characters, List.foldl_map, Nat.ofDigits_eq_foldr, List.foldr_map, List.foldr_reverse]
  simp only [toNat_character, Nat.cast_id, Nat.add_comm]
  rfl

theorem natural?_characters_iff : natural? (characters digits) = some value ↔ Spells digits value := by
  rw [natural?_eq_some_iff, ofDigitChars_characters, characters, Ne, List.map_eq_nil_iff, List.forall_mem_map]
  simp only [isDigit_character_iff]
  exact ⟨fun ⟨hnonempty, hascii, hvalue⟩ => ⟨hnonempty, hascii, hvalue⟩,
    fun h => ⟨h.nonempty, h.ascii, h.value_eq⟩⟩

/-- Bytes that say a number: they spell it, with a plus sign in front or without. -/
def Says (data : Bytes) (value : Nat) : Prop :=
  ∃ sign digits : Bytes, data = sign ++ digits ∧ (sign = [] ∨ sign = [0x2b]) ∧ Spells digits value

theorem characters_eq_plus_iff : characters data = ['+'] ↔ data = [0x2b] := by
  rw [characters, List.map_eq_singleton_iff]
  constructor
  · rintro ⟨byte, rfl, hbyte⟩
    have hplus : byte.toNat = (0x2b : UInt8).toNat := character_eq_iff.mp hbyte
    rw [UInt8.toNat_inj.mp hplus]
  · rintro rfl
    exact ⟨0x2b, rfl, rfl⟩

theorem unsigned?_characters_iff :
    unsigned? bound (characters data) = some value ↔ Says data value ∧ value < bound := by
  rw [unsigned?_eq_some_iff, and_congr_left_iff]
  intro _
  constructor
  · rintro ⟨_, _, htext, hsign, hdigits⟩
    obtain ⟨sign, digits, rfl, rfl, rfl⟩ := List.map_eq_append_iff.mp htext
    refine ⟨sign, digits, rfl, hsign.imp List.map_eq_nil_iff.mp characters_eq_plus_iff.mp, ?_⟩
    exact natural?_characters_iff.mp hdigits
  · rintro ⟨sign, digits, rfl, hsign, hdigits⟩
    refine ⟨characters sign, characters digits, List.map_append, ?_, natural?_characters_iff.mpr hdigits⟩
    exact hsign.imp List.map_eq_nil_iff.mpr characters_eq_plus_iff.mpr

/-- The bytes may as well be read as UTF-8 first, with no answer when they are not well formed. -/
theorem unsigned?_characters (bound : Nat) (data : Bytes) :
    unsigned? bound (characters data) = (Utf8.decode? data).bind fun text => unsigned? bound text.toList := by
  by_cases hascii : ∀ byte ∈ data, byte < 0x80
  · rw [Utf8.decode?_ascii hascii, Option.bind_some, String.toList_ofList]
    rfl
  · have hleft : unsigned? bound (characters data) = none := by
      rw [Option.eq_none_iff_forall_ne_some]
      intro value hvalue
      refine hascii fun byte hbyte => ?_
      obtain ⟨_, hcode⟩ := ascii_of_unsigned? hvalue _ (List.mem_map_of_mem hbyte)
      rw [toNat_character] at hcode
      exact UInt8.lt_iff_toNat_lt.mpr hcode
    rw [hleft, eq_comm, Option.bind_eq_none_iff]
    intro text htext
    rw [Option.eq_none_iff_forall_ne_some]
    intro value hvalue
    refine hascii (Utf8.ascii_of_pieces fun piece hpiece => ?_)
    rw [Utf8.decode?_eq_some_iff.mp htext] at hpiece
    obtain ⟨c, hc, rfl⟩ := List.mem_map.mp hpiece
    exact ⟨c, rfl, ascii_of_unsigned? hvalue c hc⟩

/-- Digits as bytes are the digits again. -/
theorem characters_ofNat (value : Nat) : characters ((ofNat value).map Char.toUInt8) = ofNat value := by
  rw [characters, List.map_map]
  refine (List.map_congr_left fun c hc => ?_).trans (List.map_id _)
  obtain ⟨_, hcode⟩ := ascii_of_isDigit (isDigit_of_mem_ofNat hc)
  rw [Function.comp_apply, character_eq_iff, Char.toUInt8, UInt32.toNat_toUInt8]
  exact Nat.mod_eq_of_lt (Nat.lt_trans hcode (by decide))

end Decimal

namespace Property

open Decimal (Says characters)

variable {index : Nat}

theorem mediaRefIndex?_eq (data : Bytes) :
    mediaRefIndex? ⟨.mediaRef, data⟩ = Decimal.unsigned? UInt32.size (characters data) := rfl

theorem mediaRefIndex?_mediaRef (h : index < UInt32.size) : (mediaRef index).mediaRefIndex? = some index := by
  rw [mediaRef, mediaRefIndex?_eq, Decimal.characters_ofNat, Decimal.unsigned?_eq_some_iff]
  exact ⟨⟨[], _, rfl, .inl rfl, Decimal.natural?_ofNat index⟩, h⟩

/-- A media reference that was written is read back. Whatever the bytes of one are, the answer is the number
below 2³² that they say, or none when there is no such number; to check first that they are UTF-8 would change
nothing. -/
theorem mediaRefIndex?_exact :
    (∀ index : UInt32, (mediaRef index.toNat).mediaRefIndex? = some index.toNat) ∧
    ∀ data : Bytes, let answer := mediaRefIndex? ⟨.mediaRef, data⟩
      (∀ index, answer = some index ↔ Says data index ∧ index < UInt32.size) ∧
      (answer = none ↔ ¬∃ index, Says data index ∧ index < UInt32.size) ∧
      answer = (Utf8.decode? data).bind fun text => Decimal.unsigned? UInt32.size text.toList := by
  refine ⟨fun index => mediaRefIndex?_mediaRef index.toNat_lt, fun data => ?_⟩
  have hsaid (index : Nat) : mediaRefIndex? ⟨.mediaRef, data⟩ = some index ↔ Says data index ∧ index < UInt32.size :=
    Decimal.unsigned?_characters_iff
  refine ⟨hsaid, ?_, Decimal.unsigned?_characters UInt32.size data⟩
  rw [Option.eq_none_iff_forall_ne_some, not_exists]
  exact forall_congr' fun index => not_congr (hsaid index)

/-- A plus sign and leading zeros do not count, and a number that is no word is none. -/
example :
    mediaRefIndex? ⟨.mediaRef, [0x2b, 0x30, 0x30, 0x37]⟩ = some 7 ∧
      mediaRefIndex? ⟨.mediaRef, (Decimal.ofNat UInt32.size).map Char.toUInt8⟩ = none := by
  decide

end Property

end Playprint
