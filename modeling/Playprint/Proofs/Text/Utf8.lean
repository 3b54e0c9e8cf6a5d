import Mathlib.Tactic.IntervalCases
import Playprint.Text.Utf8

/-!
Text read back from its bytes. The first byte of a character says how many follow, and what it asks of the
second keeps out exactly the numbers that are no characters or have a shorter form, so the piece at the front
of an encoded character is that character. A piece that is a character of ASCII is one byte. Main statement:
`decodeLenient_ofText`.
-/

namespace Playprint.Utf8

variable {first bits second third fourth : Nat} {low high : UInt8}

/-! ### First bytes -/

theorem lead?_two (hlow : 2 ≤ bits) (hhigh : bits < 32) :
    lead? (UInt8.ofNat (bits + 192)) = some ⟨1, bits, 0x80, 0xbf⟩ := by
  interval_cases bits <;> rfl

theorem lead?_three (h : bits < 16) :
    lead? (UInt8.ofNat (bits + 224)) =
      some ⟨2, bits, if bits = 0 then 0xa0 else 0x80, if bits = 13 then 0x9f else 0xbf⟩ := by
  interval_cases bits <;> rfl

theorem lead?_four (h : bits < 5) :
    lead? (UInt8.ofNat (bits + 240)) =
      some ⟨3, bits, if bits = 0 then 0x90 else 0x80, if bits = 4 then 0x8f else 0xbf⟩ := by
  interval_cases bits <;> rfl

/-- A byte beyond ASCII that leads a character leaves the rest of it to be finished. -/
theorem piece_lead {lead : Lead} (h : lead? (UInt8.ofNat first) = some lead) (hlow : 128 ≤ first)
    (hhigh : first < 256) (rest : Bytes) :
    piece (UInt8.ofNat first) rest = finishPiece lead.low lead.high lead.bits lead.following rest := by
  have hbeyond : ¬UInt8.ofNat first < 0x80 := by
    rw [UInt8.lt_iff_toNat_lt, UInt8.toNat_ofNat_of_lt' hhigh]
    exact Nat.not_lt.mpr hlow
  rw [piece, if_neg hbeyond, h]

/-! ### Bytes that follow -/

/-- A byte that follows adds its six bits when it lies where the byte before it wants it. -/
theorem finishPiece_cons (hsecond : second < 64) (hlow : low.toNat ≤ second + 128)
    (hhigh : second + 128 ≤ high.toNat) (value following : Nat) (rest : Bytes) :
    finishPiece low high value (following + 1) (UInt8.ofNat (second + 128) :: rest) =
      finishPiece 0x80 0xbf (value * 64 + second) following rest := by
  have hbyte : (UInt8.ofNat (second + 128)).toNat = second + 128 :=
    UInt8.toNat_ofNat_of_lt' (show second + 128 < 256 by omega)
  have hbetween : low ≤ UInt8.ofNat (second + 128) ∧ UInt8.ofNat (second + 128) ≤ high := by
    rw [UInt8.le_iff_toNat_le, UInt8.le_iff_toNat_le, hbyte]
    exact ⟨hlow, hhigh⟩
  have hbits : (second + 128) % 64 = second := by omega
  rw [finishPiece, if_pos hbetween, hbyte, hbits]

/-- Behind the second byte nothing is asked but that bytes follow. -/
theorem finishPiece_any (hthird : third < 64) (value following : Nat) (rest : Bytes) :
    finishPiece 0x80 0xbf value (following + 1) (UInt8.ofNat (third + 128) :: rest) =
      finishPiece 0x80 0xbf (value * 64 + third) following rest := by
  have hlow : (0x80 : UInt8).toNat = 128 := rfl
  have hhigh : (0xbf : UInt8).toNat = 191 := rfl
  exact finishPiece_cons hthird (by omega) (by omega) value following rest

/-! ### Characters by the number of their bytes -/

theorem piece_one (h : first < 128) (rest : Bytes) :
    piece (UInt8.ofNat first) rest = (some (Char.ofNat first), rest) := by
  have hbyte : (UInt8.ofNat first).toNat = first := UInt8.toNat_ofNat_of_lt' (show first < 256 by omega)
  have hascii : UInt8.ofNat first < 0x80 := by
    rw [UInt8.lt_iff_toNat_lt, hbyte]
    exact h
  rw [piece, if_pos hascii, hbyte]

theorem piece_two (hlow : 2 ≤ bits) (hhigh : bits < 32) (hsecond : second < 64) (rest : Bytes) :
    piece (UInt8.ofNat (bits + 192)) (UInt8.ofNat (second + 128) :: rest) =
      (some (Char.ofNat (bits * 64 + second)), rest) := by
  rw [piece_lead (lead?_two hlow hhigh) (by omega) (by omega), finishPiece_any hsecond, finishPiece]

/-- With no bits in the first byte the second must show that two bytes would not do, and with those of the
surrogates it must keep away from them. -/
theorem piece_three (hbits : bits < 16) (hsecond : second < 64) (hthird : third < 64)
    (hlong : bits = 0 → 32 ≤ second) (hsurrogate : bits = 13 → second < 32) (rest : Bytes) :
    piece (UInt8.ofNat (bits + 224))
        (UInt8.ofNat (second + 128) :: UInt8.ofNat (third + 128) :: rest) =
      (some (Char.ofNat ((bits * 64 + second) * 64 + third)), rest) := by
  have hlow : (if bits = 0 then 0xa0 else 0x80 : UInt8).toNat ≤ second + 128 := by
    split
    · exact Nat.add_le_add_right (hlong ‹_›) 128
    · exact Nat.le_add_left 128 second
  have hhigh : second + 128 ≤ (if bits = 13 then 0x9f else 0xbf : UInt8).toNat := by
    split
    · exact Nat.add_le_add_right (Nat.le_of_lt_succ (hsurrogate ‹_›)) 128
    · exact Nat.add_le_add_right (Nat.le_of_lt_succ hsecond) 128
  rw [piece_lead (lead?_three hbits) (by omega) (by omega), finishPiece_cons hsecond hlow hhigh,
    finishPiece_any hthird, finishPiece]

/-- With no bits in the first byte the second must show that three bytes would not do, and with the most there
can be it must stay below the end of the characters. -/
theorem piece_four (hbits : bits < 5) (hsecond : second < 64) (hthird : third < 64) (hfourth : fourth < 64)
    (hlong : bits = 0 → 16 ≤ second) (hlast : bits = 4 → second < 16) (rest : Bytes) :
    piece (UInt8.ofNat (bits + 240))
        (UInt8.ofNat (second + 128) :: UInt8.ofNat (third + 128) :: UInt8.ofNat (fourth + 128) :: rest) =
      (some (Char.ofNat (((bits * 64 + second) * 64 + third) * 64 + fourth)), rest) := by
  have hlow : (if bits = 0 then 0x90 else 0x80 : UInt8).toNat ≤ second + 128 := by
    split
    · exact Nat.add_le_add_right (hlong ‹_›) 128
    · exact Nat.le_add_left 128 second
  have hhigh : second + 128 ≤ (if bits = 4 then 0x8f else 0xbf : UInt8).toNat := by
    split
    · exact Nat.add_le_add_right (Nat.le_of_lt_succ (hlast ‹_›)) 128
    · exact Nat.add_le_add_right (Nat.le_of_lt_succ hsecond) 128
  rw [piece_lead (lead?_four hbits) (by omega) (by omega), finishPiece_cons hsecond hlow hhigh,
    finishPiece_any hthird, finishPiece_any hfourth, finishPiece]

/-! ### Texts -/

/-- The piece at the front of an encoded character is the character. -/
theorem piece_encoded (character : Char) (rest : Bytes) : ∃ byte following,
    String.utf8EncodeChar character = byte :: following ∧
      piece byte (following ++ rest) = (some character, rest) := by
  obtain ⟨value, hvalue⟩ : ∃ value, value = character.toNat := ⟨_, rfl⟩
  have hvalid : value < 55296 ∨ 57343 < value ∧ value < 1114112 := hvalue ▸ character.valid
  have hcharacter : Char.ofNat value = character := hvalue ▸ Char.ofNat_toNat character
  have hencoded := String.utf8EncodeChar.eq_1 character
  rw [show character.val.toNat = value from hvalue.symm] at hencoded
  by_cases hone : value ≤ 127
  · rw [if_pos hone] at hencoded
    exact ⟨_, _, hencoded, by rw [piece_one (by omega), hcharacter, List.nil_append]⟩
  rw [if_neg hone] at hencoded
  by_cases htwo : value ≤ 2047
  · have hsum : value / 64 % 32 * 64 + value % 64 = value := by omega
    rw [if_pos htwo] at hencoded
    refine ⟨_, _, hencoded, ?_⟩
    rw [List.singleton_append, piece_two (by omega) (by omega) (by omega), hsum, hcharacter]
  rw [if_neg htwo] at hencoded
  by_cases hthree : value ≤ 65535
  · have hsum : (value / 4096 % 16 * 64 + value / 64 % 64) * 64 + value % 64 = value := by omega
    rw [if_pos hthree] at hencoded
    refine ⟨_, _, hencoded, ?_⟩
    rw [List.cons_append, List.singleton_append,
      piece_three (by omega) (by omega) (by omega) (by omega) (by omega), hsum, hcharacter]
  · have hsum : ((value / 262144 % 8 * 64 + value / 4096 % 64) * 64 + value / 64 % 64) * 64 + value % 64 =
        value := by omega
    rw [if_neg hthree] at hencoded
    refine ⟨_, _, hencoded, ?_⟩
    rw [List.cons_append, List.cons_append, List.singleton_append,
      piece_four (by omega) (by omega) (by omega) (by omega) (by omega) (by omega), hsum, hcharacter]

theorem pieces_encoded (characters : List Char) :
    pieces (characters.flatMap String.utf8EncodeChar) = characters.map some := by
  induction characters with
  | nil => rw [List.flatMap_nil, pieces, List.map_nil]
  | cons character characters ih =>
      obtain ⟨byte, following, hencoded, hpiece⟩ :=
        piece_encoded character (characters.flatMap String.utf8EncodeChar)
      rw [List.flatMap_cons, hencoded, List.cons_append, pieces, hpiece, ih, List.map_cons]

/-- A text is read back from its bytes. -/
theorem decodeLenient_ofText (text : String) : decodeLenient (Bytes.ofText text) = text := by
  rw [decodeLenient, Bytes.ofText, pieces_encoded, List.map_map]
  exact (congrArg String.ofList (List.map_id text.toList)).trans (String.ofList_toList)

/-! ### ASCII -/

section

variable {byte low high : UInt8} {data left rest : Bytes} {value following : Nat} {c : Char} {lead : Lead}
  {text : String}


/-- What follows a first byte only adds to the value. -/
theorem le_of_finishPiece (h : finishPiece low high value following rest = (some c, left)) :
    ∃ code, value * 64 ^ following ≤ code ∧ c = Char.ofNat code := by
  induction following generalizing low high value rest with
  | zero =>
      rw [finishPiece] at h
      cases h
      exact ⟨value, by omega, rfl⟩
  | succ following ih =>
      cases rest with
      | nil => cases h
      | cons byte rest =>
          rw [finishPiece] at h
          split at h
          · obtain ⟨code, hcode, rfl⟩ := ih h
            refine ⟨code, Nat.le_trans ?_ hcode, rfl⟩
            rw [Nat.pow_succ', ← Nat.mul_assoc]
            exact Nat.mul_le_mul_right _ (Nat.le_add_right ..)
          · cases h

/-- What the second byte must be keeps every character that is led beyond ASCII. -/
theorem led_beyond_ascii : ∀ first < 256, ∀ lead ∈ lead? (UInt8.ofNat first),
    lead.following ≠ 0 ∧ 128 ≤ lead.low.toNat ∧ lead.high.toNat < 192 ∧
      128 ≤ (lead.bits * 64 + (lead.low.toNat - 128)) * 64 ^ (lead.following - 1) := by
  decide +kernel

theorem le_of_lead (hlead : lead? byte = some lead)
    (h : finishPiece lead.low lead.high lead.bits lead.following rest = (some c, left)) :
    ∃ code, 128 ≤ code ∧ c = Char.ofNat code := by
  obtain ⟨hfollowing, hlow, hhigh, hleast⟩ :=
    led_beyond_ascii byte.toNat byte.toNat_lt lead (by rwa [UInt8.ofNat_toNat])
  obtain ⟨following, hsucc⟩ := Nat.exists_eq_succ_of_ne_zero hfollowing
  rw [hsucc, Nat.succ_sub_one] at hleast
  rw [hsucc] at h
  cases rest with
  | nil => cases h
  | cons second rest =>
      rw [finishPiece] at h
      split at h
      · rename_i hsecond
        rw [UInt8.le_iff_toNat_le, UInt8.le_iff_toNat_le] at hsecond
        obtain ⟨code, hcode, rfl⟩ := le_of_finishPiece h
        have hbits : lead.low.toNat - 128 ≤ second.toNat % 64 := by omega
        exact ⟨code, hleast.trans ((Nat.mul_le_mul_right _ (Nat.add_le_add_left hbits _)).trans hcode), rfl⟩
      · cases h

theorem toNat_ofNat_of_isValidChar {code : Nat} (h : code.isValidChar) : (Char.ofNat code).toNat = code := by
  unfold Char.ofNat
  rw [dif_pos h]
  rfl

/-- A number that is no character stands for the character zero. -/
theorem toNat_ofNat (code : Nat) : (Char.ofNat code).toNat = code ∨ (Char.ofNat code).toNat = 0 := by
  by_cases hvalid : code.isValidChar
  · exact .inl (toNat_ofNat_of_isValidChar hvalid)
  · right
    unfold Char.ofNat
    rw [dif_neg hvalid]
    rfl

/-- Between zero and the end of ASCII, a character is one byte. -/
theorem ascii_of_piece (h : piece byte rest = (some c, left)) (hpos : 0 < c.toNat) (hc : c.toNat < 128) :
    byte < 0x80 := by
  by_contra hbyte
  rw [piece, if_neg hbyte] at h
  split at h
  · rename_i lead hlead
    obtain ⟨code, hcode, rfl⟩ := le_of_lead hlead h
    have hcases := toNat_ofNat code
    omega
  · cases h

theorem piece_of_ascii (h : byte < 0x80) (rest : Bytes) :
    piece byte rest = (some (Char.ofNat byte.toNat), rest) :=
  if_pos h

theorem pieces_of_ascii (h : ∀ byte ∈ data, byte < 0x80) :
    pieces data = data.map fun byte => some (Char.ofNat byte.toNat) := by
  induction data with
  | nil => rw [pieces, List.map_nil]
  | cons byte rest ih =>
      obtain ⟨hbyte, hrest⟩ := List.forall_mem_cons.mp h
      rw [pieces, piece_of_ascii hbyte, ih hrest, List.map_cons]

theorem ascii_of_pieces (h : ∀ piece ∈ pieces data, ∃ c, piece = some c ∧ 0 < c.toNat ∧ c.toNat < 128) :
    ∀ byte ∈ data, byte < 0x80 := by
  induction data with
  | nil => exact fun _ hmem => absurd hmem List.not_mem_nil
  | cons byte rest ih =>
      rw [pieces, List.forall_mem_cons] at h
      obtain ⟨⟨c, hpiece, hpos, hc⟩, hrest⟩ := h
      have hbyte : byte < 0x80 := ascii_of_piece (Prod.ext hpiece rfl) hpos hc
      rw [piece_of_ascii hbyte] at hrest
      exact List.forall_mem_cons.mpr ⟨hbyte, ih hrest⟩

theorem mapM_id_eq_some_iff {found : List (Option Char)} {characters : List Char} :
    found.mapM id = some characters ↔ found = characters.map some := by
  induction found generalizing characters with
  | nil => cases characters <;> simp
  | cons first found ih =>
      cases first with
      | none => cases characters <;> simp
      | some c =>
          cases characters with
          | nil => simp [Option.bind_eq_some_iff]
          | cons other characters => simp [Option.bind_eq_some_iff, ← ih, and_comm]

/-- The strict reader accepts a text exactly when its characters are the pieces. -/
theorem decode?_eq_some_iff : decode? data = some text ↔ pieces data = text.toList.map some := by
  rw [decode?, Option.map_eq_some_iff]
  constructor
  · rintro ⟨characters, h, rfl⟩
    rw [String.toList_ofList]
    exact mapM_id_eq_some_iff.mp h
  · intro h
    exact ⟨text.toList, mapM_id_eq_some_iff.mpr h, String.ofList_toList⟩

/-- A text in ASCII, without zeros, is read exactly from its characters as bytes. -/
theorem decode?_ascii (h : ∀ byte ∈ data, byte < 0x80) :
    decode? data = some (String.ofList (data.map fun byte => Char.ofNat byte.toNat)) := by
  rw [decode?_eq_some_iff, pieces_of_ascii h, String.toList_ofList, List.map_map]
  rfl

end

end Playprint.Utf8
