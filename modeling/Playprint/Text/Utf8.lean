import Playprint.Bytes

/-!
Reading UTF-8. Bytes are cut into pieces: a piece is either one well-formed character, or as many bytes
of an ill-formed one as could still have started a character, and at least one byte. A strict reader
accepts no ill-formed piece, a lenient one shows each as U+FFFD.
-/

namespace Playprint.Utf8

/-- What the first byte of a character of several bytes says about the rest. -/
structure Lead where
  /-- Bytes still to come. -/
  following : Nat
  /-- The bits the first byte gives to the character. -/
  bits : Nat
  /-- The least second byte. It keeps out encodings that are too long. -/
  low : UInt8
  /-- The greatest second byte. It keeps out surrogates and numbers beyond the last character. -/
  high : UInt8

/-- The meaning of a first byte beyond ASCII. -/
def lead? (byte : UInt8) : Option Lead :=
  if byte < 0xc2 then none
  else if byte < 0xe0 then some ⟨1, byte.toNat % 32, 0x80, 0xbf⟩
  else if byte = 0xe0 then some ⟨2, 0, 0xa0, 0xbf⟩
  else if byte = 0xed then some ⟨2, 13, 0x80, 0x9f⟩
  else if byte < 0xf0 then some ⟨2, byte.toNat % 16, 0x80, 0xbf⟩
  else if byte = 0xf0 then some ⟨3, 0, 0x90, 0xbf⟩
  else if byte < 0xf4 then some ⟨3, byte.toNat % 8, 0x80, 0xbf⟩
  else if byte = 0xf4 then some ⟨3, 4, 0x80, 0x8f⟩
  else none

/-- Reads the `following` last bytes of a character whose bits so far are `value`; the next of them must
lie between `low` and `high`. -/
def finishPiece (low high : UInt8) (value : Nat) : Nat → Bytes → Option Char × Bytes
  | 0, rest => (some (Char.ofNat value), rest)
  | _ + 1, [] => (none, [])
  | following + 1, byte :: rest =>
    if low ≤ byte ∧ byte ≤ high then
      finishPiece 0x80 0xbf (value * 64 + byte.toNat % 64) following rest
    else (none, byte :: rest)

/-- The piece that starts with a byte, and the bytes after it. -/
def piece (byte : UInt8) (rest : Bytes) : Option Char × Bytes :=
  if byte < 0x80 then (some (Char.ofNat byte.toNat), rest)
  else match lead? byte with
    | some lead => finishPiece lead.low lead.high lead.bits lead.following rest
    | none => (none, rest)

theorem length_finishPiece_le (low high : UInt8) (value following : Nat) (rest : Bytes) :
    (finishPiece low high value following rest).2.length ≤ rest.length := by
  fun_induction finishPiece low high value following rest with
  | case1 | case2 => simp
  | case3 _ _ _ _ _ _ _ ih => exact Nat.le_succ_of_le ih
  | case4 => simp

theorem length_piece_le (byte : UInt8) (rest : Bytes) :
    (piece byte rest).2.length ≤ rest.length := by
  simp only [piece]
  split
  · simp
  · split
    · exact length_finishPiece_le ..
    · simp

/-- All pieces of the data, in order; an ill-formed one is `none`. -/
def pieces : Bytes → List (Option Char)
  | [] => []
  | byte :: rest => (piece byte rest).1 :: pieces (piece byte rest).2
termination_by data => data.length
decreasing_by exact Nat.lt_succ_of_le (length_piece_le byte rest)

/-- The text the data spells, when all of it is well formed. -/
def decode? (data : Bytes) : Option String :=
  ((pieces data).mapM id).map String.ofList

/-- The text of the data with U+FFFD for each ill-formed piece. -/
def decodeLenient (data : Bytes) : String :=
  String.ofList ((pieces data).map (·.getD '\uFFFD'))

end Playprint.Utf8
