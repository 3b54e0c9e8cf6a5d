import Playprint.Text.Decimal

/-!
Tokens of JSON text. The text is strict JSON: no comments, no zeros in front of numbers, no raw control
characters in strings.
-/

namespace Playprint.Json

/-- A token of JSON text. -/
inductive Token
  | openObject
  | closeObject
  | openArray
  | closeArray
  | comma
  | colon
  | null
  | bool (value : Bool)
  /-- A number, with its value when it is a natural number in plain digits. -/
  | number (value : Option Nat)
  /-- A string, with its text when the escapes spell one: an unpaired surrogate does not. -/
  | string (text : Option String)

namespace Token

/-- One character of a string, or one escape of four digits, which may be half a character. -/
inductive Piece
  | char (c : Char)
  | unit (value : Nat)

/-- The value of a hexadecimal digit. -/
def hexDigit? (c : Char) : Option Nat :=
  if '0' ≤ c ∧ c ≤ '9' then some (c.toNat - '0'.toNat)
  else if 'a' ≤ c ∧ c ≤ 'f' then some (c.toNat - 'a'.toNat + 10)
  else if 'A' ≤ c ∧ c ≤ 'F' then some (c.toNat - 'A'.toNat + 10)
  else none

/-- The number that four hexadecimal digits spell. -/
def hexUnit? (a b c d : Char) : Option Nat := do
  return (((← hexDigit? a) * 16 + (← hexDigit? b)) * 16 + (← hexDigit? c)) * 16 + (← hexDigit? d)

/-- The character that a one-letter escape stands for. -/
def escaped? : Char → Option Char
  | '"' => some '"'
  | '\\' => some '\\'
  | '/' => some '/'
  | 'b' => some '\x08'
  | 'f' => some '\x0c'
  | 'n' => some '\n'
  | 'r' => some '\x0d'
  | 't' => some '\t'
  | _ => none

/-- Reads the pieces of a string up to its closing quote; `before` are those already read, latest
first. -/
def readPieces (before : List Piece) : List Char → Option (List Piece × List Char)
  | [] => none
  | '"' :: rest => some (before.reverse, rest)
  | '\\' :: 'u' :: a :: b :: c :: d :: rest =>
    match hexUnit? a b c d with
    | some value => readPieces (.unit value :: before) rest
    | none => none
  | '\\' :: c :: rest =>
    match escaped? c with
    | some char => readPieces (.char char :: before) rest
    | none => none
  | c :: rest => if c < ' ' then none else readPieces (.char c :: before) rest

/-- The text of pieces, with the two halves of a surrogate pair joined; none when a half has no other. -/
def joinPieces : List Piece → Option (List Char)
  | [] => some []
  | .char c :: rest => (joinPieces rest).map (c :: ·)
  | .unit high :: .unit low :: rest =>
    if 0xd800 ≤ high ∧ high < 0xdc00 then
      if 0xdc00 ≤ low ∧ low < 0xe000 then
        (joinPieces rest).map
          (Char.ofNat (0x10000 + (high - 0xd800) * 0x400 + (low - 0xdc00)) :: ·)
      else none
    else if 0xdc00 ≤ high ∧ high < 0xe000 then none
    else (joinPieces (.unit low :: rest)).map (Char.ofNat high :: ·)
  | .unit value :: rest =>
    if 0xd800 ≤ value ∧ value < 0xe000 then none
    else (joinPieces rest).map (Char.ofNat value :: ·)

/-- Whether a character is a decimal digit. -/
def isDigit (c : Char) : Bool :=
  (Decimal.digit? c).isSome

/-- Reads one or more digits. -/
def readDigits (text : List Char) : Option (List Char × List Char) :=
  match text.takeWhile isDigit with
  | [] => none
  | digits => some (digits, text.dropWhile isDigit)

/-- Passes over an exponent, if there is one; tells whether there was. -/
def skipExponent (text : List Char) : Option (Bool × List Char) :=
  match text with
  | c :: rest =>
    if c = 'e' ∨ c = 'E' then
      let digits := match rest with
        | '+' :: digits | '-' :: digits => digits
        | _ => rest
      (readDigits digits).map fun (_, rest) => (true, rest)
    else some (false, text)
  | [] => some (false, [])

/-- Passes over a fraction, if there is one; tells whether there was. -/
def skipFraction (text : List Char) : Option (Bool × List Char) :=
  match text with
  | '.' :: rest => (readDigits rest).map fun (_, rest) => (true, rest)
  | _ => some (false, text)

/-- Whether a number starts with a zero that is not its only digit. -/
def hasLeadingZero (digits : List Char) : Bool :=
  digits.head? == some '0' && digits.length > 1

/-- Reads a number without sign. -/
def readUnsigned (text : List Char) : Option (Option Nat × List Char) :=
  (readDigits text).bind fun (digits, rest) =>
    if hasLeadingZero digits then none
    else (skipFraction rest).bind fun (hasFraction, rest) =>
      (skipExponent rest).map fun (hasExponent, rest) =>
        (if hasFraction || hasExponent then none else Decimal.natural? digits, rest)

/-- Reads the token that starts with a character. -/
def read (c : Char) (rest : List Char) : Option (Token × List Char) :=
  match c, rest with
  | '\x7b', _ => some (.openObject, rest)
  | '\x7d', _ => some (.closeObject, rest)
  | '[', _ => some (.openArray, rest)
  | ']', _ => some (.closeArray, rest)
  | ',', _ => some (.comma, rest)
  | ':', _ => some (.colon, rest)
  | 'n', 'u' :: 'l' :: 'l' :: rest => some (.null, rest)
  | 't', 'r' :: 'u' :: 'e' :: rest => some (.bool true, rest)
  | 'f', 'a' :: 'l' :: 's' :: 'e' :: rest => some (.bool false, rest)
  | '"', _ =>
    (readPieces [] rest).map fun (pieces, rest) =>
      (.string ((joinPieces pieces).map String.ofList), rest)
  | '-', _ => (readUnsigned rest).map fun (_, rest) => (.number none, rest)
  | _, _ => (readUnsigned (c :: rest)).map fun (value, rest) => (.number value, rest)

/-- Whether a character may stand between tokens. -/
def isBlank (c : Char) : Bool :=
  c = ' ' || c = '\t' || c = '\n' || c = '\x0d'

theorem length_readPieces_lt {before pieces : List Piece} {text rest : List Char}
    (h : readPieces before text = some (pieces, rest)) : rest.length < text.length := by
  fun_induction readPieces before text with
  | case1 => simp at h
  | case2 before tail =>
    simp only [Option.some.injEq, Prod.mk.injEq] at h
    simp [h.2]
  | case3 before a b c d tail value hv ih =>
    have := ih h
    simp only [List.length_cons]
    omega
  | case4 => simp at h
  | case5 before c tail _ char hc ih =>
    have := ih h
    simp only [List.length_cons]
    omega
  | case6 => simp at h
  | case7 => simp at h
  | case8 before c tail _ _ _ _ ih =>
    have := ih h
    simp only [List.length_cons]
    omega

theorem length_readDigits_lt {text digits rest : List Char}
    (h : readDigits text = some (digits, rest)) : rest.length < text.length := by
  simp only [readDigits] at h
  split at h
  · simp at h
  · rename_i hne
    simp only [Option.some.injEq, Prod.mk.injEq] at h
    have hsum := congrArg List.length (List.takeWhile_append_dropWhile (p := isDigit) (l := text))
    have hpos : 0 < (text.takeWhile isDigit).length :=
      List.length_pos_iff.2 fun hnil => hne hnil
    simp only [List.length_append] at hsum
    rw [← h.2]
    omega

theorem length_skipFraction_le {text rest : List Char} {had : Bool}
    (h : skipFraction text = some (had, rest)) : rest.length ≤ text.length := by
  simp only [skipFraction] at h
  split at h
  · simp only [Option.map_eq_some_iff] at h
    obtain ⟨⟨digits, tail⟩, hread, heq⟩ := h
    have := length_readDigits_lt hread
    simp only [Prod.mk.injEq] at heq
    simp only [← heq.2, List.length_cons]
    omega
  · simp only [Option.some.injEq, Prod.mk.injEq] at h
    simp [h.2]

theorem length_skipExponent_le {text rest : List Char} {had : Bool}
    (h : skipExponent text = some (had, rest)) : rest.length ≤ text.length := by
  simp only [skipExponent] at h
  split at h
  · rename_i c tail
    split at h
    · simp only [Option.map_eq_some_iff] at h
      obtain ⟨⟨digits, left⟩, hread, heq⟩ := h
      have hlt := length_readDigits_lt hread
      simp only [Prod.mk.injEq] at heq
      rw [← heq.2]
      simp only [List.length_cons]
      split at hlt <;> simp only [List.length_cons] at * <;> omega
    · simp only [Option.some.injEq, Prod.mk.injEq] at h
      simp [← h.2]
  · simp only [Option.some.injEq, Prod.mk.injEq] at h
    simp [← h.2]

theorem length_readUnsigned_lt {text rest : List Char} {value : Option Nat}
    (h : readUnsigned text = some (value, rest)) : rest.length < text.length := by
  simp only [readUnsigned, Option.bind_eq_some_iff] at h
  obtain ⟨⟨digits, afterDigits⟩, hdigits, h⟩ := h
  split at h
  · simp at h
  · simp only [Option.bind_eq_some_iff, Option.map_eq_some_iff] at h
    obtain ⟨⟨hadFraction, afterFraction⟩, hfraction, ⟨hadExponent, left⟩, hexponent, h⟩ := h
    have hfirst := length_readDigits_lt hdigits
    have hsecond := length_skipFraction_le hfraction
    have hthird : left.length ≤ afterFraction.length := length_skipExponent_le hexponent
    obtain ⟨_, rfl⟩ := Prod.mk.inj h
    exact Nat.lt_of_le_of_lt (Nat.le_trans hthird hsecond) hfirst

/-- The token that was read took at least one character. -/
theorem length_read_le {c : Char} {text rest : List Char} {token : Token}
    (h : read c text = some (token, rest)) : rest.length ≤ text.length := by
  unfold read at h
  split at h
  case h_1 | h_2 | h_3 | h_4 | h_5 | h_6 => simp_all
  case h_7 | h_8 | h_9 =>
    simp only [Option.some.injEq, Prod.mk.injEq] at h
    simp only [← h.2, List.length_cons]
    omega
  case h_10 =>
    simp only [Option.map_eq_some_iff] at h
    obtain ⟨⟨pieces, left⟩, hread, h⟩ := h
    obtain ⟨_, rfl⟩ := Prod.mk.inj h
    exact Nat.le_of_lt (length_readPieces_lt hread)
  case h_11 =>
    simp only [Option.map_eq_some_iff] at h
    obtain ⟨⟨value, left⟩, hread, h⟩ := h
    obtain ⟨_, rfl⟩ := Prod.mk.inj h
    exact Nat.le_of_lt (length_readUnsigned_lt hread)
  case h_12 =>
    simp only [Option.map_eq_some_iff] at h
    obtain ⟨⟨value, left⟩, hread, h⟩ := h
    obtain ⟨_, rfl⟩ := Prod.mk.inj h
    exact Nat.le_of_lt_succ (length_readUnsigned_lt hread)

/-- Goes on reading tokens up to the end of the text; `before` are those already read, latest first. -/
def scanFrom (before : List Token) (text : List Char) : Option (List Token) :=
  match text with
  | [] => some before.reverse
  | c :: rest =>
    if isBlank c then scanFrom before rest
    else match _h : read c rest with
      | none => none
      | some (token, rest) => scanFrom (token :: before) rest
termination_by text.length
decreasing_by
  · simp
  · exact Nat.lt_succ_of_le (length_read_le _h)

/-- The tokens of a text. -/
def scan (text : List Char) : Option (List Token) :=
  scanFrom [] text

end Token

end Playprint.Json
