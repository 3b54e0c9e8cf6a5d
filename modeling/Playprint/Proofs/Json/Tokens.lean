import Playprint.Json.Parser
import Playprint.Json.Printer
import Playprint.Proofs.Text.Decimal

/-!
The tokens of JSON text that was written by the printer. Line breaks and blanks between tokens do not count, a
string is ended by its quote, and a number by what the printer writes behind a value.
-/

namespace Playprint.Json

/-- A value without a part that no field can hold; all of it shows in its text. -/
inductive Plain : Json → Prop
  | null : Plain .null
  | bool (value : Bool) : Plain (.bool value)
  | natural (value : Nat) : Plain (.natural value)
  | string (text : String) : Plain (.string text)
  | array {items : List Json} (h : ∀ item ∈ items, Plain item) : Plain (.array items)
  | object {fields : List (String × Json)} (h : ∀ field ∈ fields, Plain field.2) : Plain (.object fields)

mutual

/-- The tokens of a value. -/
def tokens : Json → List Token
  | .null => [.null]
  | .bool value => [.bool value]
  | .natural value => [.number (some value)]
  | .string text => [.string (some text)]
  | .array [] => [.openArray, .closeArray]
  | .array (item :: rest) => .openArray :: tokens item ++ itemTokens rest ++ [.closeArray]
  | .object [] => [.openObject, .closeObject]
  | .object (field :: rest) =>
    .openObject :: fieldTokens field ++ moreFieldTokens rest ++ [.closeObject]
  | .other => [.null]

/-- The tokens of the items after the first one. -/
def itemTokens : List Json → List Token
  | [] => []
  | item :: rest => .comma :: tokens item ++ itemTokens rest

/-- The tokens of a field with its name. -/
def fieldTokens : String × Json → List Token
  | (name, value) => .string (some name) :: .colon :: tokens value

/-- The tokens of the fields after the first one. -/
def moreFieldTokens : List (String × Json) → List Token
  | [] => []
  | field :: rest => .comma :: fieldTokens field ++ moreFieldTokens rest

end

namespace Token

variable {before : List Token} {text rest : List Char}

/-! ### Strings -/

/-- An escape that is no half of a character stands for a character by itself. -/
theorem joinPieces_unit {value : Nat} (h : value < 0xd800) (pieces : List Piece) :
    joinPieces (.unit value :: pieces) = (joinPieces pieces).map (Char.ofNat value :: ·) := by
  have hhigh : ¬(0xd800 ≤ value ∧ value < 0xdc00) := fun hrange => Nat.not_le_of_lt h hrange.1
  have hlow : ¬(0xdc00 ≤ value ∧ value < 0xe000) := by omega
  have hhalf : ¬(0xd800 ≤ value ∧ value < 0xe000) := fun hrange => Nat.not_le_of_lt h hrange.1
  cases pieces with
  | nil => simp only [joinPieces, if_neg hhalf]
  | cons piece rest =>
      cases piece with
      | char c => simp only [joinPieces, if_neg hhalf]
      | unit low => simp only [joinPieces, if_neg hhigh, if_neg hlow]

theorem hexUnit?_control : ∀ value < 32,
    hexUnit? '0' '0' (Hex.digit (value / 16)) (Hex.digit value) = some value := by
  decide

/-- A character is written with one letter behind a backslash, with its number, or as it is. -/
theorem escape_cases (c : Char) :
    (∃ letter, escape c = ['\\', letter] ∧ letter ≠ 'u' ∧ escaped? letter = some c) ∨
    (c.toNat < 32 ∧
      escape c = ['\\', 'u', '0', '0', Hex.digit (c.toNat / 16), Hex.digit c.toNat]) ∨
    (c ≠ '"' ∧ c ≠ '\\' ∧ ¬c < ' ' ∧ escape c = [c]) := by
  by_cases hshort : c ∈ ['"', '\\', '\n', '\x0d', '\t', '\x08', '\x0c']
  · left
    simp only [List.mem_cons, List.not_mem_nil, or_false] at hshort
    rcases hshort with rfl | rfl | rfl | rfl | rfl | rfl | rfl
    all_goals exact ⟨_, rfl, by decide, rfl⟩
  right
  simp only [List.mem_cons, List.not_mem_nil, or_false, not_or] at hshort
  obtain ⟨hquote, hbackslash, hline, hreturn, htab, hback, hform⟩ := hshort
  simp only [escape, if_neg hquote, if_neg hbackslash, if_neg hline, if_neg hreturn, if_neg htab,
    if_neg hback, if_neg hform]
  by_cases hcontrol : c < ' '
  · exact .inl ⟨UInt32.lt_iff_toNat_lt.mp hcontrol, if_pos hcontrol⟩
  · exact .inr ⟨hquote, hbackslash, hcontrol, if_neg hcontrol⟩

/-- A character is written as one piece, which stands for it. -/
theorem readPieces_escape (c : Char) : ∃ piece,
    (∀ before rest, readPieces before (escape c ++ rest) = readPieces (piece :: before) rest) ∧
      ∀ pieces, joinPieces (piece :: pieces) = (joinPieces pieces).map (c :: ·) := by
  have hchar : ∀ pieces, joinPieces (.char c :: pieces) = (joinPieces pieces).map (c :: ·) :=
    fun _ => by rw [joinPieces]
  rcases escape_cases c with ⟨letter, hescape, hletter, hescaped⟩ | ⟨hvalue, hescape⟩ |
    ⟨hquote, hbackslash, hprintable, hescape⟩ <;> rw [hescape]
  · refine ⟨.char c, fun before rest => ?_, hchar⟩
    rw [List.cons_append, List.singleton_append, readPieces]
    · rw [hescaped]
    · exact fun _ _ _ _ _ hu _ => hletter hu
  · refine ⟨.unit c.toNat, fun before rest => ?_, fun pieces => ?_⟩
    · show readPieces before ('\\' :: 'u' :: '0' :: '0' :: _ :: _ :: rest) = _
      rw [readPieces, hexUnit?_control _ hvalue]
    · rw [joinPieces_unit (Nat.lt_trans hvalue (by decide)), Char.ofNat_toNat]
  · refine ⟨.char c, fun before rest => ?_, hchar⟩
    rw [List.singleton_append, readPieces]
    · rw [if_neg hprintable]
    · exact hquote
    · exact fun _ _ _ _ _ hc _ => hbackslash hc
    · exact fun _ _ hc _ => hbackslash hc

/-- A string is read to its own quote, and its pieces spell it. -/
theorem readPieces_flatMap_escape (before : List Piece) (text rest : List Char) : ∃ pieces,
    readPieces before (text.flatMap escape ++ '"' :: rest) = some (before.reverse ++ pieces, rest) ∧
      joinPieces pieces = some text := by
  induction text generalizing before with
  | nil => exact ⟨[], by rw [List.append_nil]; rfl, rfl⟩
  | cons c text ih =>
      obtain ⟨piece, hread, hjoin⟩ := readPieces_escape c
      obtain ⟨pieces, hrest, hspell⟩ := ih (piece :: before)
      refine ⟨piece :: pieces, ?_, by rw [hjoin, hspell, Option.map_some]⟩
      rw [List.flatMap_cons, List.append_assoc, hread, hrest, List.reverse_cons, List.append_assoc,
        List.singleton_append]

/-! ### Numbers -/

/-- What the printer puts behind a value: nothing, or a comma or a line break before other text. -/
def EndsValue : List Char → Prop
  | [] => True
  | c :: _ => c = ',' ∨ c = '\n'

/-- A number is read to the end of its digits. -/
theorem readDigits_ofNat (value : Nat) (h : EndsValue rest) :
    readDigits (Decimal.ofNat value ++ rest) = some (Decimal.ofNat value, rest) := by
  have hdigits : ∀ c ∈ Decimal.ofNat value, isDigit c = true := fun c hc => by
    rw [isDigit, Decimal.digit?_of_isDigit (Decimal.isDigit_of_mem_ofNat hc), Option.isSome_some]
  have hrest : rest.takeWhile isDigit = [] ∧ rest.dropWhile isDigit = rest := by
    cases rest with
    | nil => exact ⟨rfl, rfl⟩
    | cons c rest => rcases h with rfl | rfl <;> exact ⟨rfl, rfl⟩
  rw [readDigits, List.takeWhile_append_of_pos hdigits, List.dropWhile_append_of_pos hdigits, hrest.1,
    hrest.2, List.append_nil]
  split
  · exact absurd ‹_› Nat.toDigits_ne_nil
  · rfl

theorem hasLeadingZero_ofNat (value : Nat) : hasLeadingZero (Decimal.ofNat value) = false := by
  rcases Nat.eq_zero_or_pos value with rfl | hpos
  · rfl
  · rw [hasLeadingZero, beq_eq_false_iff_ne.mpr (Decimal.head?_ofNat hpos), Bool.false_and]

theorem readUnsigned_ofNat (value : Nat) (h : EndsValue rest) :
    readUnsigned (Decimal.ofNat value ++ rest) = some (some value, rest) := by
  have hrest : skipFraction rest = some (false, rest) ∧ skipExponent rest = some (false, rest) := by
    cases rest with
    | nil => exact ⟨rfl, rfl⟩
    | cons c rest => rcases h with rfl | rfl <;> exact ⟨rfl, rfl⟩
  simp only [readUnsigned, readDigits_ofNat value h, Option.bind_some, hasLeadingZero_ofNat, hrest.1,
    hrest.2, Option.map_some, Decimal.natural?_ofNat]
  rfl

/-! ### Reading token by token -/

theorem scanFrom_blank {c : Char} (h : isBlank c = true) :
    scanFrom before (c :: rest) = scanFrom before rest := by
  rw [scanFrom, if_pos h]

theorem scanFrom_read {c : Char} (token : Token) (hblank : isBlank c = false)
    (h : read c text = some (token, rest)) :
    scanFrom before (c :: text) = scanFrom (token :: before) rest := by
  rw [scanFrom, if_neg (by rw [hblank]; exact Bool.false_ne_true)]
  split <;> rename_i hread <;> rw [h] at hread <;> cases hread
  rfl

theorem scanFrom_newline (level : Nat) : scanFrom before (newline level ++ rest) = scanFrom before rest := by
  have hblanks (count : Nat) : scanFrom before (List.replicate count ' ' ++ rest) = scanFrom before rest := by
    induction count with
    | zero => rfl
    | succ count ih => rw [List.replicate_succ, List.cons_append, scanFrom_blank rfl, ih]
  rw [newline, List.cons_append, scanFrom_blank rfl, hblanks]

theorem scanFrom_quote (text : String) :
    scanFrom before (quote text ++ rest) = scanFrom (.string (some text) :: before) rest := by
  obtain ⟨pieces, hread, hjoin⟩ := readPieces_flatMap_escape [] text.toList rest
  rw [quote, List.append_assoc, List.cons_append, List.singleton_append]
  apply scanFrom_read _ rfl
  rw [read, hread]
  simp only [List.reverse_nil, List.nil_append, Option.map_some, hjoin, String.ofList_toList]

/-- A digit starts a number. -/
theorem read_of_isDigit {c : Char} (h : c.isDigit = true) (text : List Char) :
    read c text = (readUnsigned (c :: text)).map fun (value, rest) => (.number value, rest) := by
  rw [read]
  all_goals
    intros
    subst c
    revert h
    decide

theorem scanFrom_ofNat (value : Nat) (h : EndsValue rest) :
    scanFrom before (Decimal.ofNat value ++ rest) = scanFrom (.number (some value) :: before) rest := by
  have hread := readUnsigned_ofNat value h
  have hdigits (c : Char) (hc : c ∈ Decimal.ofNat value) : c.isDigit = true :=
    Decimal.isDigit_of_mem_ofNat hc
  cases hofNat : Decimal.ofNat value with
  | nil => exact absurd hofNat Nat.toDigits_ne_nil
  | cons c digits =>
      rw [hofNat] at hread hdigits
      have hdigit := hdigits c List.mem_cons_self
      have hblank : isBlank c = false := by
        rw [Bool.eq_false_iff]
        intro hblank
        simp only [isBlank, Bool.or_eq_true, decide_eq_true_eq] at hblank
        rcases hblank with ((rfl | rfl) | rfl) | rfl <;> cases hdigit
      rw [List.cons_append]
      apply scanFrom_read _ hblank
      rw [read_of_isDigit hdigit, ← List.cons_append, hread, Option.map_some]

/-! ### Values -/

theorem endsValue_renderItems (level : Nat) (items : List Json) (rest : List Char) (h : EndsValue rest) :
    EndsValue (renderItems level items ++ rest) := by
  cases items with
  | nil => exact h
  | cons _ _ => exact .inl rfl

theorem endsValue_renderFields (level : Nat) (fields : List (String × Json)) (rest : List Char)
    (h : EndsValue rest) : EndsValue (renderFields level fields ++ rest) := by
  cases fields with
  | nil => exact h
  | cons _ _ => exact .inl rfl

/-- Where a value may end, a text is read as certain tokens. -/
def Spells (text : List Char) (tokens : List Token) : Prop :=
  ∀ before rest, EndsValue rest →
    scanFrom before (text ++ rest) = scanFrom (tokens.reverse ++ before) rest

namespace Spells

variable {text tail : List Char} {spelled more : List Token} {level : Nat}

theorem append (h : Spells text spelled) (htail : Spells tail more)
    (hends : ∀ rest, EndsValue rest → EndsValue (tail ++ rest)) :
    Spells (text ++ tail) (spelled ++ more) := by
  intro before rest hrest
  rw [List.append_assoc, h _ _ (hends rest hrest), htail _ _ hrest, List.reverse_append,
    List.append_assoc]

theorem comma (h : Spells text spelled) (level : Nat) :
    Spells (',' :: newline level ++ text) (.comma :: spelled) := by
  intro before rest hrest
  rw [List.append_assoc, List.cons_append, scanFrom_read .comma rfl rfl, scanFrom_newline,
    h _ _ hrest, List.reverse_cons, List.append_assoc, List.singleton_append]

/-- A character on each side of a text, with the text on lines of its own between them. -/
theorem enclosed (h : Spells text spelled) {opening closing : Char} {first last : Token}
    (hblanks : isBlank opening = false ∧ isBlank closing = false)
    (hopening : ∀ rest, read opening rest = some (first, rest))
    (hclosing : ∀ rest, read closing rest = some (last, rest)) :
    Spells (opening :: newline (level + 1) ++ text ++ newline level ++ [closing])
      (first :: spelled ++ [last]) := by
  intro before rest _
  have hends : EndsValue (newline level ++ closing :: rest) := .inr rfl
  simp only [List.append_assoc, List.cons_append, List.nil_append]
  rw [scanFrom_read _ hblanks.1 (hopening _), scanFrom_newline, h _ _ hends, scanFrom_newline,
    scanFrom_read _ hblanks.2 (hclosing _)]
  simp only [List.reverse_cons, List.reverse_append, List.reverse_nil, List.nil_append, List.cons_append,
    List.append_assoc]

theorem items {items : List Json} (h : ∀ item ∈ items, Spells (render level item) item.tokens) :
    Spells (renderItems level items) (itemTokens items) := by
  induction items with
  | nil => exact fun _ _ _ => rfl
  | cons item items ih =>
      obtain ⟨hitem, hitems⟩ := List.forall_mem_cons.mp h
      exact (hitem.comma level).append (ih hitems) (endsValue_renderItems level items)

theorem field {field : String × Json} (h : Spells (render level field.2) field.2.tokens) :
    Spells (renderField level field) (fieldTokens field) := by
  intro before rest hrest
  rw [renderField, fieldTokens, List.append_assoc, List.append_assoc, scanFrom_quote, List.cons_append,
    List.singleton_append, scanFrom_read .colon rfl rfl, scanFrom_blank rfl, h _ _ hrest]
  simp only [List.reverse_cons, List.append_assoc, List.cons_append, List.nil_append]

theorem fields {fields : List (String × Json)}
    (h : ∀ field ∈ fields, Spells (render level field.2) field.2.tokens) :
    Spells (renderFields level fields) (moreFieldTokens fields) := by
  induction fields with
  | nil => exact fun _ _ _ => rfl
  | cons field fields ih =>
      obtain ⟨hfield, hfields⟩ := List.forall_mem_cons.mp h
      exact (hfield.field.comma level).append (ih hfields) (endsValue_renderFields level fields)

end Spells

/-- The text of a value is read as the tokens of the value. -/
theorem spells_render {value : Json} (h : Plain value) (level : Nat) :
    Spells (render level value) value.tokens := by
  induction h generalizing level with
  | null => exact fun _ _ _ => scanFrom_read _ rfl rfl
  | bool value => cases value <;> exact fun _ _ _ => scanFrom_read _ rfl rfl
  | natural value => exact fun _ _ hrest => scanFrom_ofNat value hrest
  | string text => exact fun _ _ _ => scanFrom_quote text
  | @array items _ ih =>
      cases items with
      | nil =>
          intro before rest _
          rw [render, List.cons_append, scanFrom_read .openArray rfl rfl]
          exact scanFrom_read _ rfl rfl
      | cons item items =>
          obtain ⟨hitem, hitems⟩ := List.forall_mem_cons.mp fun item hmem => ih item hmem (level + 1)
          have hlines := hitem.append (.items hitems) (endsValue_renderItems _ items)
          rw [render, tokens, List.append_assoc (_ :: _)]
          exact hlines.enclosed ⟨rfl, rfl⟩ (fun _ => rfl) fun _ => rfl
  | @object fields _ ih =>
      cases fields with
      | nil =>
          intro before rest _
          rw [render, List.cons_append, scanFrom_read .openObject rfl rfl]
          exact scanFrom_read _ rfl rfl
      | cons field fields =>
          obtain ⟨hfield, hfields⟩ := List.forall_mem_cons.mp fun field hmem => ih field hmem (level + 1)
          have hlines := hfield.field.append (.fields hfields) (endsValue_renderFields _ fields)
          rw [render, tokens, List.append_assoc (_ :: _)]
          exact hlines.enclosed ⟨rfl, rfl⟩ (fun _ => rfl) fun _ => rfl

/-- The text of a value on its own. -/
theorem scan_render {value : Json} (h : Plain value) : scan (render 0 value) = some value.tokens := by
  have hread := spells_render h 0 [] [] trivial
  rw [List.append_nil, List.append_nil] at hread
  rw [scan, hread, scanFrom, List.reverse_reverse]

end Token

end Playprint.Json
