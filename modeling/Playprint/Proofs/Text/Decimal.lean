import Mathlib.Data.List.Basic
import Playprint.Text.Decimal

/-!
Decimal text of numbers, written and read back. A number is written without zeros in front, so its text is never
mistaken for that of another one. What is read as a number is digits and at most a sign, all of it ASCII.
-/

namespace Playprint.Decimal

variable {c : Char} {text : List Char} {value : Nat}

theorem digit?_of_isDigit (h : c.isDigit = true) : digit? c = some (c.toNat - '0'.toNat) := by
  simp only [Char.isDigit, Bool.and_eq_true, decide_eq_true_eq] at h
  exact if_pos h

theorem isDigit_of_mem_ofNat (h : c ∈ ofNat value) : c.isDigit = true :=
  Nat.isDigit_of_mem_toDigits (by decide) (Nat.le_refl 10) h

theorem readDigits_of_isDigit (h : ∀ c ∈ text, c.isDigit = true) (value : Nat) :
    readDigits value text = some (Nat.ofDigitChars 10 text value) := by
  induction text generalizing value with
  | nil => rfl
  | cons c rest ih =>
      obtain ⟨hc, hrest⟩ := List.forall_mem_cons.mp h
      rw [readDigits, digit?_of_isDigit hc, Option.bind_some, ih hrest, Nat.ofDigitChars_cons,
        Nat.mul_comm]

/-- A number that is written is read back. -/
theorem natural?_ofNat (value : Nat) : natural? (ofNat value) = some value := by
  have hdigits : ∀ c ∈ ofNat value, c.isDigit = true := fun _ => isDigit_of_mem_ofNat
  have hread := readDigits_of_isDigit hdigits 0
  rw [ofNat, Nat.ofDigitChars_ten_toDigits] at hread
  rw [natural?]
  · exact hread
  · exact Nat.toDigits_ne_nil

/-- Only zero is written with a zero in front. -/
theorem head?_ofNat (h : 0 < value) : (ofNat value).head? ≠ some '0' := by
  induction value using Nat.strongRecOn with
  | ind value ih =>
      by_cases hsmall : value < 10
      · rw [ofNat, Nat.toDigits_of_lt_base hsmall]
        have hdigits : ∀ digit < 10, 0 < digit → [digit.digitChar].head? ≠ some '0' := by decide
        exact hdigits value hsmall h
      · have hquotient := Nat.div_pos (Nat.le_of_not_lt hsmall) (by decide : 0 < 10)
        rw [ofNat, Nat.toDigits_of_base_le (by decide) (Nat.le_of_not_lt hsmall),
          List.head?_append_of_ne_nil _ Nat.toDigits_ne_nil]
        exact ih _ (Nat.div_lt_self h (by decide)) hquotient

/-! ### What is read as a number -/

theorem digit?_of_not_isDigit (h : ¬c.isDigit = true) : digit? c = none := by
  simp only [Char.isDigit, Bool.and_eq_true, decide_eq_true_eq] at h
  exact if_neg h

/-- Digits are read as what they spell, and nothing else is. -/
theorem readDigits_eq_some_iff {read : Nat} :
    readDigits value text = some read ↔
      (∀ c ∈ text, c.isDigit = true) ∧ Nat.ofDigitChars 10 text value = read := by
  constructor
  · intro h
    have hdigits : ∀ c ∈ text, c.isDigit = true := by
      induction text generalizing value with
      | nil => exact fun _ hmem => absurd hmem List.not_mem_nil
      | cons c rest ih =>
          by_cases hc : c.isDigit = true
          · rw [readDigits, digit?_of_isDigit hc] at h
            exact List.forall_mem_cons.mpr ⟨hc, ih h⟩
          · rw [readDigits, digit?_of_not_isDigit hc] at h
            cases h
    exact ⟨hdigits, Option.some.inj ((readDigits_of_isDigit hdigits value).symm.trans h)⟩
  · rintro ⟨hdigits, rfl⟩
    exact readDigits_of_isDigit hdigits value

theorem natural?_eq_some_iff :
    natural? text = some value ↔
      text ≠ [] ∧ (∀ c ∈ text, c.isDigit = true) ∧ Nat.ofDigitChars 10 text 0 = value := by
  cases text with
  | nil => simp [natural?]
  | cons c rest =>
      rw [natural?, readDigits_eq_some_iff]
      · exact (and_iff_right (List.cons_ne_nil c rest)).symm
      · exact List.cons_ne_nil c rest

/-- A sign in front of digits is none of them. -/
theorem unsigned?_eq_some_iff {bound : Nat} :
    unsigned? bound text = some value ↔
      (∃ sign digits, text = sign ++ digits ∧ (sign = [] ∨ sign = ['+']) ∧ natural? digits = some value) ∧
        value < bound := by
  unfold unsigned?
  rw [Option.filter_eq_some_iff, decide_eq_true_iff, and_congr_left_iff]
  intro _
  split
  · rename_i rest
    constructor
    · exact fun h => ⟨['+'], rest, rfl, .inr rfl, h⟩
    · rintro ⟨sign, digits, htext, rfl | rfl, h⟩
      · rw [List.nil_append] at htext
        obtain ⟨_, hdigits, _⟩ := natural?_eq_some_iff.mp h
        have hplus := hdigits '+' (htext ▸ List.mem_cons_self)
        exact absurd hplus (by decide)
      · cases htext
        exact h
  · rename_i hsign
    constructor
    · exact fun h => ⟨[], text, rfl, .inl rfl, h⟩
    · rintro ⟨sign, digits, rfl, rfl | rfl, h⟩
      · exact h
      · exact absurd rfl (hsign digits)

theorem isDigit_iff : c.isDigit = true ↔ '0'.toNat ≤ c.toNat ∧ c.toNat ≤ '9'.toNat := by
  rw [Char.isDigit, Bool.and_eq_true, decide_eq_true_iff, decide_eq_true_iff]
  rfl

theorem ascii_of_isDigit (h : c.isDigit = true) : 0 < c.toNat ∧ c.toNat < 128 := by
  obtain ⟨hlow, hhigh⟩ := isDigit_iff.mp h
  exact ⟨Nat.lt_of_lt_of_le (by decide) hlow, Nat.lt_of_le_of_lt hhigh (by decide)⟩

/-- Only characters of ASCII are read as a number, and not the one with code zero. -/
theorem ascii_of_unsigned? {bound : Nat} (h : unsigned? bound text = some value) :
    ∀ c ∈ text, 0 < c.toNat ∧ c.toNat < 128 := by
  obtain ⟨⟨sign, digits, rfl, hsign, hnatural⟩, _⟩ := unsigned?_eq_some_iff.mp h
  obtain ⟨_, hdigits, _⟩ := natural?_eq_some_iff.mp hnatural
  intro c hc
  rcases List.mem_append.mp hc with hplus | hdigit
  · rcases hsign with rfl | rfl
    · exact absurd hplus List.not_mem_nil
    · rw [List.mem_singleton.mp hplus]
      decide
  · exact ascii_of_isDigit (hdigits c hdigit)

/-! ### Numbers of a fixed width -/

theorem readDigits_zeros (count : Nat) (text : List Char) :
    readDigits 0 (List.replicate count '0' ++ text) = readDigits 0 text := by
  induction count with
  | zero => rfl
  | succ count ih => exact ih

theorem toList_padLeft (width : Nat) (fill : Char) (text : String) :
    (padLeft width fill text).toList = List.replicate (width - text.length) fill ++ text.toList := by
  rw [padLeft, String.toList_append, String.toList_ofList]

theorem toList_toString (value : Nat) : (toString value).toList = ofNat value := by
  rw [Nat.toString_eq_repr, Nat.repr, String.toList_ofList]
  rfl

theorem isDigit_of_mem_padLeft {width : Nat} (h : c ∈ (padLeft width '0' (toString value)).toList) :
    c.isDigit = true := by
  rw [toList_padLeft, toList_toString] at h
  rcases List.mem_append.mp h with hzero | hdigit
  · rw [List.eq_of_mem_replicate hzero]
    rfl
  · exact isDigit_of_mem_ofNat hdigit

/-- A number that was filled up with zeros is read back. -/
theorem readDigits_padLeft (width value : Nat) :
    readDigits 0 (padLeft width '0' (toString value)).toList = some value := by
  rw [toList_padLeft, toList_toString, readDigits_zeros,
    readDigits_of_isDigit fun _ => isDigit_of_mem_ofNat, ofNat,
    Nat.ofDigitChars_ten_toDigits]

end Playprint.Decimal
