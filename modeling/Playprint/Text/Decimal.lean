/-!
Decimal text of natural numbers.
-/

namespace Playprint.Decimal

/-- The digits of a number, without zeros in front. -/
def ofNat (value : Nat) : List Char :=
  Nat.toDigits 10 value

/-- The value of a decimal digit. -/
def digit? (c : Char) : Option Nat :=
  if '0' ≤ c ∧ c ≤ '9' then some (c.toNat - '0'.toNat) else none

/-- Goes on reading digits up to the end, with `value` read so far. -/
def readDigits (value : Nat) : List Char → Option Nat
  | [] => some value
  | c :: rest => (digit? c).bind fun d => readDigits (value * 10 + d) rest

/-- The number that one or more digits spell; zeros in front are allowed. -/
def natural? : List Char → Option Nat
  | [] => none
  | text => readDigits 0 text

/-- The number below a bound that digits spell, with one plus sign allowed in front. -/
def unsigned? (bound : Nat) (text : List Char) : Option Nat :=
  let digits := match text with
    | '+' :: rest => rest
    | _ => text
  (natural? digits).filter (· < bound)

/-- Text with a character repeated in front of it up to a width. -/
def padLeft (width : Nat) (fill : Char) (text : String) : String :=
  String.ofList (List.replicate (width - text.length) fill) ++ text

end Playprint.Decimal
