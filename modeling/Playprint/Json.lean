/-!
JSON values, as title tables are read from and reports written to.
-/

namespace Playprint

/-- A JSON value. Only natural numbers are told apart, because no field holds another number. -/
inductive Json
  | null
  | bool (value : Bool)
  | natural (value : Nat)
  | string (text : String)
  | array (items : List Json)
  /-- The fields in the order of the text; a name may come twice. -/
  | object (fields : List (String × Json))
  /-- A well-formed value that no field can hold: a number that is no natural number in plain digits, a
  string whose escapes do not spell text, or an object with such a string for a name. -/
  | other

namespace Json

/-- The value of an optional one, null when there is none. -/
def ofOption {α : Type} (f : α → Json) : Option α → Json
  | some a => f a
  | none => .null

/-- An object with known fields, in the order in which they were declared: each is given at most once.
Unknown fields are passed over. The object may also be written as an array of its first fields. -/
def record? (names : List String) : Json → Option (List (Option Json))
  | .object fields =>
    names.mapM fun name =>
      match fields.filter (·.1 = name) with
      | [] => some none
      | [(_, value)] => some (some value)
      | _ => none
  | .array items =>
    if items.length ≤ names.length then
      some (items.map some ++ List.replicate (names.length - items.length) none)
    else none
  | _ => none

/-- The text of a string. -/
def string? : Json → Option String
  | .string text => some text
  | _ => none

/-- The word that a number spells. -/
def word? : Json → Option UInt32
  | .natural value => if value < UInt32.size then some (UInt32.ofNat value) else none
  | _ => none

/-- A value that may be null. -/
def nullable? {α : Type} (read : Json → Option α) : Json → Option (Option α)
  | .null => some none
  | value => (read value).map some

/-- The items of an array, all read in one way. -/
def list? {α : Type} (read : Json → Option α) : Json → Option (List α)
  | .array items => items.mapM read
  | _ => none

end Json

end Playprint
