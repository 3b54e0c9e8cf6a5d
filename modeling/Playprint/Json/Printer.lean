import Playprint.Bytes
import Playprint.Json
import Playprint.Text.Decimal

/-!
Writing a JSON value. Items and fields stand on lines of their own, two more blanks in for each level;
empty arrays and objects stand on one line.
-/

namespace Playprint.Json

/-- A character of a string as it is written: quotes, backslashes and control characters are escaped. -/
def escape (c : Char) : List Char :=
  if c = '"' then ['\\', '"']
  else if c = '\\' then ['\\', '\\']
  else if c = '\n' then ['\\', 'n']
  else if c = '\x0d' then ['\\', 'r']
  else if c = '\t' then ['\\', 't']
  else if c = '\x08' then ['\\', 'b']
  else if c = '\x0c' then ['\\', 'f']
  else if c < ' ' then ['\\', 'u', '0', '0', Hex.digit (c.toNat / 16), Hex.digit c.toNat]
  else [c]

/-- A string in quotes. -/
def quote (text : String) : List Char :=
  '"' :: text.toList.flatMap escape ++ ['"']

/-- A new line at a level. -/
def newline (level : Nat) : List Char :=
  '\n' :: List.replicate (2 * level) ' '

mutual

/-- A value at a level. -/
def render (level : Nat) : Json → List Char
  | .null => ['n', 'u', 'l', 'l']
  | .bool true => ['t', 'r', 'u', 'e']
  | .bool false => ['f', 'a', 'l', 's', 'e']
  | .natural value => Decimal.ofNat value
  | .string text => quote text
  | .array [] => ['[', ']']
  | .array (item :: rest) =>
    '[' :: newline (level + 1) ++ render (level + 1) item ++ renderItems (level + 1) rest ++
      newline level ++ [']']
  | .object [] => ['\x7b', '\x7d']
  | .object (field :: rest) =>
    '\x7b' :: newline (level + 1) ++ renderField (level + 1) field ++ renderFields (level + 1) rest ++
      newline level ++ ['\x7d']
  | .other => ['n', 'u', 'l', 'l']

/-- The items after the first one. -/
def renderItems (level : Nat) : List Json → List Char
  | [] => []
  | item :: rest => ',' :: newline level ++ render level item ++ renderItems level rest

/-- A field with its name. -/
def renderField (level : Nat) : String × Json → List Char
  | (name, value) => quote name ++ [':', ' '] ++ render level value

/-- The fields after the first one. -/
def renderFields (level : Nat) : List (String × Json) → List Char
  | [] => []
  | field :: rest => ',' :: newline level ++ renderField level field ++ renderFields level rest

end

/-- The text of a value. -/
def pretty (value : Json) : String :=
  String.ofList (render 0 value)

end Playprint.Json
