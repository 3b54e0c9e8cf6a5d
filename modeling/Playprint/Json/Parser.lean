import Playprint.Json
import Playprint.Json.Token

/-!
Reading a JSON value from tokens. The values that are still open are kept on a stack of frames, so a text
may nest to any depth, and each token is looked at once.
-/

namespace Playprint.Json

/-- The fields of an object so far, latest first; none once a name did not spell text. -/
abbrev Fields := Option (List (String × Json))

/-- A value that was begun and not yet ended. -/
inductive Frame
  /-- An array with its items so far, latest first. -/
  | array (before : List Json)
  /-- An object with its fields so far. -/
  | object (before : Fields)
  /-- An object whose next field has a name and waits for its value. -/
  | field (before : Fields) (name : Option String)

/-- What may come next. -/
inductive Goal
  | value
  /-- An item of an array, or the end of the array. -/
  | item
  /-- The name of a field, or the end of the object. -/
  | field
  /-- The name of a field. -/
  | name
  /-- The colon after a name. -/
  | colon (name : Option String)
  /-- A comma, or the end of what is open. -/
  | more

/-- How far a text was read. -/
inductive Progress
  | reading (frames : List Frame) (goal : Goal)
  | complete (value : Json)

/-- Adds a field to those of an object. -/
def addField (before : Fields) (name : Option String) (value : Json) : Fields :=
  match before, name with
  | some before, some name => some ((name, value) :: before)
  | _, _ => none

/-- The object with the fields that were read. -/
def ofFields : Fields → Json
  | some before => .object before.reverse
  | none => .other

/-- Puts a value that has ended where it belongs. -/
def deliver (value : Json) : List Frame → Progress
  | [] => .complete value
  | .array before :: frames => .reading (.array (value :: before) :: frames) .more
  | .field before name :: frames =>
    .reading (.object (addField before name value) :: frames) .more
  | .object before :: frames => .reading (.object before :: frames) .more

/-- The value that a token is by itself. -/
def scalar? : Token → Option Json
  | .null => some .null
  | .bool value => some (.bool value)
  | .number (some value) => some (.natural value)
  | .number none => some .other
  | .string (some text) => some (.string text)
  | .string none => some .other
  | _ => none

/-- Begins the value that starts with a token. -/
def begin? (frames : List Frame) : Token → Option Progress
  | .openArray => some (.reading (.array [] :: frames) .item)
  | .openObject => some (.reading (.object (some []) :: frames) .field)
  | token => (scalar? token).map (deliver · frames)

/-- Reads one more token. -/
def advance (progress : Progress) (token : Token) : Option Progress :=
  match progress with
  | .complete _ => none
  | .reading frames goal =>
    match goal, token, frames with
    | .value, _, _ => begin? frames token
    | .item, .closeArray, .array before :: frames
    | .more, .closeArray, .array before :: frames => some (deliver (.array before.reverse) frames)
    | .item, _, _ => begin? frames token
    | .field, .closeObject, .object before :: frames
    | .more, .closeObject, .object before :: frames => some (deliver (ofFields before) frames)
    | .field, .string name, _ | .name, .string name, _ => some (.reading frames (.colon name))
    | .colon name, .colon, .object before :: frames =>
      some (.reading (.field before name :: frames) .value)
    | .more, .comma, .array _ :: _ => some (.reading frames .value)
    | .more, .comma, .object _ :: _ => some (.reading frames .name)
    | _, _, _ => none

/-- The value that tokens spell. -/
def ofTokens? (tokens : List Token) : Option Json :=
  match tokens.foldlM advance (.reading [] .value) with
  | some (.complete value) => some value
  | _ => none

/-- The value that a text spells. -/
def parse? (text : String) : Option Json :=
  (Token.scan text.toList).bind ofTokens?

end Playprint.Json
