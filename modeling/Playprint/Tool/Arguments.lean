import Playprint.Text.Decimal

/-!
Command lines. Options have a long name, with their value in the next argument or after an equals sign; all
else is positional. A command line that breaks the rules of its options is rejected as a whole.
-/

namespace Playprint.Tool

/-- How an option is given. -/
inductive Usage
  /-- Without a value, at most once. -/
  | flag
  /-- With a value, at most once. -/
  | single
  /-- With a value, any number of times. -/
  | repeated
  deriving DecidableEq

/-- An option that a tool knows. -/
structure Switch where
  name : String
  usage : Usage

/-- The shape of one argument. -/
inductive ArgumentShape
  /-- The mark after which all arguments are positional. -/
  | terminator
  /-- A long name, with a value if there is an equals sign. -/
  | long (name : String) (value : Option String)
  /-- A dash and more; no tool knows such an option. -/
  | short
  | plain

/-- The shape of an argument. A lone dash is an argument like any other. -/
def ArgumentShape.ofText (argument : String) : ArgumentShape :=
  match argument.toList with
  | ['-'] => plain
  | ['-', '-'] => terminator
  | '-' :: '-' :: text =>
    let name := String.ofList (text.takeWhile (· ≠ '='))
    match text.dropWhile (· ≠ '=') with
    | _ :: value => long name (some (String.ofList value))
    | [] => long name none
  | '-' :: _ => short
  | _ => plain

/-- The arguments of a command line, sorted out. -/
structure Arguments where
  /-- The options in order, each with its value; that of a flag is empty. -/
  options : List (String × String)
  positionals : List String

namespace Arguments

/-- The arguments with an option in front. -/
def addOption (name value : String) (arguments : Arguments) : Arguments :=
  { arguments with options := (name, value) :: arguments.options }

/-- The arguments with a positional one in front. -/
def addPositional (value : String) (arguments : Arguments) : Arguments :=
  { arguments with positionals := value :: arguments.positionals }

/-- The usage of the option of a name. -/
def usage? (switches : List Switch) (name : String) : Option Usage :=
  (switches.find? (·.name = name)).map Switch.usage

/-- Sorts the arguments of a command line by the options a tool knows. An option may be waiting for its
value; another option does not serve as one. -/
def sort? (switches : List Switch) (waiting : Option String) : List String → Option Arguments
  | [] => if waiting.isNone then some ⟨[], []⟩ else none
  | argument :: rest =>
    match waiting, ArgumentShape.ofText argument with
    | some name, .plain => (sort? switches none rest).map (addOption name argument)
    | some _, _ => none
    | none, .terminator => some ⟨[], rest⟩
    | none, .short => none
    | none, .plain => (sort? switches none rest).map (addPositional argument)
    | none, .long name value =>
      match usage? switches name, value with
      | none, _ => none
      | some .flag, none => (sort? switches none rest).map (addOption name "")
      | some .flag, some _ => none
      | some _, some value => (sort? switches none rest).map (addOption name value)
      | some _, none => sort? switches (some name) rest

/-- The values of an option, in order. -/
def all (arguments : Arguments) (name : String) : List String :=
  arguments.options.filterMap fun (given, value) => if given = name then some value else none

/-- The value of an option that is given at most once. -/
def one? (arguments : Arguments) (name : String) : Option String :=
  (arguments.all name).head?

/-- Whether an option is given. -/
def has (arguments : Arguments) (name : String) : Bool :=
  !(arguments.all name).isEmpty

/-- Whether an option is given no more often than it may be. -/
def respects (arguments : Arguments) (switch : Switch) : Bool :=
  switch.usage = .repeated || (arguments.all switch.name).length ≤ 1

/-- Sorts the arguments of a command line that has so many positional ones at most. -/
def ofLine? (switches : List Switch) (room : Nat) (line : List String) : Option Arguments :=
  (sort? switches none line).filter fun arguments =>
    arguments.positionals.length ≤ room && switches.all arguments.respects

/-- The path that a value spells. -/
def path? (value : String) : Option String :=
  if value = "" then none else some value

/-- The index that a value spells: a number below 2^32 in decimal digits. A sign is allowed in front. -/
def index? (value : String) : Option Nat :=
  match value.toList with
  | '-' :: digits => (Decimal.natural? digits).filter (· = 0)
  | digits => Decimal.unsigned? UInt32.size digits

end Arguments

end Playprint.Tool
