/-!
Paths: texts whose parts are set apart by slashes. Two paths are the same if their components are, which
takes no account of repeated slashes or of parts that stay where they are.
-/

namespace Playprint.Path

/-- One component of a path. -/
inductive Component
  /-- The slash in front of an absolute path. -/
  | root
  /-- The dot in front of a path that starts where it stands. -/
  | current
  /-- A step upwards. -/
  | parent
  | name (text : String)
  deriving DecidableEq

namespace Component

/-- The place of the component among components of other kinds. -/
def rank : Component → Nat
  | root => 0
  | current => 1
  | parent => 2
  | name _ => 3

/-- The component as a path writes it. -/
def text : Component → String
  | root => "/"
  | current => "."
  | parent => ".."
  | name text => text

/-- Whether the component comes before another one: names come last, and in the order of their text. -/
def isBefore (a b : Component) : Bool :=
  a.rank < b.rank || (a.rank == b.rank && a.text < b.text)

end Component

/-- The parts of a text between slashes, empty ones included. -/
def split : List Char → List (List Char)
  | [] => [[]]
  | c :: rest =>
    if c = '/' then [] :: split rest
    else match split rest with
      | [] => [[c]]
      | part :: parts => (c :: part) :: parts

/-- The parts of a path between slashes, those that are not empty. -/
def parts (path : String) : List String :=
  ((split path.toList).filter (· ≠ [])).map String.ofList

/-- Whether the path starts at the root of all files. -/
def isAbsolute (path : String) : Bool :=
  path.toList.head? == some '/'

/-- Whether the path ends with a slash, as only the path of a directory may. -/
def endsWithSlash (path : String) : Bool :=
  path.toList.getLast? == some '/'

/-- The component that a part stands for. -/
def component (part : String) : Component :=
  if part = "." then .current
  else if part = ".." then .parent
  else .name part

/-- The components of a path. A dot counts only in front. -/
def components (path : String) : List Component :=
  let parts := (parts path).map component
  if isAbsolute path then .root :: parts.filter (· ≠ .current)
  else parts.take 1 ++ (parts.drop 1).filter (· ≠ .current)

/-- Whether a list of components comes before another one or is the same, component by component. -/
def isOrdered : List Component → List Component → Bool
  | [], _ => true
  | _ :: _, [] => false
  | a :: as, b :: bs => if a = b then isOrdered as bs else a.isBefore b

/-- Puts a path in its place among paths in order. It takes the place of one that is the same. -/
def insert (path : String) : List String → List String
  | [] => [path]
  | other :: rest =>
    if components path = components other then path :: rest
    else if isOrdered (components path) (components other) then path :: other :: rest
    else other :: insert path rest

/-- The paths in order. Of those that are the same the first is kept. -/
def sorted (paths : List String) : List String :=
  paths.foldr insert []

/-- The path of something inside a directory. -/
def join (directory name : String) : String :=
  if directory = "" ∨ endsWithSlash directory then directory ++ name else directory ++ "/" ++ name

/-- The last component, when it is a name. -/
def fileName? (path : String) : Option String :=
  match (components path).getLast? with
  | some (.name text) => some text
  | _ => none

/-- A name cut at its last dot. A dot in front of the whole name does not count. -/
def cutName (name : String) : String × Option String :=
  let reversed := name.toList.reverse
  match reversed.dropWhile (· ≠ '.') with
  | _ :: c :: stem =>
    (String.ofList (c :: stem).reverse, some (String.ofList (reversed.takeWhile (· ≠ '.')).reverse))
  | _ => (name, none)

/-- The last name of the path without its extension. -/
def stem? (path : String) : Option String :=
  (fileName? path).map fun name => (cutName name).1

/-- The extension of the last name of the path. -/
def extension? (path : String) : Option String :=
  (fileName? path).bind fun name => (cutName name).2

/-- The path of components. -/
def ofComponents (components : List Component) : String :=
  components.foldl (fun path component => join path component.text) ""

/-- The path and the paths above it, the longest first. -/
def ancestry (path : String) : List String :=
  let components := components path
  path :: (List.range components.length).tail.reverse.map fun count =>
    ofComponents (components.take count)

end Playprint.Path
