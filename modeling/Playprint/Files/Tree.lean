import Playprint.Files.Path
import Playprint.Files.System

/-!
Trees of files in memory, as a file system. A place in a tree is the list of names that lead to it from the
working directory, or from the root of all files if the slash stands in front. The root and the directories
above the working directory are there, and nothing is known of what else is in them.
-/

namespace Playprint

/-- What a place holds. -/
inductive FileEntry
  | file (data : Bytes)
  | directory

/-- Names that lead to a place. Those in front may be `/`, the root, and `..`, the directory above; no file has
such a name. -/
abbrev Place := List String

namespace Place

/-- The place that all files are below. -/
def root : Place :=
  ["/"]

/-- Whether the place is the root, the working directory or one of the directories above that. -/
def isAbove (place : Place) : Bool :=
  place = root || place.all (· = "..")

/-- Whether the place is below the working directory. -/
def isBelow (place : Place) : Bool :=
  !isAbove (place.take 1)

/-- The directory that the place is in. The root is in itself. -/
def parent (place : Place) : Place :=
  if place = root then root
  else if isAbove place then place ++ [".."]
  else place.dropLast

/-- The place that one part of a path leads to from another place. -/
def step (place : Place) (part : String) : Place :=
  if part = "." then place
  else if part = ".." then place.parent
  else place ++ [part]

end Place

/-- Files and directories under their places. -/
structure FileTree where
  entries : List (Place × FileEntry)

namespace FileTree

/-- A tree without files. -/
def empty : FileTree := ⟨[]⟩

/-- What a place holds. -/
def get? (tree : FileTree) (place : Place) : Option FileEntry :=
  if place.isAbove then some .directory else tree.entries.lookup place

/-- The data of the file at a place. -/
def file? (tree : FileTree) (place : Place) : Option Bytes :=
  match tree.get? place with
  | some (.file data) => some data
  | _ => none

/-- The tree with something else at a place. -/
def put (tree : FileTree) (place : Place) (entry : FileEntry) : FileTree :=
  ⟨(place, entry) :: tree.entries.filter (·.1 ≠ place)⟩

/-- The most bytes that a name has. -/
def longestName : Nat := 255

/-- The most bytes that a path has. -/
def longestPath : Nat := 4095

/-- The place that parts of a path lead to from another place. All but the last place on the way must be
directories. -/
def follow (tree : FileTree) (place : Place) : List String → Except SystemError Place
  | [] => .ok place
  | part :: rest =>
    match tree.get? place with
    | none => .error .missing
    | some (.file _) => .error .notDirectory
    | some .directory =>
      if longestName < part.utf8ByteSize then .error .longName
      else follow tree (place.step part) rest

/-- The place where a path starts. -/
def origin (path : String) : Except SystemError Place :=
  if longestPath < path.utf8ByteSize then .error .longName
  else .ok (if Path.isAbsolute path then .root else [])

/-- The place of a path. -/
def locate (tree : FileTree) (path : String) : Except SystemError Place := do
  tree.follow (← origin path) (Path.parts path)

/-- The place of the directory in which the last part of a path is looked up. -/
def locateAround (tree : FileTree) (path : String) : Except SystemError Place := do
  tree.follow (← origin path) ((Path.parts path).dropLast ++ ["."])

/-- What the path leads to; after a slash that must be a directory. -/
def find (tree : FileTree) (path : String) : Except SystemError (Place × FileEntry) := do
  let place ← tree.locate path
  match tree.get? place with
  | none => .error .missing
  | some (.file data) =>
    if Path.endsWithSlash path then .error .notDirectory else .ok (place, .file data)
  | some .directory => .ok (place, .directory)

/-- The data of the file at a path. -/
def read (tree : FileTree) (path : String) : Except SystemError Bytes := do
  match ← tree.find path with
  | (_, .file data) => .ok data
  | (_, .directory) => .error .isDirectory

/-- The tree with data in the file at a path. A path that ends with a slash is refused before its last part
is looked up. -/
def write (tree : FileTree) (path : String) (data : Bytes) : Except SystemError FileTree := do
  if Path.endsWithSlash path then
    let _ ← tree.locateAround path
    throw .isDirectory
  let place ← tree.locate path
  match tree.get? place with
  | some .directory => .error .isDirectory
  | _ => .ok (tree.put place (.file data))

/-- The tree with a directory at a path. -/
def makeDirectory (tree : FileTree) (path : String) : Except SystemError FileTree := do
  let place ← tree.locate path
  match tree.get? place with
  | some _ => .error .present
  | none => .ok (tree.put place .directory)

/-- Whether a path leads to a directory. -/
def isDirectory (tree : FileTree) (path : String) : Bool :=
  match tree.find path with
  | .ok (_, .directory) => true
  | _ => false

/-- Whether two paths lead to the same place. -/
def isSame (tree : FileTree) (path other : String) : Bool :=
  match tree.locate path, tree.locate other with
  | .ok place, .ok otherPlace => place = otherPlace
  | _, _ => false

/-- The path of a file below a directory. There is none if the path of the directory it is in is too long
to be followed. -/
def below? (path : String) (inner : Place) : Option String :=
  if (inner.dropLast.foldl Path.join path).utf8ByteSize ≤ longestPath then some (inner.foldl Path.join path)
  else none

/-- The paths of all files at or below a path. -/
def walk (tree : FileTree) (path : String) : List String :=
  match tree.find path with
  | .error _ => []
  | .ok (_, .file _) => [path]
  | .ok (top, .directory) =>
    tree.entries.filterMap fun (place, entry) =>
      match entry with
      | .file _ => if top.isPrefixOf place then below? path (place.drop top.length) else none
      | .directory => none

/-- The tree with a file where parts of a path lead to, and directories on the way. -/
def plant (tree : FileTree) (parts : List String) (data : Bytes) : FileTree :=
  let placeOf (parts : List String) : Place := parts.foldl Place.step []
  let above := (List.range parts.length).tail.map fun count => placeOf (parts.take count)
  (above.foldl (fun tree place => tree.put place .directory) tree).put (placeOf parts) (.file data)

/-- The tree of some files, given by path. -/
def ofFiles (files : List (String × Bytes)) : FileTree :=
  files.foldl (fun tree (path, data) => tree.plant (Path.parts path) data) .empty

/-- The files below the working directory, with the shortest paths that lead to them. -/
def files (tree : FileTree) : List (String × Bytes) :=
  tree.entries.filterMap fun (place, entry) =>
    match entry with
    | .file data => if place.isBelow then some (place.foldl Path.join "", data) else none
    | .directory => none

theorem get?_put_self (tree : FileTree) {place : Place} (entry : FileEntry) (h : place.isAbove = false) :
    (tree.put place entry).get? place = some entry := by
  simp [get?, put, h]

end FileTree

/-- A terminal in memory: its working directory, and what was printed on it. -/
structure Terminal where
  tree : FileTree
  printed : String

namespace Terminal

/-- Changes the tree, unless that is refused. -/
def change (f : FileTree → Except SystemError FileTree) : StateM Terminal (Except SystemError Unit) :=
  fun terminal =>
    match f terminal.tree with
    | .ok tree => (.ok (), { terminal with tree })
    | .error error => (.error error, terminal)

/-- A terminal as a file system. -/
def fileSystem : FileSystem (StateM Terminal) where
  read path := return (← get).tree.read path
  isDirectory path := return (← get).tree.isDirectory path
  isSame path other := return (← get).tree.isSame path other
  makeDirectory path := change (·.makeDirectory path)
  write path data := change (·.write path data)
  walk path := return (← get).tree.walk path
  print text := modify fun terminal => { terminal with printed := terminal.printed ++ text }

end Terminal

end Playprint
