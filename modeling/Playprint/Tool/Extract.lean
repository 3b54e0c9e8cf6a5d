import Playprint.Files.Path
import Playprint.Tool.Arguments
import Playprint.Tool.Failure

/-!
The tool that takes containers apart: each chunk that the table of contents points at becomes a file.
-/

namespace Playprint.Tool.Extract

/-- What the tool is asked. -/
structure Options where
  playprints : List String
  /-- The directory to search when no containers are named. -/
  root : Option String
  destination : String
  /-- The table entries to extract; all of them when none are named. -/
  indices : List Nat

/-- The options the tool knows. -/
def switches : List Switch :=
  [⟨"playprint", .repeated⟩, ⟨"root", .single⟩, ⟨"dest", .single⟩, ⟨"index", .repeated⟩]

/-- Reads the command line. Containers are named or searched for, not both. -/
def Options.ofLine? (line : List String) : Option Options := do
  let arguments ← Arguments.ofLine? switches 0 line
  if arguments.has "playprint" && arguments.has "root" then none
  return {
    playprints := ← (arguments.all "playprint").mapM Arguments.path?
    root := ← (arguments.one? "root").mapM Arguments.path?
    destination := ← Arguments.path? ((arguments.one? "dest").getD "extracted")
    indices := ← (arguments.all "index").mapM Arguments.index? }

/-- Whether a path has the extension of containers, in any case. -/
def namesContainer (path : String) : Bool :=
  (Path.extension? path).map String.toLower == some "dpp"

/-- The containers to take apart, each once and in the order of their paths. -/
def inputs {m : Type → Type} [Monad m] (files : FileSystem m) (options : Options) :
    m (List String) := do
  match options.playprints, options.root with
  | [], some root => return Path.sorted ((← files.walk root).filter namesContainer)
  | named, _ => return Path.sorted named

/-! ### What is extracted -/

/-- A table entry, and the chunk it points at. -/
structure Part where
  index : Nat
  chunk : Chunk

namespace Part

/-- The part at a table index, when the entry points at one of the chunks. -/
def at? (container : Container) (chunks : List Chunk) (index : Nat) : Option Part :=
  match ((Container.tocOffset index).outcome container).1 with
  | .ok offset => (chunks.find? fun chunk => chunk.start = offset).map (⟨index, ·⟩)
  | .error _ => none

/-- The payload of the part. -/
def payload (part : Part) (container : Container) : Except FormatError Bytes :=
  ((Container.readChunkAt part.index part.chunk.tag).outcome container).1

/-- The tag as file names have it: without blanks around it, and with no signs in it. -/
def tagName (tag : Tag) : String :=
  let trimmed := (tag.text.toList.dropWhile (· = ' ')).reverse.dropWhile (· = ' ')
  String.ofList (trimmed.reverse.map fun c => if c.isAlphanum then c else '_')

/-- The name of the file for the part. -/
def fileName (part : Part) : String :=
  let number := Decimal.padLeft 4 '0' (toString part.index)
  s!"{number}_{tagName part.chunk.tag}.bin"

end Part

/-- The table indices to extract. -/
def wanted (container : Container) (indices : List Nat) : List Nat :=
  if indices = [] then List.range container.tocEntries.length else indices

/-- The parts to extract. Entries that point at no chunk are passed over. -/
def parts (container : Container) (chunks : List Chunk) (indices : List Nat) : List Part :=
  (wanted container indices).filterMap (Part.at? container chunks)

/-- The directory for the parts of a container: it has the name of the file without extension. -/
def directoryFor (destination path : String) : String :=
  Path.join destination ((Path.stem? path).getD "playprint")

/-! ### Extracting -/

variable {m : Type → Type} [Monad m]

/-- The container after data was written to a path, which may lead to the file of the container. -/
def afterWrite (files : FileSystem m) (container : Container) (path : String) (data : Bytes) :
    m Container := do
  match container.path with
  | some own => return if ← files.isSame path own then container.overwrite data else container
  | none => return container

/-- Writes parts into a directory, one after another. -/
def writeParts (files : FileSystem m) (container : Container) (directory : String) :
    List Part → Action m Unit
  | [] => pure ()
  | part :: rest => do
    let payload ← settle ((part.payload container).mapError fun error =>
      (Failure.ofFormat error).during s!"reading TOC entry {part.index}")
    let path := Path.join directory part.fileName
    attempt s!"writing {path}" (files.write path payload)
    let container ← ExceptT.lift (afterWrite files container path payload)
    writeParts files container directory rest

/-- Takes a container apart. -/
def extract (files : FileSystem m) (options : Options) (path : String) : Action m Unit := do
  let container ← openContainer files path
  let directory := directoryFor options.destination path
  attempt s!"creating {directory}" (files.makeDirectories directory)
  let chunks ← settle ((Container.topLevelChunks.outcome container).1.mapError Failure.ofFormat)
  let parts := parts container chunks options.indices
  writeParts files container directory parts
  files.print s!"Extracted {parts.length} chunks from {path} into {directory}\n"

/-- Takes containers apart, one after another. -/
def extractAll (files : FileSystem m) (options : Options) : List String → Action m Unit
  | [] => pure ()
  | path :: rest => do
    extract files options path
    extractAll files options rest

/-- Runs the tool. -/
def run (files : FileSystem m) (options : Options) : Action m Unit := do
  let paths ← ExceptT.lift (inputs files options)
  if paths = [] then throw (.plain "no Playprints to extract")
  attempt s!"creating destination {options.destination}" (files.makeDirectories options.destination)
  extractAll files options paths

end Playprint.Tool.Extract
