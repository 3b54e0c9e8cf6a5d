import Playprint.Bytes
import Playprint.Files.Path

/-!
What a tool can ask of the files around it. A file system is given by what it answers, so that a tool runs
in the same way over real files and over a tree of files in memory.
-/

namespace Playprint

/-- Why the files around a tool refuse something. -/
structure SystemError where
  reason : String
  code : Nat
  deriving DecidableEq

namespace SystemError

/-- The error as a report tells it. -/
def message (error : SystemError) : String :=
  s!"{error.reason} (os error {error.code})"

/-- A path leads nowhere. -/
def missing : SystemError := ⟨"No such file or directory", 2⟩
/-- What is to be made is there already. -/
def present : SystemError := ⟨"File exists", 17⟩
/-- Something that is no file is to be mapped. -/
def noDevice : SystemError := ⟨"No such device", 19⟩
/-- A path goes through something that is no directory. -/
def notDirectory : SystemError := ⟨"Not a directory", 20⟩
/-- A directory is to be read or written like a file. -/
def isDirectory : SystemError := ⟨"Is a directory", 21⟩
/-- A name or a whole path has too many bytes. -/
def longName : SystemError := ⟨"File name too long", 36⟩

end SystemError

/-- Files and directories under paths, and a place to print. -/
structure FileSystem (m : Type → Type) where
  read : String → m (Except SystemError Bytes)
  isDirectory : String → m Bool
  /-- Whether two paths lead to the same file. -/
  isSame : String → String → m Bool
  /-- Makes a directory where nothing is. -/
  makeDirectory : String → m (Except SystemError Unit)
  /-- Writes a file, in the place of one that is there. -/
  write : String → Bytes → m (Except SystemError Unit)
  /-- The paths of all files at or below a path; none if the path leads nowhere. -/
  walk : String → m (List String)
  print : String → m Unit

namespace FileSystem

variable {m : Type → Type} [Monad m]

/-- Makes a directory, unless it is there. -/
def ensureDirectory (files : FileSystem m) (path : String) : m (Except SystemError Unit) := do
  match ← files.makeDirectory path with
  | .error error =>
    if error = .present then
      if ← files.isDirectory path then return .ok ()
    return .error error
  | made => return made

/-- Makes the first of some directories, each of which lies in the next one. Only as many of them are made
as it takes. -/
def ensureChain (files : FileSystem m) : List String → m (Except SystemError Unit)
  | [] => pure (.ok ())
  | path :: above => do
    match ← files.ensureDirectory path with
    | .error error =>
      if error ≠ .missing then return .error error
      match ← ensureChain files above with
      | .error error => return .error error
      | .ok () => files.ensureDirectory path
    | made => return made

/-- Makes a directory and all directories above it, as far as they are not there. -/
def makeDirectories (files : FileSystem m) (path : String) : m (Except SystemError Unit) :=
  files.ensureChain (Path.ancestry path)

end FileSystem

end Playprint
