import Playprint.Tool

/-!
The command line: the name of a tool, then its arguments.
-/

namespace Playprint

/-- The failures with a wording of their own, whatever the machine says of them. -/
def SystemError.known : List SystemError :=
  [missing, present, noDevice, notDirectory, isDirectory, longName, ⟨"Permission denied", 13⟩]

/-- The failure of a number, which the machine may give with a minus sign. -/
def SystemError.ofNumber (number : UInt32) (details : String) : SystemError :=
  let code := min number.toNat (-number).toNat
  (known.find? (·.code = code)).getD ⟨details, code⟩

/-- The account that real files give of a failure. -/
def SystemError.ofIO : IO.Error → SystemError
  | .alreadyExists _ number details | .inappropriateType _ number details
  | .invalidArgument _ number details | .noFileOrDirectory _ number details
  | .noSuchThing _ number details | .permissionDenied _ number details
  | .resourceExhausted _ number details | .unsatisfiedConstraints number details
  | .otherError number details => ofNumber number details
  | error => ⟨toString error, 5⟩

/-- What an action on real files comes to. -/
def attemptReal {α : Type} (action : IO α) : IO (Except SystemError α) := do
  match ← action.toBaseIO with
  | .ok a => return .ok a
  | .error error => return .error (.ofIO error)

/-- The paths of all files at or below a path. Links below it are not followed. What cannot be looked at, as
its path is too long, is taken for a file. -/
partial def walkReal (path : String) : IO (List String) := do
  let file := System.mkFilePath [path]
  if ← file.isDir then
    let entries ← try file.readDir catch _ => pure #[]
    let below ← entries.toList.mapM fun entry => do
      let inner := Path.join path entry.fileName
      match ← (System.mkFilePath [inner]).symlinkMetadata.toBaseIO with
      | .ok known =>
        match known.type with
        | .dir => walkReal inner
        | .file => return [inner]
        | _ => return []
      | .error _ => return [inner]
    return below.flatten
  else if ← file.pathExists then return [path]
  else return []

/-- The real files. -/
def realFiles : FileSystem IO where
  read path := attemptReal ((·.data.toList) <$> IO.FS.readBinFile path)
  isDirectory path := (System.mkFilePath [path]).isDir
  isSame path other := do
    try return (← IO.FS.realPath path) == (← IO.FS.realPath other) catch _ => return false
  makeDirectory path := attemptReal (IO.FS.createDir path)
  write path data := attemptReal (IO.FS.writeBinFile path ⟨data.toArray⟩)
  walk := walkReal
  print text := do (← IO.getStdout).putStr text

end Playprint

/-- Runs the tool that the first argument names on the rest of the command line. -/
def main (arguments : List String) : IO UInt32 := do
  let some tool := arguments.head?.bind Playprint.Tool.ofName? | return 2
  let ending ← tool.run Playprint.realFiles (arguments.drop 1)
  IO.eprint ending.complaint
  return ending.code
