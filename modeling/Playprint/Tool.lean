import Playprint.Tool.Dump
import Playprint.Tool.Extract
import Playprint.Tool.Load

/-!
The tools by name, and how a run of one ends.
-/

namespace Playprint

/-- The tools. -/
inductive Tool
  | dump
  | extract
  | load

/-- How a run ends: with an exit code, and with what it complains of. -/
structure Ending where
  code : UInt32
  complaint : String

namespace Tool

/-- The tool of a name. -/
def ofName? : String → Option Tool
  | "pp_dump" => some .dump
  | "pp_extract" => some .extract
  | "mle_load" => some .load
  | _ => none

variable {m : Type → Type} [Monad m]

/-- What a tool does on a command line, unless it rejects that. -/
def action? (files : FileSystem m) (line : List String) : Tool → Option (Action m Unit)
  | dump => (Dump.Options.ofLine? line).map (Dump.run files)
  | extract => (Extract.Options.ofLine? line).map (Extract.run files)
  | load => (Load.Options.ofLine? line).map (Load.run files)

/-- Runs a tool to its end. -/
def run (files : FileSystem m) (line : List String) (tool : Tool) : m Ending :=
  match tool.action? files line with
  | none => pure ⟨2, ""⟩
  | some action => do
    match ← action.run with
    | .ok () => return ⟨0, ""⟩
    | .error failure => return ⟨1, failure.report⟩

end Tool

end Playprint
