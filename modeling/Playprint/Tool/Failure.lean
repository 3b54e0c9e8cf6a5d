import Playprint.Container
import Playprint.Files.System
import Playprint.Object
import Playprint.Text.Decimal

/-!
How a tool fails. A failure is told from the outside in: what was to be done, then why it could not be done,
and what that rests on.
-/

namespace Playprint.Tool

/-- Why a tool gave up. -/
structure Failure where
  headline : String
  causes : List String

namespace Failure

/-- The failure without causes. -/
def plain (headline : String) : Failure := ⟨headline, []⟩

/-- The failure as the cause of a larger one. -/
def during (headline : String) (failure : Failure) : Failure :=
  ⟨headline, failure.headline :: failure.causes⟩

/-- The failure of a container. -/
def ofFormat (error : FormatError) : Failure :=
  ⟨error.message, error.cause?.toList⟩

/-- The failure of a loader. -/
def ofLoad (error : LoadError) : Failure :=
  ⟨error.message, error.cause?.toList⟩

/-- The failure of the files around the tool. -/
def ofSystem (error : SystemError) : Failure :=
  plain error.message

/-- Text with blanks after each line break. -/
def hang (width : Nat) (text : String) : String :=
  String.ofList (text.toList.flatMap fun c =>
    if c = '\n' then c :: List.replicate width ' ' else [c])

/-- The causes of a failure as its report lists them; several are numbered from the outside in. -/
def listCauses : List String → String
  | [] => ""
  | [cause] => "\n\nCaused by:\n    " ++ hang 4 cause
  | causes =>
    "\n\nCaused by:" ++ String.join (causes.mapIdx fun index cause =>
      "\n" ++ Decimal.padLeft 5 ' ' (toString index) ++ ": " ++ hang 7 cause)

/-- The report of a failure. -/
def report (failure : Failure) : String :=
  "Error: " ++ failure.headline ++ listCauses failure.causes ++ "\n"

end Failure

/-- What a tool does: it acts on the files around it, and may fail. -/
abbrev Action (m : Type → Type) := ExceptT Failure m

section

variable {m : Type → Type} [Monad m] {α : Type}

/-- Does something with the files around the tool, as a part of what the headline tells. -/
def attempt (headline : String) (action : m (Except SystemError α)) : Action m α := do
  let answer ← ExceptT.lift action
  ExceptT.mk (pure (answer.mapError fun error => (Failure.ofSystem error).during headline))

/-- An answer or a failure that is already there. -/
def settle (answer : Except Failure α) : Action m α :=
  ExceptT.mk (pure answer)

/-- The container that the data of a file holds. A directory can be opened, but not mapped. -/
def containerOf (path : String) : Except SystemError Bytes → Except FormatError Container
  | .ok data => Container.openFile path data
  | .error error =>
    if error = .isDirectory then
      .error (.io .mappingContainer (.system SystemError.noDevice.message))
    else .error (.io .openingContainer (.system error.message))

/-- Opens the container in a file. -/
def openContainer (files : FileSystem m) (path : String) : Action m Container := do
  let answer ← ExceptT.lift (files.read path)
  settle ((containerOf path answer).mapError fun error =>
    (Failure.ofFormat error).during s!"opening Playprint {path}")

end

end Playprint.Tool
