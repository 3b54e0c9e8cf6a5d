import Playprint.Error
import Playprint.Proofs.Step

/-!
Programs of a caller. A caller runs operations on a state one after another, and what it does next may
depend on everything it has seen. Some operations take a body of the caller's, which is a program again and
runs in a scope. A run lists what was seen: every answer, with the position of the state after it.
-/

namespace Playprint

/-- The operations that a state offers to its callers. -/
structure Interface (σ : Type) where
  Operation : Type
  Answer : Operation → Type
  run : (operation : Operation) → Step FormatError σ (Answer operation)
  /-- The operations that run a body of the caller's. -/
  Scope : Type
  /-- What a body is given. -/
  Inner : Scope → Type
  enter : (scope : Scope) → {α : Type} → (Inner scope → Step FormatError σ α) → Step FormatError σ α
  position : Step FormatError σ Nat

variable {σ : Type}

/-- What a caller sees, and the position at that moment. -/
inductive Event (I : Interface σ)
  | answered (operation : I.Operation) (answer : I.Answer operation) (pos : Nat)
  | entered (scope : I.Scope) (inner : I.Inner scope) (pos : Nat)
  | left (pos : Nat)

/-- A program of a caller. -/
inductive Program (I : Interface σ)
  | stop
  | call (operation : I.Operation) (next : I.Answer operation → Program I)
  /-- Runs a body in a scope, and goes on with what was seen there. -/
  | within (scope : I.Scope) (body : I.Inner scope → Program I) (next : List (Event I) → Program I)

namespace Program

variable {I : Interface σ}

/-- Runs a program to its end, or to the first operation that fails; answers what was seen. -/
def run : Program I → Step FormatError σ (List (Event I))
  | stop => pure []
  | call operation next => do
    let answer ← I.run operation
    let pos ← I.position
    let later ← (next answer).run
    return .answered operation answer pos :: later
  | within scope body next => do
    let seen ← I.enter scope fun inner => do
      let pos ← I.position
      let seen ← (body inner).run
      return .entered scope inner pos :: seen
    let pos ← I.position
    let later ← (next seen).run
    return seen ++ .left pos :: later

end Program

/-- No success of an operation is lost under a change of the state. -/
structure Interface.Survives (f : σ → σ) (I : Interface σ) : Prop where
  run : ∀ operation, Step.Survives f (I.run operation)
  enter : ∀ scope {α : Type} {body : I.Inner scope → Step FormatError σ α},
    (∀ inner, Step.Survives f (body inner)) → Step.Survives f (I.enter scope body)
  position : Step.Survives f I.position

/-- What holds of the operations holds of all programs. -/
theorem Program.survives_run {f : σ → σ} {I : Interface σ} (h : I.Survives f) (program : Program I) :
    Step.Survives f program.run := by
  induction program with
  | stop => exact .pure []
  | call operation next ih =>
      exact (h.run operation).bind fun answer => h.position.bind fun _ => (ih answer).bind fun _ => .pure _
  | within scope body next ihbody ihnext =>
      have hbody := h.enter scope fun inner =>
        h.position.bind fun pos => (ihbody inner).bind fun seen =>
          Step.Survives.pure (Event.entered scope inner pos :: seen)
      exact hbody.bind fun seen => h.position.bind fun _ => (ihnext seen).bind fun _ => .pure _

end Playprint
