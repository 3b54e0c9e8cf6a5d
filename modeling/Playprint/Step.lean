/-!
Steps: computations over a state that answer or fail, and in both cases say which state they leave.
Reading a container, replaying byte code and loading a title are all steps, because a failure in the
middle of one leaves a position, an object or a log entry behind that later steps meet.
-/

namespace Playprint

/-- A computation over a state `σ` that answers with an `α` or fails with an `ε`. -/
abbrev Step (ε σ : Type) := ExceptT ε (StateM σ)

namespace Step

variable {ε ε' σ τ α β : Type}

/-- Runs a step: its outcome, and the state it leaves. -/
def outcome (step : Step ε σ α) (state : σ) : Except ε α × σ :=
  (ExceptT.run step).run state

/-- The step that behaves as a given function of the state. -/
def of (run : σ → Except ε α × σ) : Step ε σ α :=
  ExceptT.mk (fun state => run state)

/-- The same step under another account of its failures. -/
def mapError (f : ε → ε') (step : Step ε σ α) : Step ε' σ α :=
  of fun state => (step.outcome state).map (·.mapError f) id

/-- Runs a step on a part of the state. -/
def on (part : σ → τ) (put : τ → σ → σ) (step : Step ε τ α) : Step ε σ α :=
  of fun state => (step.outcome (part state)).map id (put · state)

/-- Runs `close` after `body`, whatever `body` came to. A failure of `close` is reported first. -/
def closing (body : Step ε σ α) (close : Step ε σ Unit) : Step ε σ α :=
  of fun state =>
    let (answer, inner) := body.outcome state
    match close.outcome inner with
    | (.error e, left) => (.error e, left)
    | (.ok (), left) => (answer, left)

/-- Runs `repair` on the state a failing `body` leaves; the failure stays. -/
def onFailure (body : Step ε σ α) (repair : σ → σ) : Step ε σ α :=
  of fun state =>
    match body.outcome state with
    | (.error e, left) => (.error e, repair left)
    | done => done

/-- A step that only changes the state, and cannot fail. -/
def update (f : σ → σ) : Step ε σ Unit :=
  of fun state => (.ok (), f state)

/-- An answer or a failure that does not touch the state. -/
def ofExcept (answer : Except ε α) : Step ε σ α :=
  of fun state => (answer, state)

/-- Repeats a step `count` times, or until it fails, and collects the answers. -/
def times (step : Step ε σ α) : Nat → Step ε σ (List α)
  | 0 => pure []
  | count + 1 => do
    let first ← step
    let rest ← times step count
    pure (first :: rest)

/-- Runs a step for each item in turn, until one fails. -/
def forEach (items : List β) (step : β → Step ε σ Unit) : Step ε σ Unit :=
  match items with
  | [] => pure ()
  | item :: rest => do
    step item
    forEach rest step

@[simp] theorem outcome_of (run : σ → Except ε α × σ) (state : σ) :
    (of run).outcome state = run state := rfl

@[simp] theorem outcome_pure (a : α) (state : σ) :
    (pure a : Step ε σ α).outcome state = (.ok a, state) := rfl

@[simp] theorem outcome_throw (e : ε) (state : σ) :
    (throw e : Step ε σ α).outcome state = (.error e, state) := rfl

@[simp] theorem outcome_ofExcept (answer : Except ε α) (state : σ) :
    (ofExcept answer : Step ε σ α).outcome state = (answer, state) := rfl

@[simp] theorem outcome_update (f : σ → σ) (state : σ) :
    (update f : Step ε σ Unit).outcome state = (.ok (), f state) := rfl

@[simp] theorem outcome_get (state : σ) :
    (get : Step ε σ σ).outcome state = (.ok state, state) := rfl

@[simp] theorem outcome_set (next state : σ) :
    (set next : Step ε σ PUnit).outcome state = (.ok ⟨⟩, next) := rfl

/-- A sequence runs its second step from the state and the answer of the first, unless that failed. -/
theorem outcome_bind (first : Step ε σ α) (next : α → Step ε σ β) (state : σ) :
    (first >>= next).outcome state =
      match first.outcome state with
      | (.ok a, left) => (next a).outcome left
      | (.error e, left) => (.error e, left) := by
  simp only [outcome, bind, ExceptT.bind, ExceptT.run, ExceptT.mk, StateT.run, StateT.bind]
  generalize first state = r
  obtain ⟨r, left⟩ := r
  cases r <;> rfl

@[simp] theorem outcome_on (part : σ → τ) (put : τ → σ → σ) (step : Step ε τ α) (state : σ) :
    (on part put step).outcome state =
      ((step.outcome (part state)).1, put (step.outcome (part state)).2 state) := rfl

end Step

end Playprint
