import Playprint.Proofs.Step

/-!
Steps that keep an invariant of the state. Such a step keeps it whether it answers or fails, and what it answers
has a property of its own, on which the steps after it can rely.
-/

namespace Playprint.Step

variable {ε ε' σ τ α β : Type} {I : σ → Prop} {A : α → Prop} {B : β → Prop}

/-- From a state with the invariant the step leaves another one, and what it answers has the property. -/
def Keeps (I : σ → Prop) (A : α → Prop) (step : Step ε σ α) : Prop :=
  ∀ state, I state → I (step.outcome state).2 ∧ ∀ a, (step.outcome state).1 = .ok a → A a

namespace Keeps

theorem trivially (step : Step ε σ α) : Keeps (fun _ => True) (fun _ => True) step :=
  fun _ _ => ⟨trivial, fun _ _ => trivial⟩

theorem pure {a : α} (h : A a) : Keeps I A (Pure.pure a : Step ε σ α) := by
  intro state hstate
  refine ⟨hstate, ?_⟩
  rintro _ ⟨⟩
  exact h

theorem throw (e : ε) : Keeps I A (MonadExcept.throw e : Step ε σ α) := by
  intro state hstate
  refine ⟨hstate, ?_⟩
  rintro _ ⟨⟩

theorem ofExcept {answer : Except ε α} (h : ∀ a, answer = .ok a → A a) :
    Keeps I A (Step.ofExcept answer : Step ε σ α) :=
  fun _ hstate => ⟨hstate, h⟩

theorem get : Keeps I I (MonadState.get : Step ε σ σ) := by
  intro state hstate
  refine ⟨hstate, ?_⟩
  rintro _ ⟨⟩
  exact hstate

theorem set {next : σ} (h : I next) : Keeps I (fun _ => True) (MonadStateOf.set next : Step ε σ PUnit) :=
  fun _ _ => ⟨h, fun _ _ => trivial⟩

theorem modify {f : σ → σ} (h : ∀ state, I state → I (f state)) :
    Keeps I (fun _ => True) (modify f : Step ε σ PUnit) :=
  fun state hstate => ⟨h state hstate, fun _ _ => trivial⟩

theorem bind {first : Step ε σ α} {next : α → Step ε σ β} (hfirst : Keeps I A first)
    (hnext : ∀ a, A a → Keeps I B (next a)) : Keeps I B (first >>= next) := by
  intro state hstate
  obtain ⟨hleft, hanswer⟩ := hfirst state hstate
  rcases hmid : first.outcome state with ⟨e | a, mid⟩ <;> rw [hmid] at hleft hanswer
  · rw [outcome_bind_error hmid]
    refine ⟨hleft, ?_⟩
    rintro _ ⟨⟩
  · rw [outcome_bind_ok hmid]
    exact hnext a (hanswer a rfl) mid hleft

theorem mapError {step : Step ε σ α} (f : ε → ε') (h : Keeps I A step) : Keeps I A (step.mapError f) :=
  fun state hstate => ⟨(h state hstate).1, fun a ha => (h state hstate).2 a (mapError_eq_ok_iff.mp ha)⟩

/-- A step on a part of the state keeps what is asked of the whole, if that only asks what it keeps of the part. -/
theorem on {J : τ → Prop} {part : σ → τ} {put : τ → σ → σ} {step : Step ε τ α} (h : Keeps J A step)
    (hpart : ∀ state, I state → J (part state)) (hput : ∀ left state, J left → I state → I (put left state)) :
    Keeps I A (step.on part put) := by
  intro state hstate
  obtain ⟨hleft, hanswer⟩ := h (part state) (hpart state hstate)
  exact ⟨hput _ state hleft hstate, hanswer⟩

theorem closing {body : Step ε σ α} {close : Step ε σ Unit} (hbody : Keeps I A body)
    (hclose : Keeps I (fun _ => True) close) : Keeps I A (body.closing close) := by
  intro state hstate
  obtain ⟨hinner, hanswer⟩ := hbody state hstate
  have hleft := (hclose _ hinner).1
  simp only [Step.closing, outcome_of]
  rcases hlast : close.outcome (body.outcome state).2 with ⟨e | _, last⟩ <;> rw [hlast] at hleft
  · refine ⟨hleft, ?_⟩
    rintro _ ⟨⟩
  · exact ⟨hleft, hanswer⟩

theorem onFailure {body : Step ε σ α} {repair : σ → σ} (hbody : Keeps I A body)
    (hrepair : ∀ state, I state → I (repair state)) : Keeps I A (body.onFailure repair) := by
  intro state hstate
  obtain ⟨hinner, hanswer⟩ := hbody state hstate
  rcases hdone : body.outcome state with ⟨e | a, inner⟩ <;> rw [hdone] at hinner hanswer
  · rw [outcome_onFailure_error hdone]
    refine ⟨hrepair inner hinner, ?_⟩
    rintro _ ⟨⟩
  · rw [outcome_onFailure_ok hdone]
    exact ⟨hinner, hanswer⟩

end Keeps

end Playprint.Step
