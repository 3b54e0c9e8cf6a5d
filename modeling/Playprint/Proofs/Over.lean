import Playprint.Proofs.Paired

/-!
Steps that leave one part of the state to others. Two states may be the same but for that part. A step respects
a relation between two such parts if from states with related parts it comes to the same answer or failure, and
to such states again. A step that neither looks at the part nor changes it respects every relation; what steps
on the part itself respect depends on the relation.
-/

namespace Playprint.Step

variable {ε ε' σ τ γ α β : Type}

/-- Two states that are the same but for one part, in which they are related. -/
def Over (put : γ → σ → σ) (R : γ → γ → Prop) (s t : σ) : Prop :=
  ∃ base one other, R one other ∧ s = put one base ∧ t = put other base

/-- From two states that are the same but for one part the step comes to the same end. -/
def Respects (put : γ → σ → σ) (R : γ → γ → Prop) (step : Step ε σ α) : Prop :=
  Paired (Over put R) (Same (Over put R)) (Over put R) step step

section

variable {put : γ → σ → σ} {R Q E : γ → γ → Prop}

theorem Over.mono {s t : σ} (h : Over put R s t) (himp : ∀ one other, R one other → Q one other) :
    Over put Q s t := by
  obtain ⟨base, one, other, hone, rfl, rfl⟩ := h
  exact ⟨base, one, other, himp one other hone, rfl, rfl⟩

/-- What is known beside the parts. -/
theorem Over.and {P : Prop} {s t : σ} (h : Over put (fun one other => P ∧ R one other) s t) :
    P ∧ Over put R s t := by
  obtain ⟨base, one, other, ⟨hp, hone⟩, rfl, rfl⟩ := h
  exact ⟨hp, base, one, other, hone, rfl, rfl⟩

/-- Steps on the part itself. -/
theorem Paired.over_part {part : σ → γ} {S : α → β → γ → γ → Prop} {first : Step ε γ α} {second : Step ε γ β}
    (h : Paired R S E first second) (hpart : ∀ one base, part (put one base) = one)
    (hput : ∀ one other base, put one (put other base) = put one base) :
    Paired (Over put R) (fun a b => Over put (S a b)) (Over put E) (first.on part put)
      (second.on part put) := by
  rintro _ _ ⟨base, one, other, hone, rfl, rfl⟩
  refine Paired.on (E := E) (S := S) ?_ ?_ ?_
  · rw [hpart, hpart]
    exact h one other hone
  · intro a b left left' hleft
    exact ⟨base, left, left', hleft, hput .., hput ..⟩
  · intro left left' hleft
    exact ⟨base, left, left', hleft, hput .., hput ..⟩

namespace Respects

variable {step : Step ε σ α}

theorem pure (a : α) : Respects put R (Pure.pure a : Step ε σ α) := Paired.pure fun _ _ h => ⟨rfl, h⟩

theorem throw (e : ε) : Respects put R (MonadExcept.throw e : Step ε σ α) := Paired.throw e fun _ _ => id

theorem bind {next : α → Step ε σ β} (h : Respects put R step) (hnext : ∀ a, Respects put R (next a)) :
    Respects put R (step >>= next) :=
  h.bind_same hnext

/-- What follows a look at the state may not depend on the part. -/
theorem get_bind {next : σ → Step ε σ α} (hsame : ∀ one base, next (put one base) = next base)
    (hnext : ∀ base, Respects put R (next base)) : Respects put R (MonadState.get >>= next) := by
  apply Paired.get_bind
  rintro _ _ ⟨base, one, other, hone, rfl, rfl⟩
  rw [hsame, hsame]
  exact hnext base _ _ ⟨base, one, other, hone, rfl, rfl⟩

theorem modify {f : σ → σ} (h : ∀ one base, f (put one base) = put one (f base)) :
    Respects put R (modify f : Step ε σ PUnit) := by
  apply Paired.modify
  rintro _ _ ⟨base, one, other, hone, rfl, rfl⟩
  exact ⟨rfl, f base, one, other, hone, h .., h ..⟩

theorem states (h : Respects put R step) :
    Paired (Over put R) (fun _ _ => Over put R) (Over put R) step step :=
  h.mono (fun _ _ => id) (fun _ _ _ _ hleft => hleft.2) fun _ _ => id

theorem mapError {f : ε → ε'} (h : Respects put R step) : Respects put R (step.mapError f) :=
  Paired.mapError h

theorem closing {close : Step ε σ Unit} (h : Respects put R step) (hclose : Respects put R close) :
    Respects put R (step.closing close) :=
  h.closing_same hclose

theorem onFailure {repair : σ → σ} (h : Respects put R step)
    (hrepair : ∀ one base, repair (put one base) = put one (repair base)) :
    Respects put R (step.onFailure repair) := by
  apply Paired.onFailure h
  rintro _ _ ⟨base, one, other, hone, rfl, rfl⟩
  exact ⟨repair base, one, other, hone, hrepair .., hrepair ..⟩

/-- A step on another part of the state. -/
theorem on_apart {part : σ → τ} {put' : τ → σ → σ} (step : Step ε τ α)
    (hpart : ∀ one base, part (put one base) = part base)
    (hput : ∀ left one base, put' left (put one base) = put one (put' left base)) :
    Respects put R (step.on part put') := by
  rintro _ _ ⟨base, one, other, hone, rfl, rfl⟩
  have hleft : Over put R (put' (step.outcome (part base)).2 (put one base))
      (put' (step.outcome (part base)).2 (put other base)) :=
    ⟨_, one, other, hone, hput .., hput ..⟩
  rw [outcome_on, outcome_on, hpart, hpart]
  rcases hstep : step.outcome (part base) with ⟨e | a, left⟩ <;> rw [hstep] at hleft
  · exact .error hleft
  · exact .ok ⟨rfl, hleft⟩

/-- A step on a larger part of the state that contains the part. -/
theorem on_around {part : σ → τ} {put' : τ → σ → σ} {inner : γ → τ → τ} {step : Step ε τ α}
    (h : Respects inner R step) (hpart : ∀ one base, part (put one base) = inner one (part base))
    (hput : ∀ left one other base, put' (inner one left) (put other base) = put one (put' left base)) :
    Respects put R (step.on part put') := by
  rintro _ _ ⟨base, one, other, hone, rfl, rfl⟩
  refine Paired.on (E := Over inner R) (S := Same (Over inner R)) ?_ ?_ ?_
  · rw [hpart, hpart]
    exact h _ _ ⟨part base, one, other, hone, rfl, rfl⟩
  · rintro a b _ _ ⟨rfl, left, last, last', hlast, rfl, rfl⟩
    exact ⟨rfl, put' left base, last, last', hlast, hput .., hput ..⟩
  · rintro _ _ ⟨left, last, last', hlast, rfl, rfl⟩
    exact ⟨put' left base, last, last', hlast, hput .., hput ..⟩

theorem forEach {items : List β} {step : β → Step ε σ Unit} (h : ∀ item, Respects put R (step item)) :
    Respects put R (Step.forEach items step) := by
  induction items with
  | nil => exact pure ()
  | cons item rest ih => exact (h item).bind fun _ => ih

end Respects

end

end Playprint.Step
