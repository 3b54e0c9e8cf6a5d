import Playprint.Proofs.Step

/-!
Two steps side by side. From states that are related in one way both answer, and their answers and the
states they leave are related again, or both fail for the same cause. The rules are those of one step at a
time; only where a step looks at its state must the two states be compared.
-/

namespace Playprint.Step

variable {ε ε' σ σ' τ τ' α α' β β' γ : Type}

/-- The ends of two runs: both have answered, or both have failed for the same cause. -/
inductive Matched (S : α → β → σ → τ → Prop) (E : σ → τ → Prop) :
    Except ε α × σ → Except ε β × τ → Prop
  | ok {a : α} {b : β} {s : σ} {t : τ} (h : S a b s t) : Matched S E (.ok a, s) (.ok b, t)
  | error {e : ε} {s : σ} {t : τ} (h : E s t) : Matched S E (.error e, s) (.error e, t)

/-- From states related by `R` two steps come to matching ends. -/
def Paired (R : σ → τ → Prop) (S : α → β → σ → τ → Prop) (E : σ → τ → Prop) (first : Step ε σ α)
    (second : Step ε τ β) : Prop :=
  ∀ s t, R s t → Matched S E (first.outcome s) (second.outcome t)

/-- Equal answers, with the states related. -/
def Same (R : σ → τ → Prop) (a b : α) (s : σ) (t : τ) : Prop :=
  a = b ∧ R s t

theorem Matched.mono {S T : α → β → σ → τ → Prop} {E F : σ → τ → Prop} {first : Except ε α × σ}
    {second : Except ε β × τ} (h : Matched S E first second)
    (hok : ∀ a b s t, S a b s t → T a b s t) (herror : ∀ s t, E s t → F s t) :
    Matched T F first second := by
  cases h with
  | ok h => exact .ok (hok _ _ _ _ h)
  | error h => exact .error (herror _ _ h)

/-- Less may be known of the states after a failure. -/
theorem Matched.failing {S : α → β → σ → τ → Prop} {E F : σ → τ → Prop} {first : Except ε α × σ}
    {second : Except ε β × τ} (h : Matched S E first second) (herror : ∀ s t, E s t → F s t) :
    Matched S F first second :=
  h.mono (fun _ _ _ _ => id) herror

/-- What is done to both states at the end does not change the answers. -/
theorem Matched.leaving {S : α → β → σ → τ → Prop} {T : α → β → σ' → τ' → Prop} {E : σ → τ → Prop}
    {F : σ' → τ' → Prop} {first : Except ε α × σ} {second : Except ε β × τ} {f : σ → σ'} {g : τ → τ'}
    (h : Matched S E first second) (hok : ∀ a b s t, S a b s t → T a b (f s) (g t))
    (herror : ∀ s t, E s t → F (f s) (g t)) :
    Matched T F (first.1, f first.2) (second.1, g second.2) := by
  cases h with
  | ok h => exact .ok (hok _ _ _ _ h)
  | error h => exact .error (herror _ _ h)

/-- Whatever the ends, their states are related. -/
theorem Matched.states {S : α → β → σ → τ → Prop} {E F : σ → τ → Prop} {first : Except ε α × σ}
    {second : Except ε β × τ} (h : Matched S E first second)
    (hok : ∀ a b s t, S a b s t → F s t) (herror : ∀ s t, E s t → F s t) : F first.2 second.2 := by
  cases h with
  | ok h => exact hok _ _ _ _ h
  | error h => exact herror _ _ h

theorem Matched.ends {S : α → β → σ → τ → Prop} {E : σ → τ → Prop} {first : Except ε α × σ}
    {second : Except ε β × τ} (h : Matched S E first second) :
    (∃ a b s t, first = (.ok a, s) ∧ second = (.ok b, t) ∧ S a b s t) ∨
      ∃ e s t, first = (.error e, s) ∧ second = (.error e, t) ∧ E s t := by
  cases h with
  | ok h => exact .inl ⟨_, _, _, _, rfl, rfl, h⟩
  | error h => exact .inr ⟨_, _, _, rfl, rfl, h⟩

/-- Where the first run has answered, so has the second. -/
theorem Matched.of_ok {S : α → β → σ → τ → Prop} {E : σ → τ → Prop} {first : Except ε α × σ}
    {second : Except ε β × τ} {a : α} {s : σ} (h : Matched S E first second) (hfirst : first = (.ok a, s)) :
    ∃ b t, second = (.ok b, t) ∧ S a b s t := by
  cases h with
  | ok h =>
      cases hfirst
      exact ⟨_, _, rfl, h⟩
  | error h => cases hfirst

/-- Where the first run has failed, so has the second. -/
theorem Matched.of_error {S : α → β → σ → τ → Prop} {E : σ → τ → Prop} {first : Except ε α × σ}
    {second : Except ε β × τ} {e : ε} {s : σ} (h : Matched S E first second) (hfirst : first = (.error e, s)) :
    ∃ t, second = (.error e, t) ∧ E s t := by
  cases h with
  | ok h => cases hfirst
  | error h =>
      cases hfirst
      exact ⟨_, rfl, h⟩

theorem Matched.bind {S : α → β → σ → τ → Prop} {T : α' → β' → σ → τ → Prop} {E : σ → τ → Prop}
    {first : Step ε σ α} {second : Step ε τ β} {next : α → Step ε σ α'} {next' : β → Step ε τ β'}
    {s : σ} {t : τ} (h : Matched S E (first.outcome s) (second.outcome t))
    (hnext : ∀ a b, Paired (S a b) T E (next a) (next' b)) :
    Matched T E ((first >>= next).outcome s) ((second >>= next').outcome t) := by
  rw [outcome_bind, outcome_bind]
  generalize first.outcome s = one at h ⊢
  generalize second.outcome t = other at h ⊢
  cases h with
  | ok hstates => exact hnext _ _ _ _ hstates
  | error hstates => exact .error hstates

namespace Paired

variable {R : σ → τ → Prop} {S : α → β → σ → τ → Prop} {T : α' → β' → σ → τ → Prop}
  {E F : σ → τ → Prop} {first : Step ε σ α} {second : Step ε τ β}

theorem mono {Q : σ → τ → Prop} {U : α → β → σ → τ → Prop} (h : Paired R S E first second)
    (hpre : ∀ s t, Q s t → R s t) (hok : ∀ a b s t, S a b s t → U a b s t)
    (herror : ∀ s t, E s t → F s t) : Paired Q U F first second :=
  fun s t hst => (h s t (hpre s t hst)).mono hok herror

theorem failing (h : Paired R S E first second) (herror : ∀ s t, E s t → F s t) :
    Paired R S F first second :=
  fun s t hst => (h s t hst).failing herror

/-- A step beside itself. -/
theorem refl (step : Step ε σ α) : Paired Eq (Same Eq) Eq step step := by
  rintro s _ rfl
  rcases step.outcome s with ⟨e | a, left⟩
  · exact .error rfl
  · exact .ok ⟨rfl, rfl⟩

theorem pure {a : α} {b : β} (h : ∀ s t, R s t → S a b s t) :
    Paired R S E (Pure.pure a : Step ε σ α) (Pure.pure b : Step ε τ β) :=
  fun s t hst => .ok (h s t hst)

theorem throw (e : ε) (h : ∀ s t, R s t → E s t) :
    Paired R S E (MonadExcept.throw e : Step ε σ α) (MonadExcept.throw e : Step ε τ β) :=
  fun s t hst => .error (h s t hst)

theorem modify {f : σ → σ} {g : τ → τ} {S : PUnit → PUnit → σ → τ → Prop}
    (h : ∀ s t, R s t → S ⟨⟩ ⟨⟩ (f s) (g t)) :
    Paired R S E (modify f : Step ε σ PUnit) (modify g : Step ε τ PUnit) :=
  fun s t hst => .ok (h s t hst)

theorem ofExcept (answer : Except ε γ) :
    Paired R (Same R) R (Step.ofExcept answer : Step ε σ γ) (Step.ofExcept answer : Step ε τ γ) := by
  intro s t hst
  cases answer with
  | error e => exact .error hst
  | ok a => exact .ok ⟨rfl, hst⟩

theorem bind {next : α → Step ε σ α'} {next' : β → Step ε τ β'} (h : Paired R S E first second)
    (hnext : ∀ a b, Paired (S a b) T E (next a) (next' b)) :
    Paired R T E (first >>= next) (second >>= next') :=
  fun s t hst => (h s t hst).bind hnext

/-- A sequence goes on alike after equal answers. -/
theorem bind_same {first : Step ε σ γ} {second : Step ε τ γ} {Q : σ → τ → Prop}
    {next : γ → Step ε σ α'} {next' : γ → Step ε τ β'} (h : Paired R (Same Q) E first second)
    (hnext : ∀ a, Paired Q T E (next a) (next' a)) :
    Paired R T E (first >>= next) (second >>= next') := by
  apply h.bind
  rintro a b s t ⟨rfl, hst⟩
  exact hnext a s t hst

/-- Steps that look at their states first. -/
theorem get_bind {next : σ → Step ε σ α} {next' : τ → Step ε τ β}
    (h : ∀ s t, R s t → Matched S E ((next s).outcome s) ((next' t).outcome t)) :
    Paired R S E (MonadState.get >>= next) (MonadState.get >>= next') := by
  intro s t hst
  rw [outcome_bind_ok (outcome_get s), outcome_bind_ok (outcome_get t)]
  exact h s t hst

theorem mapError {f : ε → ε'} (h : Paired R S E first second) :
    Paired R S E (first.mapError f) (second.mapError f) := by
  intro s t hst
  have hends := h s t hst
  rw [outcome_mapError, outcome_mapError]
  generalize first.outcome s = one at hends ⊢
  generalize second.outcome t = other at hends ⊢
  cases hends with
  | ok hstates => exact .ok hstates
  | error hstates => exact .error hstates

/-- Steps on parts of two states. -/
theorem on {part : σ' → σ} {put : σ → σ' → σ'} {part' : τ' → τ} {put' : τ → τ' → τ'}
    {s : σ'} {t : τ'} {U : α → β → σ' → τ' → Prop} {V : σ' → τ' → Prop}
    (h : Matched S E (first.outcome (part s)) (second.outcome (part' t)))
    (hok : ∀ a b p q, S a b p q → U a b (put p s) (put' q t))
    (herror : ∀ p q, E p q → V (put p s) (put' q t)) :
    Matched U V ((first.on part put).outcome s) ((second.on part' put').outcome t) := by
  rw [outcome_on, outcome_on]
  generalize first.outcome (part s) = one at h ⊢
  generalize second.outcome (part' t) = other at h ⊢
  cases h with
  | ok hstates => exact .ok (hok _ _ _ _ hstates)
  | error hstates => exact .error (herror _ _ hstates)

/-- Whatever two bodies have come to, they are closed alike. -/
theorem closing {close : Step ε σ Unit} {close' : Step ε τ Unit} {T : α → β → σ → τ → Prop}
    (h : Paired R S E first second)
    (hok : ∀ a b, Paired (S a b) (fun _ _ => T a b) F close close')
    (herror : Paired E (fun _ _ => F) F close close') :
    Paired R T F (first.closing close) (second.closing close') := by
  intro s t hst
  have hends := h s t hst
  rcases hfirst : first.outcome s with ⟨answer, inner⟩
  rcases hsecond : second.outcome t with ⟨answer', inner'⟩
  rw [hfirst, hsecond] at hends
  simp only [Step.closing, outcome_of, hfirst, hsecond]
  cases hends with
  | ok hstates =>
      have hclose := hok _ _ inner inner' hstates
      generalize close.outcome inner = one at hclose ⊢
      generalize close'.outcome inner' = other at hclose ⊢
      cases hclose with
      | ok hleft => exact .ok hleft
      | error hleft => exact .error hleft
  | error hstates =>
      have hclose := herror inner inner' hstates
      generalize close.outcome inner = one at hclose ⊢
      generalize close'.outcome inner' = other at hclose ⊢
      cases hclose with
      | ok hleft => exact .error hleft
      | error hleft => exact .error hleft

/-- Bodies with equal answers, closed by steps that do alike from wherever the bodies end. -/
theorem closing_same {first : Step ε σ γ} {second : Step ε τ γ} {Q : σ → τ → Prop} {close : Step ε σ Unit}
    {close' : Step ε τ Unit} (h : Paired R (Same Q) Q first second)
    (hclose : Paired Q (Same F) F close close') :
    Paired R (Same F) F (first.closing close) (second.closing close') := by
  refine h.closing (fun a b s t hst => ?_) ?_
  · exact (hclose s t hst.2).mono (fun _ _ _ _ hleft => ⟨hst.1, hleft.2⟩) fun _ _ => id
  · exact hclose.mono (fun _ _ => id) (fun _ _ _ _ hleft => hleft.2) fun _ _ => id

theorem onFailure {repair : σ → σ} {repair' : τ → τ} (h : Paired R S E first second)
    (hrepair : ∀ s t, E s t → F (repair s) (repair' t)) :
    Paired R S F (first.onFailure repair) (second.onFailure repair') := by
  intro s t hst
  have hends := h s t hst
  simp only [Step.onFailure, outcome_of]
  generalize first.outcome s = one at hends ⊢
  generalize second.outcome t = other at hends ⊢
  cases hends with
  | ok hstates => exact .ok hstates
  | error hstates => exact .error (hrepair _ _ hstates)

theorem forEach {items : List γ} {step : γ → Step ε σ Unit} {step' : γ → Step ε τ Unit}
    (h : ∀ item, Paired R (fun _ _ => R) E (step item) (step' item)) :
    Paired R (fun _ _ => R) E (Step.forEach items step) (Step.forEach items step') := by
  induction items with
  | nil => exact pure fun _ _ hst => hst
  | cons item rest ih => exact (h item).bind fun _ _ => ih

end Paired

/-! ### Steps that look at nothing -/

/-- A step that neither looks at the state nor changes it. -/
def Blind (step : Step ε σ α) : Prop :=
  ∃ answer, step = Step.ofExcept answer

namespace Blind

theorem pure (a : α) : Blind (Pure.pure a : Step ε σ α) := ⟨.ok a, rfl⟩

theorem ofExcept (answer : Except ε α) : Blind (Step.ofExcept answer : Step ε σ α) := ⟨answer, rfl⟩

/-- There is nothing to see in a state of one value. -/
theorem of_unit (step : Step ε Unit α) : Blind step := ⟨(step.outcome ()).1, rfl⟩

/-- What follows such a step starts from the state before it. -/
theorem bind_ok {first : Step ε σ α} {next : α → Step ε σ β} (h : Blind first) {state left : σ} {b : β}
    (hok : (first >>= next).outcome state = (.ok b, left)) :
    ∃ a, first.outcome state = (.ok a, state) ∧ (next a).outcome state = (.ok b, left) := by
  obtain ⟨answer, rfl⟩ := h
  obtain ⟨a, _, hfirst, hnext⟩ := outcome_bind_eq_ok_iff.mp hok
  rw [outcome_ofExcept, Prod.mk.injEq] at hfirst
  obtain ⟨rfl, rfl⟩ := hfirst
  exact ⟨a, rfl, hnext⟩

theorem bind {first : Step ε σ α} {next : α → Step ε σ β} (hfirst : Blind first)
    (hnext : ∀ a, Blind (next a)) : Blind (first >>= next) := by
  obtain ⟨answer, rfl⟩ := hfirst
  cases answer with
  | error e => exact ⟨.error e, rfl⟩
  | ok a => exact hnext a

theorem mapError {step : Step ε σ α} (f : ε → ε') (h : Blind step) : Blind (step.mapError f) := by
  obtain ⟨answer, rfl⟩ := h
  exact ⟨answer.mapError f, rfl⟩

theorem on {part : τ → σ} {put : σ → τ → τ} {step : Step ε σ α} (h : Blind step)
    (hput : ∀ state, put (part state) state = state) : Blind (step.on part put) := by
  obtain ⟨answer, rfl⟩ := h
  refine ⟨answer, ext fun state => ?_⟩
  rw [outcome_on, outcome_ofExcept, outcome_ofExcept, hput]

theorem paired {step : Step ε σ α} {R : σ → σ → Prop} (h : Blind step) :
    Paired R (Same R) R step step := by
  obtain ⟨answer, rfl⟩ := h
  exact Paired.ofExcept answer

/-- With what is known of all answers of the step. -/
theorem paired_with {step : Step ε σ α} {R : σ → σ → Prop} {P : α → Prop} (h : Blind step)
    (hanswer : ∀ state a left, step.outcome state = (.ok a, left) → P a) :
    Paired R (fun a b s t => P a ∧ Same R a b s t) R step step := by
  obtain ⟨answer, rfl⟩ := h
  intro s t hst
  cases answer with
  | error e => exact .error hst
  | ok a => exact .ok ⟨hanswer s a s rfl, rfl, hst⟩

end Blind

end Playprint.Step
