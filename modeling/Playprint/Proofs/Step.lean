import Playprint.Step

/-!
How steps run in sequence, and what they leave alone. A step is `Along` a relation when the state it
leaves is always related to the state it started from, whatever the answer; a sequence of such steps is
one again when the relation is a preorder.
-/

namespace Playprint.Step

variable {ε ε' σ τ α β γ : Type}

theorem ext {first second : Step ε σ α} (h : ∀ state, first.outcome state = second.outcome state) :
    first = second :=
  funext h

theorem outcome_bind_ok {first : Step ε σ α} {next : α → Step ε σ β} {state left : σ} {a : α}
    (h : first.outcome state = (.ok a, left)) :
    (first >>= next).outcome state = (next a).outcome left := by
  rw [outcome_bind, h]

theorem outcome_bind_error {first : Step ε σ α} {next : α → Step ε σ β} {state left : σ} {e : ε}
    (h : first.outcome state = (.error e, left)) :
    (first >>= next).outcome state = (.error e, left) := by
  rw [outcome_bind, h]

/-- A sequence answers exactly when both of its steps do. -/
theorem outcome_bind_eq_ok_iff {first : Step ε σ α} {next : α → Step ε σ β} {state left : σ} {b : β} :
    (first >>= next).outcome state = (.ok b, left) ↔
      ∃ a mid, first.outcome state = (.ok a, mid) ∧ (next a).outcome mid = (.ok b, left) := by
  constructor
  · intro h
    rw [outcome_bind] at h
    split at h
    · rename_i a mid hfirst
      exact ⟨a, mid, hfirst, h⟩
    · cases h
  · rintro ⟨a, mid, hfirst, hnext⟩
    rw [outcome_bind_ok hfirst, hnext]

/-- A sequence fails exactly when one of its steps does. -/
theorem outcome_bind_eq_error_iff {first : Step ε σ α} {next : α → Step ε σ β} {state left : σ} {e : ε} :
    (first >>= next).outcome state = (.error e, left) ↔
      first.outcome state = (.error e, left) ∨
        ∃ a mid, first.outcome state = (.ok a, mid) ∧ (next a).outcome mid = (.error e, left) := by
  rw [outcome_bind]
  rcases first.outcome state with ⟨error | a, mid⟩
  · simp
  · constructor
    · intro h
      exact .inr ⟨a, mid, rfl, h⟩
    · rintro (⟨⟨⟩⟩ | ⟨_, _, ⟨⟩, h⟩)
      exact h

theorem outcome_map_ok {step : Step ε σ α} {state left : σ} {a : α} (f : α → β)
    (h : step.outcome state = (.ok a, left)) :
    (f <$> step).outcome state = (.ok (f a), left) := by
  rw [← bind_pure_comp, outcome_bind_ok h, outcome_pure]

theorem outcome_map_eq_ok_iff {step : Step ε σ α} {f : α → β} {state left : σ} {b : β} :
    (f <$> step).outcome state = (.ok b, left) ↔ ∃ a, step.outcome state = (.ok a, left) ∧ f a = b := by
  constructor
  · intro h
    rw [← bind_pure_comp] at h
    obtain ⟨a, mid, ha, hpure⟩ := outcome_bind_eq_ok_iff.mp h
    cases hpure
    exact ⟨a, ha, rfl⟩
  · rintro ⟨a, ha, rfl⟩
    exact outcome_map_ok f ha

@[simp] theorem outcome_mapError (f : ε → ε') (step : Step ε σ α) (state : σ) :
    (step.mapError f).outcome state =
      ((step.outcome state).1.mapError f, (step.outcome state).2) := rfl

theorem mapError_bind (f : ε → ε') (first : Step ε σ α) (next : α → Step ε σ β) :
    (first >>= next).mapError f = (first.mapError f >>= fun a => (next a).mapError f) := by
  apply ext
  intro state
  rw [outcome_mapError, outcome_bind, outcome_bind, outcome_mapError]
  rcases first.outcome state with ⟨e | a, left⟩ <;> rfl

theorem mapError_closing (f : ε → ε') (body : Step ε σ α) (close : Step ε σ Unit) :
    (body.closing close).mapError f = (body.mapError f).closing (close.mapError f) := by
  apply ext
  intro state
  simp only [outcome_mapError, closing, outcome_of]
  rcases close.outcome (body.outcome state).2 with ⟨e | a, left⟩ <;> rfl

theorem mapError_onFailure (f : ε → ε') (body : Step ε σ α) (repair : σ → σ) :
    (body.onFailure repair).mapError f = (body.mapError f).onFailure repair := by
  apply ext
  intro state
  simp only [outcome_mapError, onFailure, outcome_of]
  rcases body.outcome state with ⟨e | a, left⟩ <;> rfl

/-- Sequences whose first steps come to the same end do so too, if what follows an answer does. -/
theorem outcome_bind_congr {first first' : Step ε σ α} {next next' : α → Step ε σ β} {state : σ}
    (hfirst : first.outcome state = first'.outcome state)
    (hnext : ∀ a left, first'.outcome state = (.ok a, left) → (next a).outcome left = (next' a).outcome left) :
    (first >>= next).outcome state = (first' >>= next').outcome state := by
  rw [outcome_bind, outcome_bind, hfirst]
  rcases hleft : first'.outcome state with ⟨e | a, left⟩
  · rfl
  · exact hnext a left hleft

theorem mapError_eq_ok_iff {f : ε → ε'} {answer : Except ε α} {a : α} :
    answer.mapError f = .ok a ↔ answer = .ok a := by
  cases answer <;> constructor <;> rintro ⟨⟩
  · rfl
  · rfl

theorem exists_eq_ok {answer : Except ε α} (h : answer.isOk = true) : ∃ a, answer = .ok a := by
  cases answer with
  | error e => cases h
  | ok a => exact ⟨a, rfl⟩

theorem eq_ok_of_toOption {answer : Except ε α} {a : α} (h : answer.toOption = some a) : answer = .ok a := by
  cases answer with
  | error e => cases h
  | ok b => exact congrArg Except.ok (Option.some.inj h)

@[simp] theorem outcome_modify (f : σ → σ) (state : σ) :
    (modify f : Step ε σ PUnit).outcome state = (.ok ⟨⟩, f state) := rfl

/-- When leaving succeeds, a body that is closed by it keeps its answer. -/
theorem outcome_closing {body : Step ε σ α} {close : Step ε σ Unit} {state inner left : σ}
    {answer : Except ε α} (hbody : body.outcome state = (answer, inner))
    (hclose : close.outcome inner = (.ok (), left)) :
    (body.closing close).outcome state = (answer, left) := by
  simp only [closing, outcome_of, hbody, hclose]

theorem outcome_onFailure_ok {body : Step ε σ α} {repair : σ → σ} {state left : σ} {a : α}
    (h : body.outcome state = (.ok a, left)) :
    (body.onFailure repair).outcome state = (.ok a, left) := by
  simp only [onFailure, outcome_of, h]

theorem outcome_onFailure_error {body : Step ε σ α} {repair : σ → σ} {state left : σ} {e : ε}
    (h : body.outcome state = (.error e, left)) :
    (body.onFailure repair).outcome state = (.error e, repair left) := by
  simp only [onFailure, outcome_of, h]

/-- A body that is closed answers only when it and leaving answer. -/
theorem outcome_closing_ok {body : Step ε σ α} {close : Step ε σ Unit} {state left : σ} {a : α}
    (h : (body.closing close).outcome state = (.ok a, left)) :
    ∃ inner, body.outcome state = (.ok a, inner) ∧ close.outcome inner = (.ok (), left) := by
  simp only [closing, outcome_of] at h
  rcases hbody : body.outcome state with ⟨answer, inner⟩
  rw [hbody] at h
  rcases hclose : close.outcome inner with ⟨_ | _, last⟩ <;> rw [hclose] at h <;> cases h
  exact ⟨inner, rfl, hclose⟩

/-- What every step of a sequence keeps holds after all of them. -/
theorem forEach_keeps {I : σ → Prop} {step : β → Step ε σ Unit}
    (hkeeps : ∀ item state left, I state → (step item).outcome state = (.ok (), left) → I left)
    {items : List β} {state left : σ} (h : (forEach items step).outcome state = (.ok (), left))
    (hstate : I state) : I left := by
  induction items generalizing state with
  | nil =>
      cases h
      exact hstate
  | cons item rest ih =>
      obtain ⟨_, mid, hitem, hrest⟩ := outcome_bind_eq_ok_iff.mp h
      exact ih hrest (hkeeps item state mid hstate hitem)

/-! ### Steps along a relation -/

/-- Whatever the answer, the state that is left is related to the state before. -/
def Along (R : σ → σ → Prop) (step : Step ε σ α) : Prop :=
  ∀ state, R state (step.outcome state).2

/-- Two states look the same in a view. -/
def Alike (view : σ → γ) (before after : σ) : Prop :=
  view after = view before

instance (view : σ → γ) : Std.Refl (Alike view) := ⟨fun _ => rfl⟩

instance (view : σ → γ) : Trans (Alike view) (Alike view) (Alike view) :=
  ⟨fun first second => Eq.trans second first⟩

namespace Along

variable {R : σ → σ → Prop}

theorem of_outcome {step : Step ε σ α} {state left : σ} {answer : Except ε α} (h : Along R step)
    (houtcome : step.outcome state = (answer, left)) : R state left := by
  have hleft := h state
  rwa [houtcome] at hleft

theorem pure [Std.Refl R] (a : α) : Along R (Pure.pure a : Step ε σ α) := fun state => Std.Refl.refl state

theorem throw [Std.Refl R] (e : ε) : Along R (MonadExcept.throw e : Step ε σ α) :=
  fun state => Std.Refl.refl state

theorem get [Std.Refl R] : Along R (MonadState.get : Step ε σ σ) := fun state => Std.Refl.refl state

theorem ofExcept [Std.Refl R] (answer : Except ε α) : Along R (Step.ofExcept answer : Step ε σ α) :=
  fun state => Std.Refl.refl state

theorem mono {S : σ → σ → Prop} {step : Step ε σ α} (h : Along R step)
    (himp : ∀ before after, R before after → S before after) : Along S step :=
  fun state => himp state _ (h state)

theorem bind [Trans R R R] {first : Step ε σ α} {next : α → Step ε σ β} (hfirst : Along R first)
    (hnext : ∀ a, Along R (next a)) : Along R (first >>= next) := by
  intro state
  have h := hfirst state
  rw [outcome_bind]
  split <;> rename_i heq <;> rw [heq] at h
  · exact Trans.trans h (hnext _ _)
  · exact h

theorem map [Std.Refl R] [Trans R R R] {step : Step ε σ α} (f : α → β) (h : Along R step) :
    Along R (f <$> step) := by
  rw [← bind_pure_comp]
  exact h.bind fun _ => pure _

theorem closing [Trans R R R] {body : Step ε σ α} {close : Step ε σ Unit} (hbody : Along R body)
    (hclose : Along R close) : Along R (body.closing close) := by
  intro state
  have h := Trans.trans (hbody state) (hclose (body.outcome state).2)
  simp only [Step.closing, outcome_of]
  split <;> rename_i heq <;> rw [heq] at h <;> exact h

theorem times [Std.Refl R] [Trans R R R] {step : Step ε σ α} (h : Along R step) (count : Nat) :
    Along R (step.times count) := by
  induction count with
  | zero => exact pure []
  | succ count ih => exact h.bind fun _ => ih.bind fun _ => pure _

theorem forEach [Std.Refl R] [Trans R R R] {items : List β} {step : β → Step ε σ Unit}
    (h : ∀ item ∈ items, Along R (step item)) : Along R (Step.forEach items step) := by
  induction items with
  | nil => exact pure ()
  | cons item rest ih =>
      exact (h item List.mem_cons_self).bind fun _ =>
        ih fun other hother => h other (List.mem_cons_of_mem _ hother)

end Along

/-- When the step fails, the state that is left is related to the state before. -/
def FailsAlong (R : σ → σ → Prop) (step : Step ε σ α) : Prop :=
  ∀ state left e, step.outcome state = (.error e, left) → R state left

namespace FailsAlong

variable {R : σ → σ → Prop}

theorem of_along {step : Step ε σ α} (h : Along R step) : FailsAlong R step := by
  intro state left e hfails
  have hstep := h state
  rwa [hfails] at hstep

theorem pure (a : α) : FailsAlong R (Pure.pure a : Step ε σ α) := by
  rintro state left e ⟨⟩

theorem modify (f : σ → σ) : FailsAlong R (modify f : Step ε σ PUnit) := by
  rintro state left e ⟨⟩

/-- Only the last step of a sequence may change the state beyond the relation when it succeeds. -/
theorem bind [Trans R R R] {first : Step ε σ α} {next : α → Step ε σ β} (hfirst : Along R first)
    (hnext : ∀ a, FailsAlong R (next a)) : FailsAlong R (first >>= next) := by
  intro state left e h
  have hstep := hfirst state
  rcases outcome_bind_eq_error_iff.mp h with hfails | ⟨a, mid, hmid, hfails⟩
  · rwa [hfails] at hstep
  · rw [hmid] at hstep
    exact Trans.trans hstep (hnext a mid left e hfails)

/-- A sequence whose second step never fails only fails like the first. -/
theorem followed {first : Step ε σ α} {next : α → Step ε σ β} (hfirst : FailsAlong R first)
    (hnext : ∀ a mid, ∃ b left, (next a).outcome mid = (.ok b, left)) :
    FailsAlong R (first >>= next) := by
  intro state left e h
  rcases outcome_bind_eq_error_iff.mp h with hfails | ⟨a, mid, _, hfails⟩
  · exact hfirst state left e hfails
  · obtain ⟨b, last, hok⟩ := hnext a mid
    cases hok.symm.trans hfails

theorem map {step : Step ε σ α} (f : α → β) (h : FailsAlong R step) : FailsAlong R (f <$> step) := by
  rw [← bind_pure_comp]
  exact h.followed fun _ mid => ⟨_, mid, rfl⟩

end FailsAlong

/-! ### Failures of a kind -/

/-- Every failure of the step is of a kind. -/
def FailsWith (P : ε → Prop) (step : Step ε σ α) : Prop :=
  ∀ state left e, step.outcome state = (.error e, left) → P e

namespace FailsWith

variable {P : ε → Prop}

theorem pure (a : α) : FailsWith P (Pure.pure a : Step ε σ α) := by
  rintro state left e ⟨⟩

theorem get : FailsWith P (MonadState.get : Step ε σ σ) := by
  rintro state left e ⟨⟩

theorem modify (f : σ → σ) : FailsWith P (modify f : Step ε σ PUnit) := by
  rintro state left e ⟨⟩

theorem update (f : σ → σ) : FailsWith P (Step.update f : Step ε σ Unit) := by
  rintro state left e ⟨⟩

theorem throw {e : ε} (h : P e) : FailsWith P (MonadExcept.throw e : Step ε σ α) := by
  rintro state left _ ⟨⟩
  exact h

theorem ofExcept {answer : Except ε α} (h : ∀ e, answer = .error e → P e) :
    FailsWith P (Step.ofExcept answer : Step ε σ α) :=
  fun _ _ e hfails => h e (congrArg Prod.fst hfails)

theorem bind {first : Step ε σ α} {next : α → Step ε σ β} (hfirst : FailsWith P first)
    (hnext : ∀ a, FailsWith P (next a)) : FailsWith P (first >>= next) := by
  intro state left e h
  rcases outcome_bind_eq_error_iff.mp h with hfails | ⟨a, mid, _, hfails⟩
  · exact hfirst state left e hfails
  · exact hnext a mid left e hfails

theorem map {step : Step ε σ α} (g : α → β) (h : FailsWith P step) : FailsWith P (g <$> step) := by
  rw [← bind_pure_comp]
  exact h.bind fun _ => .pure _

theorem closing {body : Step ε σ α} {close : Step ε σ Unit} (hbody : FailsWith P body)
    (hclose : FailsWith P close) : FailsWith P (body.closing close) := by
  intro state left e h
  rcases hinner : body.outcome state with ⟨answer, inner⟩
  rcases hlast : close.outcome inner with ⟨e' | _, last⟩
  · simp only [Step.closing, outcome_of, hinner, hlast] at h
    cases h
    exact hclose inner left e hlast
  · rw [outcome_closing hinner hlast] at h
    cases h
    exact hbody state inner e hinner

theorem onFailure {body : Step ε σ α} (repair : σ → σ) (hbody : FailsWith P body) :
    FailsWith P (body.onFailure repair) := by
  intro state left e h
  rcases hinner : body.outcome state with ⟨e' | a, inner⟩
  · rw [outcome_onFailure_error hinner] at h
    cases h
    exact hbody state inner e hinner
  · rw [outcome_onFailure_ok hinner] at h
    cases h

theorem mapError {f : ε → ε'} {P : ε' → Prop} {step : Step ε σ α}
    (h : FailsWith (fun e => P (f e)) step) : FailsWith P (step.mapError f) := by
  intro state left e hfails
  rw [outcome_mapError, Prod.mk.injEq] at hfails
  rcases hstep : step.outcome state with ⟨cause | a, inner⟩ <;> rw [hstep] at hfails
  · cases hfails.1
    exact h state inner cause hstep
  · cases hfails.1

theorem on {part : σ → τ} {put : τ → σ → σ} {step : Step ε τ α} (h : FailsWith P step) :
    FailsWith P (step.on part put) := by
  intro state left e hfails
  rw [outcome_on, Prod.mk.injEq] at hfails
  exact h (part state) _ e (Prod.ext hfails.1 rfl)

end FailsWith

/-! ### Successes that survive a change of the state -/

/-- What the step answers, it also answers when `f` has changed the state before, and it leaves the same
state up to that change. Nothing is said of its failures. -/
def Survives (f : σ → σ) (step : Step ε σ α) : Prop :=
  ∀ state left a, step.outcome state = (.ok a, left) → step.outcome (f state) = (.ok a, f left)

namespace Survives

variable {f : σ → σ}

theorem pure (a : α) : Survives f (Pure.pure a : Step ε σ α) := by
  rintro state left b ⟨⟩
  rfl

theorem throw (e : ε) : Survives f (MonadExcept.throw e : Step ε σ α) := by
  rintro state left a ⟨⟩

/-- Nothing is asked of what would follow a failure. -/
theorem throw_bind (e : ε) (next : α → Step ε σ β) :
    Survives f (MonadExcept.throw e >>= next) := by
  rintro state left b ⟨⟩

theorem ofExcept (answer : Except ε α) : Survives f (Step.ofExcept answer) := by
  intro state left a h
  rw [outcome_ofExcept, Prod.mk.injEq] at h ⊢
  exact ⟨h.1, congrArg f h.2⟩

theorem modify {g : σ → σ} (h : ∀ state, g (f state) = f (g state)) :
    Survives f (modify g : Step ε σ PUnit) := by
  rintro state left a ⟨⟩
  rw [outcome_modify, h]

theorem bind {first : Step ε σ α} {next : α → Step ε σ β} (hfirst : Survives f first)
    (hnext : ∀ a, Survives f (next a)) : Survives f (first >>= next) := by
  intro state left b h
  obtain ⟨a, mid, hmid, hleft⟩ := outcome_bind_eq_ok_iff.mp h
  rw [outcome_bind_ok (hfirst state mid a hmid)]
  exact hnext a mid left b hleft

/-- What follows a look at the state may only depend on what the change leaves alone. -/
theorem get_bind {next : σ → Step ε σ β} (hsame : ∀ state, next (f state) = next state)
    (hnext : ∀ state, Survives f (next state)) : Survives f (MonadState.get >>= next) := by
  intro state left b h
  rw [outcome_bind_ok (outcome_get _)] at h ⊢
  rw [hsame]
  exact hnext state state left b h

theorem closing {body : Step ε σ α} {close : Step ε σ Unit} (hbody : Survives f body)
    (hclose : Survives f close) : Survives f (body.closing close) := by
  intro state left a h
  obtain ⟨inner, hinner, hleft⟩ := outcome_closing_ok h
  exact outcome_closing (hbody state inner a hinner) (hclose inner left () hleft)

theorem onFailure {body : Step ε σ α} (repair : σ → σ) (hbody : Survives f body) :
    Survives f (body.onFailure repair) := by
  intro state left a h
  rcases hinner : body.outcome state with ⟨e | b, inner⟩
  · rw [outcome_onFailure_error hinner] at h
    cases h
  · rw [outcome_onFailure_ok hinner] at h
    cases h
    exact outcome_onFailure_ok (hbody state left a hinner)

theorem times {step : Step ε σ α} (h : Survives f step) (count : Nat) :
    Survives f (step.times count) := by
  induction count with
  | zero => exact .pure _
  | succ count ih => exact h.bind fun _ => ih.bind fun _ => .pure _

/-- A step on a part of the state survives a change of that part. -/
theorem on {g : τ → τ} {part : σ → τ} {put : τ → σ → σ} {step : Step ε τ α} (h : Survives g step)
    (hpart : ∀ state, part (f state) = g (part state))
    (hput : ∀ left state, put (g left) (f state) = f (put left state)) :
    Survives f (step.on part put) := by
  intro state left a hok
  rw [outcome_on, Prod.mk.injEq] at hok
  obtain ⟨hanswer, rfl⟩ := hok
  have hstep := h (part state) _ a (Prod.ext hanswer rfl)
  rw [outcome_on, hpart, hstep, hput]

end Survives

end Playprint.Step
