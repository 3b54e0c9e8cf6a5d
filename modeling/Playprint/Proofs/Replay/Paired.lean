import Playprint.Loader
import Playprint.Proofs.Paired
import Playprint.Proofs.Replay.Rounds

/-!
Two replays of the same byte code, side by side. As long as both read the same instructions and every
instruction comes to matching ends, so do the runs, and the replays as a whole.
-/

namespace Playprint.Replay

open Step (Matched Paired)

variable {K : Catalog} {σ : Type} {script : Script K} {host : Host K σ}
  {R S E : Replay K σ → Replay K σ → Prop}

/-- What is read depends on what is permitted and on the property length. -/
theorem fetch_congr {first second : Replay K σ}
    (hpermit : ∀ op, permit script op second = permit script op first)
    (hlength : second.registers.length = first.registers.length) :
    fetch script second = fetch script first := by
  unfold fetch
  simp only [hpermit, hlength]

/-- An instruction that both may run or neither. -/
theorem matched_execute {instruction : Instruction} {first second : Replay K σ}
    (hpermit : permit script instruction.opcode second = permit script instruction.opcode first)
    (hends : E first second)
    (hperform : permit script instruction.opcode first = .ok () →
      Matched (fun _ _ => R) E ((perform script host instruction).outcome first)
        ((perform script host instruction).outcome second)) :
    Matched (fun _ _ => R) E ((execute script host instruction).outcome first)
      ((execute script host instruction).outcome second) := by
  rw [execute, Step.outcome_bind_ok (Step.outcome_get _), Step.outcome_bind_ok (Step.outcome_get _),
    hpermit]
  cases hfirst : permit script instruction.opcode first with
  | error error => exact .error hends
  | ok _ => exact hperform hfirst

theorem matched_runFrom
    (hfetch : ∀ first second, R first second → fetch script second = fetch script first)
    (hexecute : ∀ instruction,
      Paired R (fun _ _ => R) E (execute script host instruction) (execute script host instruction))
    (hends : ∀ first second, R first second → E first second) (cursor : Cursor)
    {first second : Replay K σ} (h : R first second) :
    Matched (fun _ _ one other => R one.2 other.2) (fun one other => E one.2 other.2)
      (runFrom script host cursor first) (runFrom script host cursor second) := by
  induction cursor, first using rounds_induction script host generalizing second with
  | exhausted cursor first hcursor =>
      rw [runFrom_exhausted first hcursor, runFrom_exhausted second hcursor]
      exact .ok h
  | unread cursor first error left hcursor hread =>
      have hother := hfetch first second h ▸ hread
      rw [runFrom_fetch_error hcursor hread, runFrom_fetch_error hcursor hother]
      exact .error (hends _ _ h)
  | failed cursor first instruction left error one hread hone =>
      have hother := hfetch first second h ▸ hread
      obtain ⟨other, hfails, hleft⟩ := (hexecute instruction first second h).of_error hone
      rw [runFrom_execute_error hread hone, runFrom_execute_error hother hfails]
      exact .error hleft
  | round cursor first instruction left one hread hone ih =>
      have hother := hfetch first second h ▸ hread
      obtain ⟨_, other, hdone, hleft⟩ := (hexecute instruction first second h).of_ok hone
      rw [runFrom_round hread hone, runFrom_round hother hdone]
      exact ih hleft

/-- Replays from sessions whose first states are related. -/
theorem matched_replay
    (hfetch : ∀ first second, R first second → fetch script second = fetch script first)
    (hexecute : ∀ instruction,
      Paired R (fun _ _ => R) E (execute script host instruction) (execute script host instruction))
    (hends : ∀ first second, R first second → E first second)
    (hfinish : Paired R (fun _ _ => S) E (finish script) (finish script)) (code : Cursor)
    {first second : Session K σ} (h : R (start first) (start second)) :
    Matched (fun one other left left' => S one other ∧ left = one.session ∧ left' = other.session)
      (fun left left' => ∃ one other, E one other ∧ left = one.session ∧ left' = other.session)
      ((Loader.replay script host code).outcome first)
      ((Loader.replay script host code).outcome second) := by
  rw [Loader.replay, Step.outcome_of, Step.outcome_of]
  rcases (matched_runFrom hfetch hexecute hends code h).ends with
    ⟨_, _, ⟨left, one⟩, ⟨left', other⟩, hone, hother, hleft⟩ |
    ⟨error, ⟨left, one⟩, ⟨left', other⟩, hone, hother, hleft⟩
  · rw [outcome_run_ok hone, outcome_run_ok hother]
    rcases (hfinish one other hleft).ends with
      ⟨_, _, last, last', hlast, hlast', hdone⟩ | ⟨error, last, last', hlast, hlast', hfailed⟩
    · rw [hlast, hlast']
      exact .ok ⟨hdone, rfl, rfl⟩
    · rw [hlast, hlast']
      exact .error ⟨last, last', hfailed, rfl, rfl⟩
  · rw [outcome_run_error hone, outcome_run_error hother]
    exact .error ⟨one, other, hleft, rfl, rfl⟩

end Playprint.Replay
