import Playprint.Proofs.Step
import Playprint.Replay.Run

/-!
Runs as sequences of rounds. A round reads one instruction and executes it. A run that succeeds is a
sequence of rounds to the end of the stream, and one that fails a sequence of rounds to one that breaks off.
-/

namespace Playprint.Replay

variable {K : Catalog} {σ : Type} {script : Script K} {host : Host K σ}

/-- From the first state to the second, exactly these instructions are read and executed, one a round. -/
inductive Rounds (script : Script K) (host : Host K σ) :
    Cursor × Replay K σ → List Instruction → Cursor × Replay K σ → Prop
  | stop (here : Cursor × Replay K σ) : Rounds script host here [] here
  | round {cursor left : Cursor} {replay after : Replay K σ} {instruction : Instruction}
      {rest : List Instruction} {last : Cursor × Replay K σ}
      (hfetch : (fetch script replay).outcome cursor = (.ok instruction, left))
      (hexecute : (execute script host instruction).outcome replay = (.ok (), after))
      (hrest : Rounds script host (left, after) rest last) :
      Rounds script host (cursor, replay) (instruction :: rest) last

/-! ### One round of a run -/

/-- An instruction that was read is an opcode and its operands. -/
theorem fetch_ok {replay : Replay K σ} {code left : Cursor} {instruction : Instruction}
    (h : (fetch script replay).outcome code = (.ok instruction, left)) :
    ∃ byte op operands, Cursor.nextByte.outcome code = (.ok byte, operands) ∧
      Opcode.ofByte? byte = some op ∧
      (op.readOperands replay.registers.length).outcome operands = (.ok instruction, left) := by
  simp only [fetch, Cursor.position, Step.outcome_bind, Step.outcome_get, Step.outcome_pure] at h
  rcases hbyte : Cursor.nextByte.outcome code with ⟨error | byte, operands⟩ <;> rw [hbyte] at h
  · cases h
  cases hop : Opcode.ofByte? byte with
  | none =>
      simp only [hop] at h
      cases h
  | some op =>
      simp only [hop] at h
      cases hpermit : permit script op replay with
      | error error =>
          simp only [hpermit] at h
          cases h
      | ok _ =>
          simp only [hpermit] at h
          exact ⟨byte, op, operands, rfl, hop, h⟩

theorem runFrom_exhausted {cursor : Cursor} (replay : Replay K σ) (h : cursor.isExhausted) :
    runFrom script host cursor replay = (.ok (), cursor, replay) := by
  rw [runFrom, if_pos h]

theorem not_isExhausted_of_fetch {cursor left : Cursor} {replay : Replay K σ}
    {instruction : Instruction} (h : (fetch script replay).outcome cursor = (.ok instruction, left)) :
    ¬cursor.isExhausted := by
  have hlt := length_fetch_lt h
  intro hempty
  rw [Cursor.isExhausted, List.isEmpty_iff] at hempty
  simp [hempty] at hlt

theorem runFrom_fetch_error {cursor left : Cursor} {replay : Replay K σ} {error : FormatError}
    (hcursor : ¬cursor.isExhausted)
    (h : (fetch script replay).outcome cursor = (.error error, left)) :
    runFrom script host cursor replay = (.error (.format error), left, replay) := by
  rw [runFrom, if_neg hcursor]
  split <;> rename_i heq <;> rw [h] at heq <;> cases heq
  rfl

theorem runFrom_execute_error {cursor left : Cursor} {replay after : Replay K σ}
    {instruction : Instruction} {error : LoadError}
    (hfetch : (fetch script replay).outcome cursor = (.ok instruction, left))
    (hexecute : (execute script host instruction).outcome replay = (.error error, after)) :
    runFrom script host cursor replay = (.error error, left, after) := by
  rw [runFrom, if_neg (not_isExhausted_of_fetch hfetch)]
  split <;> rename_i heq <;> rw [hfetch] at heq <;> cases heq
  rw [hexecute]

theorem runFrom_round {cursor left : Cursor} {replay after : Replay K σ} {instruction : Instruction}
    (hfetch : (fetch script replay).outcome cursor = (.ok instruction, left))
    (hexecute : (execute script host instruction).outcome replay = (.ok (), after)) :
    runFrom script host cursor replay = runFrom script host left after := by
  rw [runFrom, if_neg (not_isExhausted_of_fetch hfetch)]
  split <;> rename_i heq <;> rw [hfetch] at heq <;> cases heq
  rw [hexecute]

/-- Induction on the rounds of a run, with a case for every way in which a round can end. -/
@[elab_as_elim]
theorem rounds_induction (script : Script K) (host : Host K σ) {motive : Cursor → Replay K σ → Prop}
    (exhausted : ∀ cursor replay, cursor.isExhausted → motive cursor replay)
    (unread : ∀ cursor replay error left, ¬cursor.isExhausted →
      (fetch script replay).outcome cursor = (.error error, left) → motive cursor replay)
    (failed : ∀ cursor replay instruction left error after,
      (fetch script replay).outcome cursor = (.ok instruction, left) →
      (execute script host instruction).outcome replay = (.error error, after) → motive cursor replay)
    (round : ∀ cursor replay instruction left after,
      (fetch script replay).outcome cursor = (.ok instruction, left) →
      (execute script host instruction).outcome replay = (.ok (), after) →
      motive left after → motive cursor replay)
    (cursor : Cursor) (replay : Replay K σ) : motive cursor replay := by
  induction hlength : cursor.rest.length using Nat.strongRecOn generalizing cursor replay with
  | ind length ih =>
      by_cases hcursor : cursor.isExhausted
      · exact exhausted cursor replay hcursor
      rcases hfetch : (fetch script replay).outcome cursor with ⟨error | instruction, left⟩
      · exact unread cursor replay error left hcursor hfetch
      rcases hexecute : (execute script host instruction).outcome replay with ⟨error | _, after⟩
      · exact failed cursor replay instruction left error after hfetch hexecute
      · exact round cursor replay instruction left after hfetch hexecute
          (ih _ (hlength ▸ length_fetch_lt hfetch) left after rfl)

/-- A run goes along what every instruction goes along, whether it succeeds or not. -/
theorem along_runFrom {R : Replay K σ → Replay K σ → Prop} [Std.Refl R] [Trans R R R]
    (h : ∀ instruction, Step.Along R (execute script host instruction)) (cursor : Cursor)
    (replay : Replay K σ) : R replay (runFrom script host cursor replay).2.2 := by
  induction cursor, replay using rounds_induction script host with
  | exhausted cursor replay hcursor =>
      rw [runFrom_exhausted replay hcursor]
      exact Std.Refl.refl replay
  | unread cursor replay error left hcursor hfetch =>
      rw [runFrom_fetch_error hcursor hfetch]
      exact Std.Refl.refl replay
  | failed cursor replay instruction left error after hfetch hexecute =>
      rw [runFrom_execute_error hfetch hexecute]
      exact (h instruction).of_outcome hexecute
  | round cursor replay instruction left after hfetch hexecute ih =>
      rw [runFrom_round hfetch hexecute]
      exact Trans.trans ((h instruction).of_outcome hexecute) ih

/-- A run whose byte code fails does not finish. -/
theorem outcome_run_error {cursor left : Cursor} {replay after : Replay K σ} {error : LoadError}
    (h : runFrom script host cursor { replay with registers := .fresh } = (.error error, left, after)) :
    (run script host).outcome (cursor, replay) = (.error error, left, after) := by
  simp only [run, Step.outcome_bind, Step.outcome_of, h]

theorem outcome_run_ok {cursor left : Cursor} {replay mid : Replay K σ}
    (h : runFrom script host cursor { replay with registers := .fresh } = (.ok (), left, mid)) :
    (run script host).outcome (cursor, replay) =
      (((finish script).outcome mid).1, left, ((finish script).outcome mid).2) := by
  simp only [run, Step.outcome_bind, Step.outcome_of, h, Step.outcome_on]

/-- A whole run goes along what every instruction and the end of its chunk go along. -/
theorem along_run {R : Replay K σ → Replay K σ → Prop} [Std.Refl R] [Trans R R R]
    (h : ∀ instruction, Step.Along R (execute script host instruction)) (hfinish : Step.Along R (finish script))
    (code : Cursor) (session : Session K σ) :
    R (start session) ((run script host).outcome (code, start session)).2.2 := by
  have hcode := along_runFrom h code (start session)
  rcases hrun : runFrom script host code (start session) with ⟨_ | _, left, ended⟩ <;> rw [hrun] at hcode
  · rw [outcome_run_error hrun]
    exact hcode
  · rw [outcome_run_ok hrun]
    exact Trans.trans hcode (hfinish ended)

/-- A run that succeeds goes through rounds up to the end of the stream. -/
theorem rounds_of_runFrom {cursor left : Cursor} {replay after : Replay K σ}
    (h : runFrom script host cursor replay = (.ok (), left, after)) :
    left.isExhausted ∧ ∃ instructions,
      Rounds script host (cursor, replay) instructions (left, after) := by
  induction cursor, replay using rounds_induction script host with
  | exhausted cursor replay hcursor =>
      rw [runFrom_exhausted replay hcursor] at h
      cases h
      exact ⟨hcursor, [], .stop _⟩
  | unread cursor replay error mid hcursor hfetch =>
      rw [runFrom_fetch_error hcursor hfetch] at h
      cases h
  | failed cursor replay instruction mid error next hfetch hexecute =>
      rw [runFrom_execute_error hfetch hexecute] at h
      cases h
  | round cursor replay instruction mid next hfetch hexecute ih =>
      rw [runFrom_round hfetch hexecute] at h
      obtain ⟨hleft, rest, hrest⟩ := ih h
      exact ⟨hleft, instruction :: rest, .round hfetch hexecute hrest⟩

/-- The next round breaks off: there is no instruction to read, or it cannot be executed. -/
inductive Breaks (script : Script K) (host : Host K σ) :
    Cursor × Replay K σ → LoadError → Replay K σ → Prop
  | unread {cursor left : Cursor} {replay : Replay K σ} {error : FormatError}
      (hfetch : (fetch script replay).outcome cursor = (.error error, left)) :
      Breaks script host (cursor, replay) (.format error) replay
  | failed {cursor left : Cursor} {replay after : Replay K σ} {instruction : Instruction}
      {error : LoadError} (hfetch : (fetch script replay).outcome cursor = (.ok instruction, left))
      (hexecute : (execute script host instruction).outcome replay = (.error error, after)) :
      Breaks script host (cursor, replay) error after

/-- A run that fails goes through rounds up to one that breaks off. -/
theorem breaks_of_runFrom {cursor left : Cursor} {replay after : Replay K σ} {error : LoadError}
    (h : runFrom script host cursor replay = (.error error, left, after)) :
    ∃ instructions last, Rounds script host (cursor, replay) instructions last ∧
      Breaks script host last error after := by
  induction cursor, replay using rounds_induction script host with
  | exhausted cursor replay hcursor =>
      rw [runFrom_exhausted replay hcursor] at h
      cases h
  | unread cursor replay cause mid hcursor hfetch =>
      rw [runFrom_fetch_error hcursor hfetch] at h
      cases h
      exact ⟨[], _, .stop _, .unread hfetch⟩
  | failed cursor replay instruction mid cause next hfetch hexecute =>
      rw [runFrom_execute_error hfetch hexecute] at h
      cases h
      exact ⟨[], _, .stop _, .failed hfetch hexecute⟩
  | round cursor replay instruction mid next hfetch hexecute ih =>
      rw [runFrom_round hfetch hexecute] at h
      obtain ⟨rest, last, hrest, hbreaks⟩ := ih h
      exact ⟨instruction :: rest, last, .round hfetch hexecute hrest, hbreaks⟩

namespace Rounds

variable {start mid last : Cursor × Replay K σ} {done more : List Instruction}

/-- What every instruction keeps holds after the rounds. -/
theorem keeps {I : Replay K σ → Prop} (hkeeps : ∀ instruction replay after, I replay →
      (execute script host instruction).outcome replay = (.ok (), after) → I after)
    (h : Rounds script host start done last) (hstart : I start.2) : I last.2 := by
  induction h with
  | stop here => exact hstart
  | round hfetch hexecute _ ih => exact ih (hkeeps _ _ _ hstart hexecute)

theorem append (hdone : Rounds script host start done mid) (hmore : Rounds script host mid more last) :
    Rounds script host start (done ++ more) last := by
  induction hdone with
  | stop here => exact hmore
  | round hfetch hexecute _ ih => exact .round hfetch hexecute (ih hmore)

end Rounds

/-! ### Roles that are hung under others -/

/-- The run from `start` comes to `mid`, and there hangs the role of one slot under that of another one. -/
def Ties (script : Script K) (host : Host K σ) (start : Cursor × Replay K σ) (mid : Replay K σ)
    (parent child : Nat) : Prop :=
  ∃ done cursor rest last, Rounds script host start done (cursor, mid) ∧
    Rounds script host (cursor, mid) (.childRole child :: rest) last ∧
    mid.registers.parent = some parent

namespace Ties

variable {start : Cursor × Replay K σ} {replay after mid : Replay K σ} {cursor left : Cursor}
  {instruction : Instruction} {parent child : Nat}

/-- Where something is hung later on, there is a next round and it does not break off. -/
theorem next_round (h : Ties script host start mid parent child) :
    ∃ instruction left after, (fetch script start.2).outcome start.1 = (.ok instruction, left) ∧
      (execute script host instruction).outcome start.2 = (.ok (), after) := by
  obtain ⟨done, here, rest, last, hdone, hrest, _⟩ := h
  cases hdone with
  | stop => cases hrest with | round hfetch hexecute _ => exact ⟨_, _, _, hfetch, hexecute⟩
  | round hfetch hexecute _ => exact ⟨_, _, _, hfetch, hexecute⟩

theorem not_exhausted (h : Ties script host start mid parent child) : ¬start.1.isExhausted := by
  obtain ⟨_, _, _, hfetch, _⟩ := h.next_round
  exact not_isExhausted_of_fetch hfetch

theorem not_breaks {error : LoadError} (h : Ties script host start mid parent child) :
    ¬Breaks script host start error after := by
  obtain ⟨_, _, _, hfetch, hexecute⟩ := h.next_round
  intro hbreaks
  cases hbreaks with
  | unread hfetch' => cases hfetch.symm.trans hfetch'
  | failed hfetch' hexecute' =>
      cases hfetch.symm.trans hfetch'
      cases hexecute.symm.trans hexecute'

/-- What is hung is hung by an instruction of the rounds. -/
theorem exists_rounds (h : Ties script host start mid parent child) :
    ∃ done last, Rounds script host start done last ∧ .childRole child ∈ done := by
  obtain ⟨done, _, rest, last, hdone, hrest, _⟩ := h
  exact ⟨_, last, hdone.append hrest, List.mem_append_right _ List.mem_cons_self⟩

/-- What is hung from a state on is hung by its first instruction, or from the next state on. -/
theorem round_iff (hfetch : (fetch script replay).outcome cursor = (.ok instruction, left))
    (hexecute : (execute script host instruction).outcome replay = (.ok (), after)) :
    Ties script host (cursor, replay) mid parent child ↔
      (instruction = .childRole child ∧ replay.registers.parent = some parent ∧ mid = replay) ∨
        Ties script host (left, after) mid parent child := by
  constructor
  · rintro ⟨done, here, rest, last, hdone, hrest, hparent⟩
    cases hdone with
    | stop =>
        cases hrest with
        | round hfetch' _ _ =>
            cases hfetch.symm.trans hfetch'
            exact .inl ⟨rfl, hparent, rfl⟩
    | round hfetch' hexecute' hdone =>
        cases hfetch.symm.trans hfetch'
        cases hexecute.symm.trans hexecute'
        exact .inr ⟨_, here, rest, last, hdone, hrest, hparent⟩
  · rintro (⟨rfl, hparent, rfl⟩ | ⟨done, here, rest, last, hdone, hrest, hparent⟩)
    · exact ⟨[], cursor, [], _, .stop _, .round hfetch hexecute (.stop _), hparent⟩
    · exact ⟨_, here, rest, last, .round hfetch hexecute hdone, hrest, hparent⟩

end Ties

end Playprint.Replay
