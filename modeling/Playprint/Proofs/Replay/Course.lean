import Mathlib.Data.List.Chain
import Playprint.Proofs.Replay.Rounds

/-!
The course of a run: all states that it goes through, in order. There is one after every instruction and one
after every slot that the last call comes to, and the last one is where the run stops, be it for an error. What
each of these steps does to the replay holds between any two states of the course, if it is transitive.
-/

namespace Playprint

namespace Step

variable {ε σ β : Type}

/-- The states after each of the items, up to the first that fails. -/
def statesAfter (step : β → Step ε σ Unit) : List β → σ → List σ
  | [], _ => []
  | item :: rest, state =>
    match (step item).outcome state with
    | (.error _, left) => [left]
    | (.ok (), left) => left :: statesAfter step rest left

theorem getLast?_statesAfter (step : β → Step ε σ Unit) (items : List β) (state : σ) :
    (state :: statesAfter step items state).getLast? = some ((forEach items step).outcome state).2 := by
  induction items generalizing state with
  | nil => rfl
  | cons item rest ih =>
      rw [statesAfter, forEach]
      rcases hitem : (step item).outcome state with ⟨e | _, left⟩
      · rw [outcome_bind_error hitem]
        rfl
      · rw [outcome_bind_ok hitem, ← ih, List.getLast?_cons_cons]

theorem isChain_statesAfter {R : σ → σ → Prop} {step : β → Step ε σ Unit} (h : ∀ item, Along R (step item))
    (items : List β) (state : σ) : (state :: statesAfter step items state).IsChain R := by
  induction items generalizing state with
  | nil => exact .singleton state
  | cons item rest ih =>
      have hitem := h item state
      rw [statesAfter]
      rcases hleft : (step item).outcome state with ⟨e | _, left⟩ <;> rw [hleft] at hitem
      · exact .cons_cons hitem (.singleton left)
      · exact .cons_cons hitem (ih left)

end Step

namespace Replay

variable {K : Catalog} {σ : Type} {script : Script K} {host : Host K σ}

/-- The states that the end of a chunk goes through after its byte code. -/
def endStates (script : Script K) (replay : Replay K σ) : List (Replay K σ) :=
  match script.kind with
  | .group => Step.statesAfter attachRest (List.range replay.slots.size) replay
  | .set => []

/-- The states that a run goes through, from where it starts to where it stops. -/
def course (script : Script K) (host : Host K σ) (cursor : Cursor) (replay : Replay K σ) :
    List (Cursor × Replay K σ) :=
  (cursor, replay) ::
    if cursor.isExhausted then (endStates script replay).map (cursor, ·)
    else match _h : (fetch script replay).outcome cursor with
      | (.error _, left) => [(left, replay)]
      | (.ok instruction, left) =>
        match (execute script host instruction).outcome replay with
        | (.error _, after) => [(left, after)]
        | (.ok (), after) => course script host left after
termination_by cursor.rest.length
decreasing_by exact length_fetch_lt _h

variable {cursor left : Cursor} {replay after : Replay K σ} {instruction : Instruction}

theorem course_exhausted (h : cursor.isExhausted) :
    course script host cursor replay =
      (replay :: endStates script replay).map (cursor, ·) := by
  rw [course, if_pos h, List.map_cons]

theorem course_fetch_error {error : FormatError} (hcursor : ¬cursor.isExhausted)
    (h : (fetch script replay).outcome cursor = (.error error, left)) :
    course script host cursor replay = [(cursor, replay), (left, replay)] := by
  rw [course, if_neg hcursor]
  split <;> rename_i heq <;> rw [h] at heq <;> cases heq
  rfl

theorem course_execute_error {error : LoadError}
    (hfetch : (fetch script replay).outcome cursor = (.ok instruction, left))
    (hexecute : (execute script host instruction).outcome replay = (.error error, after)) :
    course script host cursor replay = [(cursor, replay), (left, after)] := by
  rw [course, if_neg (not_isExhausted_of_fetch hfetch)]
  split <;> rename_i heq <;> rw [hfetch] at heq <;> cases heq
  rw [hexecute]

theorem course_round (hfetch : (fetch script replay).outcome cursor = (.ok instruction, left))
    (hexecute : (execute script host instruction).outcome replay = (.ok (), after)) :
    course script host cursor replay = (cursor, replay) :: course script host left after := by
  rw [course, if_neg (not_isExhausted_of_fetch hfetch)]
  split <;> rename_i heq <;> rw [hfetch] at heq <;> cases heq
  rw [hexecute]

theorem head?_course : (course script host cursor replay).head? = some (cursor, replay) := by
  rw [course, List.head?_cons]

theorem getLast?_course_cons (state : Cursor × Replay K σ) :
    (state :: course script host cursor replay).getLast? = (course script host cursor replay).getLast? := by
  rw [course, List.getLast?_cons_cons]

theorem getLast?_endStates (script : Script K) (replay : Replay K σ) :
    (replay :: endStates script replay).getLast? = some ((finish script).outcome replay).2 := by
  rw [endStates, finish]
  cases script.kind with
  | group => exact Step.getLast?_statesAfter attachRest _ replay
  | set => rfl

/-- A run stops at the last state of its course. -/
theorem getLast?_course (code : Cursor) (session : Session K σ) :
    (course script host code (start session)).getLast? =
      some ((run script host).outcome (code, start session)).2 := by
  suffices h : ∀ replay : Replay K σ, (course script host code replay).getLast? =
      some (match runFrom script host code replay with
        | (.error _, last) => last
        | (.ok (), left, ended) => (left, ((finish script).outcome ended).2)) by
    rw [h]
    rcases hrun : runFrom script host code (start session) with ⟨error | _, left, ended⟩
    · rw [outcome_run_error hrun]
    · rw [outcome_run_ok hrun]
  intro replay
  induction code, replay using rounds_induction script host with
  | exhausted cursor replay hcursor =>
      rw [course_exhausted hcursor, runFrom_exhausted replay hcursor, List.getLast?_map, getLast?_endStates]
      rfl
  | unread cursor replay error left hcursor hfetch =>
      rw [course_fetch_error hcursor hfetch, runFrom_fetch_error hcursor hfetch]
      rfl
  | failed cursor replay instruction left error after hfetch hexecute =>
      rw [course_execute_error hfetch hexecute, runFrom_execute_error hfetch hexecute]
      rfl
  | round cursor replay instruction left after hfetch hexecute ih =>
      rw [course_round hfetch hexecute, runFrom_round hfetch hexecute, getLast?_course_cons, ih]

/-- Where the rounds of a run come to lies on its course. -/
theorem Rounds.mem_course {done : List Instruction} {first last : Cursor × Replay K σ}
    (h : Rounds script host first done last) : last ∈ course script host first.1 first.2 := by
  induction h with
  | stop here =>
      rw [course]
      exact List.mem_cons_self
  | round hfetch hexecute _ ih =>
      rw [course_round hfetch hexecute]
      exact List.mem_cons_of_mem _ ih

/-- What holds of a cursor, and still holds when an instruction was read or not, holds on the whole course. -/
theorem forall_mem_course {P : Cursor → Prop}
    (hfetch : ∀ replay cursor, P cursor → P ((fetch script (σ := σ) replay).outcome cursor).2)
    (hcursor : P cursor) : ∀ here ∈ course script host cursor replay, P here.1 := by
  induction cursor, replay using rounds_induction script host with
  | exhausted cursor replay hempty =>
      rw [course_exhausted hempty]
      intro here hhere
      obtain ⟨_, _, rfl⟩ := List.mem_map.mp hhere
      exact hcursor
  | unread cursor replay error left hempty hread =>
      have hleft := hfetch replay cursor hcursor
      rw [hread] at hleft
      rw [course_fetch_error hempty hread, List.forall_mem_cons, List.forall_mem_singleton]
      exact ⟨hcursor, hleft⟩
  | failed cursor replay instruction left error after hread hexecute =>
      have hleft := hfetch replay cursor hcursor
      rw [hread] at hleft
      rw [course_execute_error hread hexecute, List.forall_mem_cons, List.forall_mem_singleton]
      exact ⟨hcursor, hleft⟩
  | round cursor replay instruction left after hread hexecute ih =>
      have hleft := hfetch replay cursor hcursor
      rw [hread] at hleft
      rw [course_round hread hexecute, List.forall_mem_cons]
      exact ⟨hcursor, ih hleft⟩

/-- What every instruction does to the replay, and every slot of the last call, is done from each state of the
course to the next. -/
theorem isChain_course {R : Replay K σ → Replay K σ → Prop} [Std.Refl R]
    (hexecute : ∀ instruction, Step.Along R (execute script host instruction))
    (hrest : ∀ index, Step.Along R (attachRest index)) (cursor : Cursor) (replay : Replay K σ) :
    ((course script host cursor replay).map Prod.snd).IsChain R := by
  induction cursor, replay using rounds_induction script host with
  | exhausted cursor replay hcursor =>
      rw [course_exhausted hcursor, List.map_map]
      change ((replay :: endStates script replay).map id).IsChain R
      rw [List.map_id, endStates]
      cases script.kind with
      | group => exact Step.isChain_statesAfter hrest _ replay
      | set => exact .singleton replay
  | unread cursor replay error left hcursor hfetch =>
      rw [course_fetch_error hcursor hfetch]
      exact .cons_cons (Std.Refl.refl replay) (.singleton replay)
  | failed cursor replay instruction left error after hfetch hfails =>
      have hstep := hexecute instruction replay
      rw [hfails] at hstep
      rw [course_execute_error hfetch hfails]
      exact .cons_cons hstep (.singleton after)
  | round cursor replay instruction left after hfetch hdone ih =>
      have hstep := hexecute instruction replay
      rw [hdone] at hstep
      rw [course_round hfetch hdone, List.map_cons]
      rw [course, List.map_cons] at ih ⊢
      exact .cons_cons hstep ih

/-- What is transitive holds between any two states of the course. -/
theorem pairwise_course {R : Replay K σ → Replay K σ → Prop} [Std.Refl R] [Trans R R R]
    (hexecute : ∀ instruction, Step.Along R (execute script host instruction))
    (hrest : ∀ index, Step.Along R (attachRest index)) (cursor : Cursor) (replay : Replay K σ) :
    ((course script host cursor replay).map Prod.snd).Pairwise R :=
  List.isChain_iff_pairwise.mp (isChain_course hexecute hrest cursor replay)

end Replay

end Playprint
