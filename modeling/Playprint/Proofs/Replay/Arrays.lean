import Playprint.Proofs.Replay.Assembled
import Playprint.Proofs.Replay.Upheld

/-!
Property arrays that byte code assigns. The size of an element is an index that one instruction sets, and the count
is a word that another one reads, together with as many bytes as both come to. So every array that is assigned is
well formed, and no class ever sees another one. Main statement: `arrays_well_formed`.
-/

namespace Playprint

namespace Stock

/-- All arrays that the actor was given are well formed. -/
def Actor.WellFormed (actor : Actor) : Prop :=
  actor.properties.WellFormed

/-- All arrays that the set was given are well formed. -/
def Stage.WellFormed (stage : Stage) : Prop :=
  stage.properties.WellFormed

/-- Stock classes keep the arrays that they are given in their bags, and no other ones. -/
theorem upholds_wellFormed : catalog.Upholds Actor.WellFormed Stage.WellFormed where
  buildActor key build h name journal := by
    cases eq_of_onlyKey h
    exact PropertyBag.wellFormed_empty
  setActorProperty _ _ _ _ hactor := .pure hactor
  setActorArray _ name _ _ harray hactor := .pure (PropertyBag.WellFormed.setArray hactor name harray)
  initActor _ _ _ hactor := .pure hactor
  buildStage key build h name journal := by
    cases eq_of_onlyKey h
    exact PropertyBag.wellFormed_empty
  setStageProperty _ _ _ _ hstage := .pure hstage
  setStageArray _ name _ _ harray hstage := .pure (PropertyBag.WellFormed.setArray hstage name harray)
  attach _ parent child stage hstage := by
    refine .ofExcept fun later hlater => ?_
    unfold Stage.attach at hlater
    split at hlater <;> cases hlater
    exact hstage
  initStage _ _ _ hstage := .pure hstage

end Stock

namespace Replay

open Instruction (FitAll EndInIndex encodeAll)
open Loader (setHost tintedTitle)

variable {K : Catalog} {σ : Type} {script : Script K} {host : Host K σ} {replay : Replay K σ}
  {instruction : Instruction} {value : Assignment} {array : PropertyArray}

/-- Byte code comes to an instruction, and reads it, that assigns the value. -/
def Assigns (script : Script K) (host : Host K σ) (code : Cursor) (session : Session K σ) (value : Assignment) :
    Prop :=
  ∃ done here instruction left, Rounds script host (code, start session) done here ∧
    (fetch script here.2).outcome here.1 = (.ok instruction, left) ∧
    instruction.assignment? here.2.registers.length = some value

/-- The property length that instructions are read with is an index. -/
theorem Rounds.length_le {first last : Cursor × Replay K σ} {done : List Instruction}
    (h : Rounds script host first done last) (hfirst : first.2.registers.length ≤ Cursor.maxIndex) :
    last.2.registers.length ≤ Cursor.maxIndex := by
  induction h with
  | stop here => exact hfirst
  | round hfetch hexecute _ ih =>
    apply ih
    rw [length_execute hexecute]
    exact Instruction.lengthAfter_le (fits_of_fetch hfetch) hfirst

/-! ### Assembled byte code -/

section Assembled

variable {done rest : List Instruction} {after : Replay K σ}

/-- Instructions that are executed without failure make rounds of assembled byte code. -/
theorem rounds_encodeAll (order : ByteOrder) (offset : Nat) (hfits : FitAll replay.registers.length (done ++ rest))
    (hlast : ¬EndInIndex (done ++ rest)) (hdone : (executeAll script host done).outcome replay = (.ok (), after)) :
    FitAll after.registers.length rest ∧ ¬EndInIndex rest ∧ ∃ next, Rounds script host
      (⟨order, offset, encodeAll order (done ++ rest)⟩, replay) done (⟨order, next, encodeAll order rest⟩, after) := by
  induction done generalizing replay offset with
  | nil =>
    cases hdone
    exact ⟨hfits, hlast, offset, .stop _⟩
  | cons instruction done ih =>
    obtain ⟨hfirst, hothers⟩ := hfits
    rw [executeAll, Step.forEach] at hdone
    obtain ⟨_, mid, hexecute, hothersDone⟩ := Step.outcome_bind_eq_ok_iff.mp hdone
    have hfetch := outcome_fetch_of_permit order offset (execute_eq_ok_iff.mp hexecute).1 hfirst hlast
    rw [← length_execute hexecute] at hothers
    obtain ⟨hleft, hend, next, hrounds⟩ := ih _ hothers (Instruction.not_endInIndex_of_cons hlast) hothersDone
    exact ⟨hleft, hend, next, .round hfetch hexecute hrounds⟩

/-- Assembled byte code assigns what its instructions do. -/
theorem assigns_encodeAll (order : ByteOrder) (offset : Nat) {session : Session K σ}
    (hfits : FitAll 0 (done ++ instruction :: rest)) (hlast : ¬EndInIndex (done ++ instruction :: rest))
    (hdone : (executeAll script host done).outcome (start session) = (.ok (), after))
    (hvalue : instruction.assignment? after.registers.length = some value) :
    Assigns script host ⟨order, offset, encodeAll order (done ++ instruction :: rest)⟩ session value := by
  obtain ⟨hleft, hend, next, hrounds⟩ := rounds_encodeAll order offset hfits hlast hdone
  have hpermit : permit script instruction.opcode after = .ok () := by
    cases instruction <;> cases hvalue <;> rfl
  exact ⟨done, _, instruction, _, hrounds, outcome_fetch_of_permit order next hpermit hleft.1 hend, hvalue⟩

end Assembled

/-! ### All byte code -/

/-- Every array that any byte code assigns is well formed. So whatever the classes uphold for the actors and the
sets as long as they are given such arrays holds of all of them, in every state that the replay goes through. -/
theorem arrays_well_formed (script : Script K) (host : Host K σ) (code : Cursor) (session : Session K σ) :
    (∀ array, Assigns script host code session (.array array) → array.WellFormed) ∧
    ∀ A S, K.Upholds A S → host.Upholds S → session.Every S →
      ∀ here ∈ course script host code (start session), here.2.Every A S := by
  refine ⟨?assigned, fun A S h hhost hsession => every_course h hhost (every_start hsession)⟩
  case assigned =>
    rintro array ⟨done, here, instruction, left, hrounds, hfetch, hvalue⟩
    exact wellFormed_of_assignment (hrounds.length_le (Nat.zero_le _)) (fits_of_fetch hfetch) hvalue

/-- Byte code that gives a set an array of two elements. -/
def spottedSet : List Instruction :=
  [.createSet 0, .setPropertyOffset 0, .setPropertyLength 2] ++
    .copyArrayProperty 2 [0x8d, 0x80, 0, 1] :: [.endSet]

theorem spottedSet_well_formed :
    let code : Cursor := ⟨.little, 0, encodeAll .little spottedSet⟩
    let array : PropertyArray := ⟨2, 2, [0x8d, 0x80, 0, 1]⟩
    (Assigns (.set tintedTitle) setHost code ⟨(), .empty ()⟩ (.array array) ∧ array.WellFormed) ∧
    Stock.catalog.Upholds Stock.Actor.WellFormed Stock.Stage.WellFormed ∧
    ∀ here ∈ course (.set tintedTitle) setHost code (start ⟨(), .empty ()⟩),
      here.2.Every Stock.Actor.WellFormed Stock.Stage.WellFormed := by
  intro code array
  obtain ⟨hassigned, hupheld⟩ := arrays_well_formed (.set tintedTitle) setHost code ⟨(), .empty ()⟩
  have harray : Assigns (.set tintedTitle) setHost code ⟨(), .empty ()⟩ (.array array) :=
    assigns_encodeAll .little 0 (by decide) (by decide) rfl rfl
  refine ⟨⟨harray, hassigned array harray⟩, Stock.upholds_wellFormed, ?_⟩
  exact hupheld _ _ Stock.upholds_wellFormed (fun _ => .throw _) fun _ hstage => absurd hstage (Array.not_mem_empty _)

end Replay

end Playprint
