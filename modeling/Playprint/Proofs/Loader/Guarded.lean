import Playprint.Loader
import Playprint.Proofs.Replay.Guarded
import Playprint.Proofs.Replay.Slots

/-!
Replays from a tape under a loader. The loader is the host of its replays: to load a set, it runs the byte code
of the set with guards and counted rounds, too, and with itself as the host again, down to a depth. One level is
enough, because a set chunk has no slots and so never asks for a set. Main statement: `replays_in_range`.
-/

namespace Playprint

namespace Guarded

variable {K : Catalog} {σ : Type}

/-! ### Loading sets -/

/-- Runs byte code in a session; the answer is the replay as it has ended. -/
def replay (script : Script K) (host : Host K σ) (load : Nat → Guarded LoadError (Session K σ) SetHandle)
    (code : Tape) : Guarded LoadError (Session K σ) (Replay K σ) :=
  Step.of fun session =>
    let (answer, (_, ended)) := (run script host load).outcome (code, .start session)
    (answer.map fun () => ended, ended.session)

section
variable (title : Title K) (load : Nat → Guarded LoadError (Loader K) SetHandle)

def replaySet (tocIndex : Nat) : Guarded LoadError (Loader K) (Option (Nat × SetHandle)) := do
  let payload ← plain (Loader.onContainer (Container.readChunkAt tocIndex Tag.set))
  let order := (← get).host.container.order
  return (← replay (.set title) (Loader.groupHost title) load (.ofBytes order payload)).created

def buildSet (index : Nat) (chunk : UInt32) : Guarded LoadError (Loader K) SetHandle := do
  let loader ← get
  let build : Guarded LoadError (Loader K) SetHandle := do
    let saved ← plain (Loader.onContainer Container.position)
    let created ← (replaySet title load chunk.toNat).closing (plain (Loader.onContainer (Container.goto saved)))
    plain (Loader.installSet index created)
  build.onFailure fun left =>
    { left with world := left.world.keepStages loader.world.stages.size }

def loadSet (index : Nat) : Guarded LoadError (Loader K) SetHandle := do
  let sets := (← get).host.sets
  match sets.slot index, sets.cached? index with
  | .error error, _ => fail (.format error)
  | .ok _, some set => return set
  | .ok slot, none => buildSet title load index slot.chunk

/-- Loading sets where loading is nested no deeper than so many levels. -/
def nested : Nat → Nat → Guarded LoadError (Loader K) SetHandle
  | 0, _ => throw .unfinished
  | depth + 1, index => loadSet title (nested depth) index

end

/-! ### Agreement -/

variable {title : Title K} {load : Nat → Guarded LoadError (Loader K) SetHandle}

/-- An instruction of a set chunk asks nothing of its host. -/
theorem outcome_execute_set {replay : Replay K Desk} (hslots : replay.slots = #[]) (instruction : Instruction) :
    (execute (.set title) (Loader.groupHost title) load instruction).outcome replay =
      (plain (Replay.execute (.set title) Loader.setHost instruction)).outcome replay := by
  rw [execute, Replay.execute, Step.outcome_bind_ok (Step.outcome_get _), outcome_plain_bind (Step.outcome_get _)]
  cases hpermit : Replay.permit (.set title) instruction.opcode replay with
  | error error => rfl
  | ok _ =>
    cases instruction with
    | createActor typeIndex => cases hpermit
    | bindRole typeIndex =>
      rw [Instruction.opcode, Replay.permit, Replay.roleTarget, hslots] at hpermit
      cases hpermit
    | childRole child => exact outcome_childRole child
    | _ => rfl

theorem slots_of_execute_set {host : Host K σ} {instruction : Instruction} {replay after : Replay K σ}
    (hslots : replay.slots = #[])
    (h : (Replay.execute (.set title) host instruction).outcome replay = (.ok (), after)) : after.slots = #[] := by
  have hchange := (Replay.along_reslotted_execute (.set title) host instruction).of_outcome h
  have hsize := Replay.SlotChange.le_declared hchange (by rw [hslots]; exact Nat.zero_le _)
  exact Array.eq_empty_of_size_eq_zero (Nat.le_zero.mp hsize)

theorem replay_set (order : ByteOrder) (payload : Bytes) :
    replay (.set title) (Loader.groupHost title) load (.ofBytes order payload) =
      plain (Loader.replay (.set title) Loader.setHost (.ofBytes order payload)) := by
  apply Step.ext
  intro loader
  have hcode : (Cursor.ofBytes order payload).InStream payload := ⟨Nat.zero_le _, rfl⟩
  have hrun : (run (.set title) (Loader.groupHost title) load).outcome
        (.at payload (.ofBytes order payload), .start loader) =
      onTapeOf payload ((Replay.run (.set title) Loader.setHost).outcome (.ofBytes order payload, .start loader)) :=
    outcome_run (I := fun replay => replay.slots = #[])
      (fun instruction _ hslots => outcome_execute_set hslots instruction)
      (fun _ _ _ => slots_of_execute_set) hcode (.start loader) rfl
  rw [Tape.at_ofBytes] at hrun
  simp only [replay, Step.outcome_of, hrun, plain, Step.outcome_mapError, Loader.replay, onTapeOf]
  rcases (Replay.run (.set title) Loader.setHost).outcome (.ofBytes order payload, .start loader) with
    ⟨error | _, left, ended⟩ <;> rfl

theorem replaySet_eq (tocIndex : Nat) : replaySet title load tocIndex = plain (Loader.replaySet title tocIndex) := by
  simp only [replaySet, Loader.replaySet, Loader.chunkCode, replay_set, plain_bind, bind_assoc]
  rfl

theorem buildSet_eq (index : Nat) (chunk : UInt32) :
    buildSet title load index chunk = plain (Loader.buildSet title index chunk) := by
  apply Step.ext
  intro loader
  rw [buildSet, Loader.buildSet, Step.outcome_bind_ok (Step.outcome_get _), outcome_plain_bind (Step.outcome_get _)]
  simp only [replaySet_eq, plain_onFailure, plain_bind, plain_closing]

/-- Loading a set needs no guard and no level, whatever it is given for a set that it would have to load itself. -/
theorem loadSet_eq (index : Nat) : loadSet title load index = plain (Loader.loadSet title index) := by
  apply Step.ext
  intro loader
  rw [loadSet, Loader.loadSet, Step.outcome_bind_ok (Step.outcome_get _), outcome_plain_bind (Step.outcome_get _)]
  dsimp only
  cases loader.host.sets.slot index with
  | error error => rfl
  | ok slot =>
    cases loader.host.sets.cached? index with
    | some set => rfl
    | none =>
      dsimp only
      rw [buildSet_eq]

theorem nested_succ (depth index : Nat) : nested title (depth + 1) index = plain (Loader.loadSet title index) :=
  loadSet_eq index

/-- One level of loading is enough for a replay of either kind. -/
theorem outcome_run_nested (script : Script K) {stream : Bytes} {cursor : Cursor} (hcursor : cursor.InStream stream)
    (replay : Replay K Desk) :
    (run script (Loader.groupHost script.title) (nested script.title 1)).outcome (.at stream cursor, replay) =
      onTapeOf stream ((Replay.run script (Loader.groupHost script.title)).outcome (cursor, replay)) :=
  outcome_run (I := fun _ => True)
    (fun instruction _ _ => outcome_execute instruction fun _ setIndex _ => nested_succ 0 setIndex)
    (fun _ _ _ _ _ => trivial) hcursor replay trivial

end Guarded

namespace Replay

variable {K : Catalog} {σ : Type} {script : Script K} {host : Host K σ} {stream : Bytes} {cursor left : Cursor}
  {replay after : Replay K σ}

/-- An instruction that is read takes a byte at least. -/
theorem offset_fetch_lt {instruction : Instruction} (hcursor : cursor.InStream stream)
    (h : (fetch script replay).outcome cursor = (.ok instruction, left)) : cursor.offset < left.offset := by
  have hbefore := hcursor.offset_add
  have hafter := (Guarded.fetch_inStream hcursor h).offset_add
  have hshorter := length_fetch_lt h
  omega

theorem inStream_of_mem_course (hcursor : cursor.InStream stream) :
    ∀ here ∈ course script host cursor replay, here.1.InStream stream :=
  forall_mem_course (fun _ _ h => Guarded.fetch_inStream h rfl) hcursor

/-- A run that succeeds has come to the end of its stream. -/
theorem offset_of_run_ok (hcursor : cursor.InStream stream)
    (h : (run script host).outcome (cursor, replay) = (.ok (), left, after)) : left.offset = stream.length := by
  rcases hrun : runFrom script host cursor { replay with registers := .fresh } with ⟨error | _, last, ended⟩
  · rw [outcome_run_error hrun] at h
    cases h
  · rw [outcome_run_ok hrun] at h
    obtain rfl : last = left := congrArg (fun ended => ended.2.1) h
    obtain ⟨hexhausted, _, hrounds⟩ := rounds_of_runFrom hrun
    have hlast := (inStream_of_mem_course hcursor _ hrounds.mem_course).offset_add
    rw [Cursor.isExhausted, List.isEmpty_iff] at hexhausted
    rwa [hexhausted, List.length_nil, Nat.add_zero] at hlast

/-- A replay from a place in a stream, under a loader, with guards and counted rounds, and with the sets that it
needs loaded so as well, one level deep. It ends as it does without all this, so nothing stops it but a failure
of its own. Its cursor stays in the stream, every instruction takes a byte at least, and after a success no byte
is left. -/
structure InRange (script : Script K) (stream : Bytes) (cursor : Cursor) (loader : Loader K) : Prop where
  same : (Guarded.run script (Loader.groupHost script.title) (Guarded.nested script.title 1)).outcome
      (.at stream cursor, .start loader) =
    Guarded.onTapeOf stream ((run script (Loader.groupHost script.title)).outcome (cursor, .start loader))
  failed : ∀ stop, ((Guarded.run script (Loader.groupHost script.title) (Guarded.nested script.title 1)).outcome
      (.at stream cursor, .start loader)).1 = .error stop → ∃ error, stop = .failed error
  inStream : ∀ here ∈ course script (Loader.groupHost script.title) cursor (.start loader), here.1.InStream stream
  advances : ∀ here ∈ course script (Loader.groupHost script.title) cursor (.start loader),
    ∀ instruction left, (fetch script here.2).outcome here.1 = (.ok instruction, left) → here.1.offset < left.offset
  consumed : ∀ left after, (run script (Loader.groupHost script.title)).outcome (cursor, .start loader) =
    (.ok (), left, after) → left.offset = stream.length

/-- Whatever the bytes of a chunk are, in either order, of either kind and with any number of actors declared:
its replay is in range from any place of the stream on. -/
theorem replays_in_range (script : Script K) (order : ByteOrder) (before code : Bytes) (loader : Loader K) :
    InRange script (before ++ code) ⟨order, before.length, code⟩ loader := by
  have hcursor : Cursor.InStream (before ++ code) ⟨order, before.length, code⟩ :=
    ⟨by rw [List.length_append]; exact Nat.le_add_right .., List.drop_left.symm⟩
  have hsame := Guarded.outcome_run_nested script hcursor (.start loader)
  have hcourse : ∀ here ∈ course script (Loader.groupHost script.title) _ (.start loader), here.1.InStream _ :=
    inStream_of_mem_course hcursor
  constructor
  case same => exact hsame
  case failed =>
    intro stop hstop
    rw [hsame] at hstop
    exact Guarded.failed_of_onTapeOf hstop
  case inStream => exact hcourse
  case advances => exact fun here hhere _ _ hfetch => offset_fetch_lt (hcourse here hhere) hfetch
  case consumed => exact fun _ _ hrun => offset_of_run_ok hcursor hrun

end Replay

end Playprint
