import Playprint.Replay.Execution

/-!
Running byte code. Each round reads one instruction and executes it; every instruction takes at least its
opcode byte, so a run ends. After the byte code of a group the roles left over are attached.
-/

namespace Playprint.Replay

variable {K : Catalog} {σ : Type}

/-- Reads the next instruction. -/
def fetch (script : Script K) (replay : Replay K σ) : CursorStep Instruction := do
  let offset ← Cursor.position
  let byte ← Cursor.nextByte
  match Opcode.ofByte? byte with
  | none => throw (.invalidOpcode byte offset)
  | some op =>
    Step.ofExcept (permit script op replay)
    op.readOperands replay.registers.length

/-- Every instruction takes at least one byte. -/
theorem length_fetch_lt {script : Script K} {replay : Replay K σ} {cursor left : Cursor}
    {instruction : Instruction}
    (h : (fetch script replay).outcome cursor = (.ok instruction, left)) :
    left.rest.length < cursor.rest.length := by
  simp only [fetch, Cursor.position, Step.outcome_bind, Step.outcome_get, Step.outcome_pure] at h
  split at h
  · rename_i byte afterByte hbyte
    have hlt := Cursor.length_nextByte_lt hbyte
    split at h
    · simp at h
    · rename_i op _
      have hle := (Cursor.Advances.ofExcept (permit script op replay)).bind
        (fun _ => op.advances_readOperands replay.registers.length) afterByte
      rw [h] at hle
      exact Nat.lt_of_le_of_lt hle hlt
  · simp at h

/-- Runs what is left of a stream. -/
def runFrom (script : Script K) (host : Host K σ) (cursor : Cursor) (replay : Replay K σ) :
    Except LoadError Unit × (Cursor × Replay K σ) :=
  if cursor.isExhausted then (.ok (), (cursor, replay))
  else match _h : (fetch script replay).outcome cursor with
    | (.error error, left) => (.error (.format error), (left, replay))
    | (.ok instruction, left) =>
      match (execute script host instruction).outcome replay with
      | (.error error, replay) => (.error error, (left, replay))
      | (.ok (), replay) => runFrom script host left replay
termination_by cursor.rest.length
decreasing_by exact length_fetch_lt _h

/-- What follows the byte code of a chunk: a group attaches the roles that are left over. -/
def finish (script : Script K) : ReplayStep K σ Unit :=
  match script.kind with
  | .group => lastCall
  | .set => pure ()

/-- Runs the byte code that is left, from fresh registers, to the end of its chunk. -/
def run (script : Script K) (host : Host K σ) : Step LoadError (Cursor × Replay K σ) Unit := do
  Step.of fun (cursor, replay) =>
    runFrom script host cursor { replay with registers := .fresh }
  Step.on Prod.snd (fun replay state => (state.1, replay)) (finish script)

end Playprint.Replay
