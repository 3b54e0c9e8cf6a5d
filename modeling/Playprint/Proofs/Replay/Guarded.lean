import Playprint.Proofs.ByteCode.Tape
import Playprint.Proofs.Replay.Course
import Playprint.Proofs.Replay.Effects

/-!
Replays from a tape. Here the byte code is read with guards, every slot that an instruction names by its number
is looked up with a guard, and so is each half of the slots where two are changed together; the rounds of the
byte code are counted. In whatever stream a replay starts, it does what it does without all this.
-/

namespace Playprint

namespace Guarded

variable {K : Catalog} {σ α β : Type}

/-! ### Slots -/

def slotAt (index : Nat) : Guarded LoadError (Replay K σ) (Slot K) := do
  inRange (← get).slots[index]?

/-- The slots before an index and those from it on. -/
def splitAt (index : Nat) : Guarded LoadError (Replay K σ) (List (Slot K) × List (Slot K)) := do
  let slots := (← get).slots.toList
  inRange (if index ≤ slots.length then some (slots.take index, slots.drop index) else none)

/-- Two slots at once: the slots are split at the greater of the indices. -/
def pairAt (first second : Nat) : Guarded LoadError (Replay K σ) (Slot K × Slot K) := do
  if first < second then
    let (head, tail) ← splitAt second
    return (← inRange head[first]?, ← inRange tail[0]?)
  else
    let (head, tail) ← splitAt first
    return (← inRange tail[0]?, ← inRange head[second]?)

def attachChild (parent child : Nat) : Guarded LoadError (Replay K σ) Unit := do
  let count := (← get).slots.size
  if count ≤ parent then fail (.format (.actorSlot parent count))
  else if count ≤ child then fail (.format (.actorSlot child count))
  else if parent = child then fail (.format (.selfParent child))
  else if (← slotAt child).attached then fail (.format (.roleAlreadyAttached child))
  else match (← slotAt parent).record.binding with
    | none => fail (.format .noActiveSet)
    | some binding =>
      if (← slotAt child).record.binding.map SetBinding.handle ≠ some binding.handle then
        fail (.format (.setMismatch parent child))
      else
        let (parentSlot, childSlot) ← pairAt parent child
        plain do
          let parentRole ← Replay.roleOf parent parentSlot
          let childRole ← Replay.roleOf child childSlot
          Replay.hang binding.handle (some parentRole.actor.id) childRole.actor.id
          Replay.setSlot child fun slot => { slot with attached := true }

/-! ### Instructions -/

section
variable (script : Script K) (host : Host K σ) (load : Nat → Guarded LoadError (Session K σ) SetHandle)

/-- The set is loaded with guards, too. -/
def bindRole (typeIndex : Nat) : Guarded LoadError (Replay K σ) Unit := do
  match (← get).roleTarget with
  | .error error => fail (.format error)
  | .ok (index, setIndex) =>
    let set ← Step.on Replay.session (fun session replay => { replay with session }) (load setIndex)
    let slot ← slotAt index
    plain do
      let actor : ActorRef := ⟨slot.record.id, slot.record.typeIndex, index⟩
      let role ← Replay.onWorld .construction (script.title.newRole typeIndex actor set)
      Replay.setSlot index (Slot.bound role ⟨setIndex, set⟩)

def childRole (child : Nat) : Guarded LoadError (Replay K σ) Unit := do
  match (← get).registers.parent with
  | none => fail (.format .noParentRole)
  | some parent =>
    attachChild parent child
    plain (Replay.setRegisters fun registers => { registers with parent := none })

/-- Only the instructions for roles name slots by their numbers. -/
def perform : Instruction → Guarded LoadError (Replay K σ) Unit
  | .bindRole typeIndex => bindRole script load typeIndex
  | .childRole child => childRole child
  | instruction => plain (Replay.perform script host instruction)

def execute (instruction : Instruction) : Guarded LoadError (Replay K σ) Unit := do
  match Replay.permit script instruction.opcode (← get) with
  | .error error => fail (.format error)
  | .ok () => perform script host load instruction

/-! ### Byte code -/

def fetch (replay : Replay K σ) : Guarded FormatError Tape Instruction := do
  let offset := (← get).offset
  let byte ← Tape.nextByte
  match Opcode.ofByte? byte with
  | none => fail (.invalidOpcode byte offset)
  | some op =>
    plain (Step.ofExcept (Replay.permit script op replay))
    Tape.readOperands op replay.registers.length

/-- A reader of the tape; where it fails, the byte code is to blame. -/
def onTape (reader : Guarded FormatError Tape α) : Guarded LoadError (Tape × Replay K σ) α :=
  Step.on Prod.fst (fun tape state => (tape, state.2)) (reader.mapError (Stop.map .format))

def onReplay (step : Guarded LoadError (Replay K σ) α) : Guarded LoadError (Tape × Replay K σ) α :=
  Step.on Prod.snd (fun replay state => (state.1, replay)) step

def runFrom : Nat → Guarded LoadError (Tape × Replay K σ) Unit
  | 0 => throw .unfinished
  | rounds + 1 => do
    let (tape, replay) ← get
    if tape.isExhausted then return ()
    let instruction ← onTape (fetch script replay)
    onReplay (execute script host load instruction)
    runFrom rounds

/-- There is a round for every byte that is left, and one to find the end. -/
def run : Guarded LoadError (Tape × Replay K σ) Unit := do
  onReplay (plain (Replay.setRegisters fun _ => .fresh))
  let left ← onTape Tape.remaining
  runFrom script host load (left + 1)
  onReplay (plain (Replay.finish script))

end

/-! ### Agreement -/

variable {script : Script K} {host other : Host K σ} {load : Nat → Guarded LoadError (Session K σ) SetHandle}
  {replay : Replay K σ}

theorem outcome_plain_bind {ε τ : Type} {first : Step ε τ α} {next : α → Step ε τ β} {state left : τ} {a : α}
    (h : first.outcome state = (.ok a, left)) :
    (plain (first >>= next)).outcome state = (plain (next a)).outcome left := by
  rw [plain, Step.outcome_mapError, Step.outcome_bind_ok h, plain, Step.outcome_mapError]

theorem outcome_slotAt {index : Nat} {slot : Slot K} (h : replay.slots[index]? = some slot) :
    (slotAt index).outcome replay = (.ok slot, replay) := by
  rw [slotAt, Step.outcome_bind_ok (Step.outcome_get _), h]
  rfl

theorem outcome_splitAt {index : Nat} (h : index ≤ replay.slots.toList.length) :
    (splitAt index).outcome replay =
      (.ok (replay.slots.toList.take index, replay.slots.toList.drop index), replay) := by
  rw [splitAt, Step.outcome_bind_ok (Step.outcome_get _)]
  simp only [if_pos h]
  rfl

/-- Two different slots are in different halves. -/
theorem outcome_pairAt {first second : Nat} {one two : Slot K} (hone : replay.slots[first]? = some one)
    (htwo : replay.slots[second]? = some two) (hne : first ≠ second) :
    (pairAt first second).outcome replay = (.ok (one, two), replay) := by
  rw [← Array.getElem?_toList] at hone htwo
  obtain ⟨hfirst, _⟩ := List.getElem?_eq_some_iff.mp hone
  obtain ⟨hsecond, _⟩ := List.getElem?_eq_some_iff.mp htwo
  rw [pairAt]
  by_cases hlt : first < second
  · rw [if_pos hlt, Step.outcome_bind_ok (outcome_splitAt (Nat.le_of_lt hsecond))]
    simp only [List.getElem?_take_of_lt hlt, List.getElem?_drop, Nat.add_zero, hone, htwo]
    rfl
  · rw [if_neg hlt, Step.outcome_bind_ok (outcome_splitAt (Nat.le_of_lt hfirst))]
    simp only [List.getElem?_take_of_lt (Nat.lt_of_le_of_ne (Nat.le_of_not_lt hlt) hne.symm), List.getElem?_drop,
      Nat.add_zero, hone, htwo]
    rfl

theorem outcome_slotAt_none {index : Nat} (h : replay.slots[index]? = none) :
    (Replay.slotAt index).outcome replay = (.error (.format (.actorSlot index replay.slots.size)), replay) := by
  rw [Replay.slotAt, Step.outcome_bind_ok (Step.outcome_get _)]
  simp only [h]
  rfl

theorem outcome_attachChild (parent child : Nat) :
    (attachChild parent child).outcome replay = (plain (Replay.attachChild parent child)).outcome replay := by
  simp only [attachChild, Replay.attachChild, Replay.refuse_bind, Step.outcome_bind_ok (Step.outcome_get replay)]
  cases hupper : replay.slots[parent]? with
  | none =>
      rw [if_pos (Array.getElem?_eq_none_iff.mp hupper), plain, Step.outcome_mapError,
        Step.outcome_bind_error (outcome_slotAt_none hupper)]
      rfl
  | some upper =>
    have hparent : ¬replay.slots.size ≤ parent :=
      Nat.not_le.mpr (Array.getElem?_eq_some_iff.mp hupper).choose
    rw [if_neg hparent, outcome_plain_bind (Replay.slotAt_eq_ok_iff.mpr ⟨hupper, rfl⟩)]
    cases hlower : replay.slots[child]? with
    | none =>
      rw [if_pos (Array.getElem?_eq_none_iff.mp hlower), plain, Step.outcome_mapError,
        Step.outcome_bind_error (outcome_slotAt_none hlower)]
      rfl
    | some lower =>
      have hchild : ¬replay.slots.size ≤ child :=
        Nat.not_le.mpr (Array.getElem?_eq_some_iff.mp hlower).choose
      rw [if_neg hchild, outcome_plain_bind (Replay.slotAt_eq_ok_iff.mpr ⟨hlower, rfl⟩)]
      by_cases hself : parent = child
      · rw [if_pos hself, if_pos hself]
        rfl
      rw [if_neg hself, if_neg hself, Step.outcome_bind_ok (outcome_slotAt hlower)]
      by_cases hattached : lower.attached
      · rw [if_pos hattached, if_pos hattached]
        rfl
      rw [if_neg hattached, if_neg hattached, Step.outcome_bind_ok (outcome_slotAt hupper)]
      cases hbinding : upper.record.binding with
      | none => rfl
      | some binding =>
        dsimp only
        rw [Step.outcome_bind_ok (outcome_slotAt hlower)]
        by_cases hsame : lower.record.binding.map SetBinding.handle ≠ some binding.handle
        · rw [if_pos hsame, if_pos hsame]
          rfl
        rw [if_neg hsame, if_neg hsame, Step.outcome_bind_ok (outcome_pairAt hupper hlower hself)]

theorem lt_of_roleTarget {index setIndex : Nat} (h : replay.roleTarget = .ok (index, setIndex)) :
    index < replay.slots.size := by
  rw [Replay.roleTarget] at h
  split at h
  · cases h
  · rename_i hslots
    split at h <;> cases h
    rw [Array.isEmpty_iff_size_eq_zero] at hslots
    omega

theorem outcome_bindRole (typeIndex : Nat)
    (hload : ∀ index setIndex, replay.roleTarget = .ok (index, setIndex) →
      load setIndex = plain (host.loadSet setIndex)) :
    (bindRole script load typeIndex).outcome replay =
      (plain (Replay.bindRole script host typeIndex)).outcome replay := by
  rw [bindRole, Replay.bindRole, Step.outcome_bind_ok (Step.outcome_get _),
    outcome_plain_bind (Step.outcome_get _)]
  cases htarget : replay.roleTarget with
  | error error => rfl
  | ok target =>
    obtain ⟨index, setIndex⟩ := target
    dsimp only
    rw [hload index setIndex htarget, plain_bind]
    refine Step.outcome_bind_congr rfl fun set left hleft => ?_
    have hslots : left.slots = replay.slots := (congrArg (fun ended => ended.2.slots) hleft).symm
    have hindex : index < left.slots.size := hslots ▸ lt_of_roleTarget htarget
    have hslot := Array.getElem?_eq_getElem hindex
    rw [Step.outcome_bind_ok (outcome_slotAt hslot),
      outcome_plain_bind (Replay.slotAt_eq_ok_iff.mpr ⟨hslot, rfl⟩)]
    rfl

theorem outcome_childRole (child : Nat) :
    (childRole child).outcome replay =
      (plain (Replay.perform script host (.childRole child))).outcome replay := by
  rw [childRole, Replay.perform, Step.outcome_bind_ok (Step.outcome_get _),
    outcome_plain_bind (Step.outcome_get _)]
  cases replay.registers.parent with
  | none => rfl
  | some parent =>
    dsimp only
    rw [plain_bind]
    exact Step.outcome_bind_congr (outcome_attachChild parent child) fun _ _ _ => rfl

/-- Where loading with guards is loading, an instruction with guards is the instruction. -/
theorem outcome_execute (instruction : Instruction)
    (hload : ∀ index setIndex, replay.roleTarget = .ok (index, setIndex) →
      load setIndex = plain (host.loadSet setIndex)) :
    (execute script host load instruction).outcome replay =
      (plain (Replay.execute script host instruction)).outcome replay := by
  rw [execute, Replay.execute, Step.outcome_bind_ok (Step.outcome_get _), outcome_plain_bind (Step.outcome_get _)]
  cases Replay.permit script instruction.opcode replay with
  | error error => rfl
  | ok _ =>
    cases instruction with
    | bindRole typeIndex => exact outcome_bindRole typeIndex hload
    | childRole child => exact outcome_childRole child
    | _ => rfl

theorem agrees_fetch (script : Script K) (replay : Replay K σ) {stream : Bytes} :
    Tape.Agrees stream (fetch script replay) (Replay.fetch script replay) := by
  refine .of_matched fun cursor h => ?_
  have hoffset : Cursor.position.outcome cursor = (.ok cursor.offset, cursor) := rfl
  rw [fetch, Replay.fetch, Step.outcome_bind_ok (Step.outcome_get _), outcome_plain_bind hoffset]
  dsimp only
  cases hrest : cursor.rest with
  | nil =>
    rw [Step.outcome_bind_error (Tape.outcome_nextByte_nil h hrest), plain, Step.outcome_mapError,
      Step.outcome_bind, Cursor.nextByte, Step.outcome_of, hrest]
    exact .error ⟨rfl, h⟩
  | cons byte rest =>
    have hnext := h.next hrest
    have hbyte : Cursor.nextByte.outcome cursor = (.ok byte, ⟨cursor.order, cursor.offset + 1, rest⟩) := by
      rw [Cursor.nextByte, Step.outcome_of, hrest]
    rw [Step.outcome_bind_ok (Tape.outcome_nextByte_cons h hrest), outcome_plain_bind hbyte]
    cases Opcode.ofByte? byte with
    | none => exact .error ⟨rfl, hnext⟩
    | some op =>
      dsimp only
      cases Replay.permit script op replay with
      | error error => exact .error ⟨rfl, hnext⟩
      | ok _ => exact Tape.matched_readOperands op replay.registers.length hnext (Nat.succ_pos _)

theorem fetch_inStream {stream : Bytes} {cursor left : Cursor} {answer : Except FormatError Instruction}
    (h : cursor.InStream stream) (hfetch : (Replay.fetch script replay).outcome cursor = (answer, left)) :
    left.InStream stream := by
  have hleft := ((agrees_fetch script replay).ends h).2
  rwa [hfetch] at hleft

theorem outcome_onTape_fetch {stream : Bytes} {cursor left : Cursor} {answer : Except FormatError Instruction}
    (h : cursor.InStream stream) (hfetch : (Replay.fetch script replay).outcome cursor = (answer, left)) :
    (onTape (fetch script replay)).outcome (.at stream cursor, replay) =
      ((answer.mapError .failed).mapError (Stop.map .format), (.at stream left, replay)) := by
  have hends := ((agrees_fetch script replay).ends h).1
  rw [hfetch] at hends
  rw [onTape, Step.outcome_on, Step.outcome_mapError, hends]

theorem outcome_onReplay {step : Guarded LoadError (Replay K σ) α} {replay after : Replay K σ}
    {answer : Except (Stop LoadError) α} (tape : Tape) (h : step.outcome replay = (answer, after)) :
    (onReplay step).outcome (tape, replay) = (answer, (tape, after)) := by
  rw [onReplay, Step.outcome_on, h]

/-- How a step without guards ends with them. -/
theorem outcome_plain {ε τ : Type} {step : Step ε τ α} {state left : τ} {answer : Except ε α}
    (h : step.outcome state = (answer, left)) : (plain step).outcome state = (answer.mapError .failed, left) := by
  rw [plain, Step.outcome_mapError, h]

theorem outcome_runFrom_exhausted {tape : Tape} (rounds : Nat) (h : tape.isExhausted) :
    (runFrom script host load (rounds + 1)).outcome (tape, replay) = (.ok (), tape, replay) := by
  rw [runFrom, Step.outcome_bind_ok (Step.outcome_get _)]
  dsimp only
  rw [if_pos h]
  rfl

theorem outcome_runFrom_next {tape : Tape} (rounds : Nat) (h : ¬tape.isExhausted) :
    (runFrom script host load (rounds + 1)).outcome (tape, replay) =
      (do
        let instruction ← onTape (fetch script replay)
        onReplay (execute script host load instruction)
        runFrom script host load rounds).outcome (tape, replay) := by
  rw [runFrom, Step.outcome_bind_ok (Step.outcome_get _)]
  dsimp only
  rw [if_neg h]

/-- The end of a run, on the tape of its stream. -/
def onTapeOf (stream : Bytes) (ended : Except LoadError Unit × (Cursor × Replay K σ)) :
    Except (Stop LoadError) Unit × (Tape × Replay K σ) :=
  (ended.1.mapError .failed, (.at stream ended.2.1, ended.2.2))

/-- Nothing stops a run without guards but a failure. -/
theorem failed_of_onTapeOf {stream : Bytes} {ended : Except LoadError Unit × (Cursor × Replay K σ)}
    {stop : Stop LoadError} (h : (onTapeOf stream ended).1 = .error stop) : ∃ error, stop = .failed error := by
  obtain ⟨error | _, last⟩ := ended <;> cases h
  exact ⟨error, rfl⟩

section
variable {I : Replay K σ → Prop} {stream : Bytes} {cursor : Cursor}
  (hsame : ∀ instruction replay, I replay → (execute script host load instruction).outcome replay =
    (plain (Replay.execute script other instruction)).outcome replay)
  (hkeeps : ∀ instruction replay after, I replay →
    (Replay.execute script other instruction).outcome replay = (.ok (), after) → I after)
  (hcursor : cursor.InStream stream)
include hsame hkeeps hcursor

/-- From a place in the stream there are rounds enough, and no guard stops the byte code if none stops an
instruction. -/
theorem outcome_runFrom {rounds : Nat} (hreplay : I replay) (hrounds : cursor.rest.length ≤ rounds) :
    (runFrom script host load (rounds + 1)).outcome (.at stream cursor, replay) =
      onTapeOf stream (Replay.runFrom script other cursor replay) := by
  induction cursor, replay using Replay.rounds_induction script other
    generalizing rounds with
  | exhausted cursor replay hempty =>
    rw [outcome_runFrom_exhausted rounds (hcursor.isExhausted_at.trans hempty),
      Replay.runFrom_exhausted replay hempty]
    rfl
  | unread cursor replay error left hempty hfetch =>
    rw [outcome_runFrom_next rounds (by rwa [hcursor.isExhausted_at]),
      Step.outcome_bind_error (outcome_onTape_fetch hcursor hfetch), Replay.runFrom_fetch_error hempty hfetch]
    rfl
  | failed cursor replay instruction left error after hfetch hfails =>
    have hnext := Replay.not_isExhausted_of_fetch hfetch
    have hinstruction := (hsame instruction replay hreplay).trans (outcome_plain hfails)
    rw [outcome_runFrom_next rounds (by rwa [hcursor.isExhausted_at]),
      Step.outcome_bind_ok (outcome_onTape_fetch hcursor hfetch),
      Step.outcome_bind_error (outcome_onReplay _ hinstruction), Replay.runFrom_execute_error hfetch hfails]
    rfl
  | round cursor replay instruction left after hfetch hdone ih =>
    have hnext := Replay.not_isExhausted_of_fetch hfetch
    have hinstruction := (hsame instruction replay hreplay).trans (outcome_plain hdone)
    have hleft := fetch_inStream hcursor hfetch
    -- The round has taken a byte, so one round fewer is enough for what is left.
    have hfewer := Nat.lt_of_lt_of_le (Replay.length_fetch_lt hfetch) hrounds
    obtain ⟨rounds, rfl⟩ := Nat.exists_eq_succ_of_ne_zero (Nat.ne_zero_of_lt hfewer)
    rw [outcome_runFrom_next (rounds + 1) (by rwa [hcursor.isExhausted_at]),
      Step.outcome_bind_ok (outcome_onTape_fetch hcursor hfetch),
      Step.outcome_bind_ok (outcome_onReplay _ hinstruction), Replay.runFrom_round hfetch hdone]
    exact ih hleft (hkeeps _ _ _ hreplay hdone) (Nat.le_of_lt_succ hfewer)

theorem outcome_run (replay : Replay K σ) (hreplay : I { replay with registers := .fresh }) :
    (run script host load).outcome (.at stream cursor, replay) =
      onTapeOf stream ((Replay.run script other).outcome (cursor, replay)) := by
  have hfresh : (onReplay (plain (Replay.setRegisters fun _ => .fresh))).outcome (Tape.at stream cursor, replay) =
      (.ok ⟨⟩, (.at stream cursor, { replay with registers := .fresh })) := rfl
  have hleft : (onTape Tape.remaining).outcome (Tape.at stream cursor, { replay with registers := .fresh }) =
      (.ok cursor.remaining, (.at stream cursor, { replay with registers := .fresh })) := by
    rw [onTape, Step.outcome_on, Step.outcome_mapError, Tape.outcome_remaining hcursor]
    rfl
  have hcode := outcome_runFrom hsame hkeeps hcursor hreplay (Nat.le_refl cursor.remaining)
  rw [run, Step.outcome_bind_ok hfresh, Step.outcome_bind_ok hleft]
  rcases hrun : Replay.runFrom script other cursor { replay with registers := .fresh } with
    ⟨error | _, left, ended⟩ <;> rw [hrun] at hcode
  · rw [Step.outcome_bind_error hcode, Replay.outcome_run_error hrun]
    rfl
  · rw [Step.outcome_bind_ok hcode, Replay.outcome_run_ok hrun]
    rfl

end

end Guarded

end Playprint
