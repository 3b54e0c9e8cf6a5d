import Playprint.ByteCode.Instruction
import Playprint.Proofs.Paired

/-!
Reading byte code from a tape. A cursor forgets the bytes that it has read; a tape keeps the whole stream and a
place in it, so what is left, a slice of it and the step back over an opcode can go out of range. Here every
such operation is guarded, and every loop is given a number of rounds. From a place in the stream no guard ever
stops a reader, and its rounds are enough: it does what it does under a cursor.
-/

namespace Playprint

/-- Why a guarded step stops: it fails as it would without guards, it would go out of range, or its rounds have
run out. -/
inductive Stop (ε : Type)
  | failed (error : ε)
  | outOfRange
  | unfinished

/-- The same stop under another account of its failure. -/
def Stop.map {ε ε' : Type} (f : ε → ε') : Stop ε → Stop ε'
  | failed error => failed (f error)
  | outOfRange => outOfRange
  | unfinished => unfinished

/-- A step in which what could go out of range is guarded. -/
abbrev Guarded (ε σ : Type) := Step (Stop ε) σ

namespace Guarded

variable {ε σ α β : Type}

/-- A step with nothing in it to guard. -/
def plain (step : Step ε σ α) : Guarded ε σ α :=
  step.mapError .failed

def fail (error : ε) : Guarded ε σ α :=
  throw (.failed error)

/-- What has to be there. -/
def inRange (found : Option α) : Guarded ε σ α :=
  match found with
  | some a => pure a
  | none => throw .outOfRange

/-- A difference, which must not be negative. -/
def difference (a b : Nat) : Guarded ε σ Nat :=
  inRange (if b ≤ a then some (a - b) else none)

theorem difference_eq {a b : Nat} (h : b ≤ a) : (difference a b : Guarded ε σ Nat) = pure (a - b) := by
  rw [difference, if_pos h]
  rfl

theorem plain_bind (first : Step ε σ α) (next : α → Step ε σ β) :
    plain (first >>= next) = (plain first >>= fun a => plain (next a)) :=
  Step.mapError_bind ..

theorem plain_closing (body : Step ε σ α) (close : Step ε σ Unit) :
    plain (body.closing close) = (plain body).closing (plain close) :=
  Step.mapError_closing ..

theorem plain_onFailure (body : Step ε σ α) (repair : σ → σ) :
    plain (body.onFailure repair) = (plain body).onFailure repair :=
  Step.mapError_onFailure ..

end Guarded

open Guarded (plain fail inRange difference)

/-- A stream with a place in it. -/
structure Tape where
  order : ByteOrder
  stream : Bytes
  /-- How many bytes were read. -/
  offset : Nat

namespace Tape

/-- The tape at the start of a stream. -/
def ofBytes (order : ByteOrder) (stream : Bytes) : Tape := ⟨order, stream, 0⟩

def isExhausted (tape : Tape) : Bool :=
  tape.stream.length ≤ tape.offset

def remaining : Guarded FormatError Tape Nat := do
  let tape ← get
  difference tape.stream.length tape.offset

/-- Moves on over bytes of the stream. -/
def advance (count : Nat) : Guarded FormatError Tape Unit := do
  let tape ← get
  if tape.stream.length < tape.offset + count then throw .outOfRange
  else modify fun tape => { tape with offset := tape.offset + count }

/-- Moves back over a byte that is left unread. -/
def stepBack : Guarded FormatError Tape Unit := do
  let offset ← difference (← get).offset 1
  modify fun tape => { tape with offset }

/-- The bytes between two places of the stream. -/
def slice (first last : Nat) : Guarded FormatError Tape Bytes := do
  let stream := (← get).stream
  inRange (if first ≤ last ∧ last ≤ stream.length then some ((stream.drop first).take (last - first)) else none)

def nextByte : Guarded FormatError Tape UInt8 := do
  let tape ← get
  match tape.stream[tape.offset]? with
  | none => fail (.truncated tape.offset 1)
  | some byte =>
    advance 1
    return byte

def readBytes (count : Nat) : Guarded FormatError Tape Bytes := do
  let available ← remaining
  let offset := (← get).offset
  if available < count then
    let missing ← difference count available
    fail (.truncated offset missing)
  let data ← slice offset (offset + count)
  advance count
  return data

def readWord : Guarded FormatError Tape UInt32 := do
  let order := (← get).order
  let data ← readBytes 4
  return order.word [← inRange data[0]?, ← inRange data[1]?, ← inRange data[2]?, ← inRange data[3]?]

/-- Goes on reading an index that started at offset `start`, with `value` read so far, a byte a round. -/
def readIndexFrom (start value : Nat) : Nat → Guarded FormatError Tape Nat
  | 0 => throw .unfinished
  | rounds + 1 => do
    let byte ← nextByte
    if 128 ≤ byte then
      stepBack
      return value
    if Cursor.maxIndex / 128 < value then fail (.indexOverflow start)
    readIndexFrom start (value * 128 + byte.toNat) rounds

/-- There is a round for every byte that is left, and one to find the end. -/
def readIndex : Guarded FormatError Tape Nat := do
  let start := (← get).offset
  let left ← remaining
  readIndexFrom start 0 (left + 1)

def readOperands (op : Opcode) (length : Nat) : Guarded FormatError Tape Instruction :=
  match op with
  | .beginActorSet => do
    let offset ← difference (← get).offset 1
    fail (.invalidOpcode op.byte offset)
  | .createActor => .createActor <$> readIndex
  | .setSet => .setSet <$> readIndex
  | .bindRole => .bindRole <$> readIndex
  | .parentRole => .parentRole <$> readIndex
  | .childRole => .childRole <$> readIndex
  | .setPropertyOffset => .setPropertyOffset <$> readIndex
  | .setPropertyLength => .setPropertyLength <$> readIndex
  | .copyProperty => .copyProperty <$> readBytes length
  | .copyMediaRef => .copyMediaRef <$> readIndex
  | .endActorGroup => pure .endActorGroup
  | .copyDynamicProperty => do
    let size ← readWord
    .copyDynamicProperty <$> readBytes size.toNat
  | .copyArrayProperty => do
    let count ← readWord
    if UInt32.size ≤ count.toNat * length then fail (.propertySizeOverflow count.toNat length)
    .copyArrayProperty count <$> readBytes (count.toNat * length)
  | .createSet => .createSet <$> readIndex
  | .endSet => pure .endSet

end Tape

/-! ### Places in a stream -/

/-- What is left under the cursor is what comes after the bytes that were read. -/
structure Cursor.InStream (stream : Bytes) (cursor : Cursor) : Prop where
  offset_le : cursor.offset ≤ stream.length
  rest_eq : cursor.rest = stream.drop cursor.offset

/-- The tape at the place of a cursor. -/
def Tape.at (stream : Bytes) (cursor : Cursor) : Tape :=
  ⟨cursor.order, stream, cursor.offset⟩

theorem Tape.at_ofBytes (order : ByteOrder) (stream : Bytes) :
    Tape.at stream (.ofBytes order stream) = .ofBytes order stream := rfl

/-- A tape and a cursor at one place of a stream. -/
def Tape.Tracks (stream : Bytes) (tape : Tape) (cursor : Cursor) : Prop :=
  tape = .at stream cursor ∧ cursor.InStream stream

namespace Cursor.InStream

variable {stream : Bytes} {cursor : Cursor}

theorem length_rest (h : cursor.InStream stream) : cursor.rest.length = stream.length - cursor.offset := by
  rw [h.rest_eq, List.length_drop]

/-- The bytes that were read and those that are left make up the stream. -/
theorem offset_add (h : cursor.InStream stream) : cursor.offset + cursor.rest.length = stream.length := by
  rw [h.length_rest, Nat.add_sub_of_le h.offset_le]

theorem getElem?_offset (h : cursor.InStream stream) : stream[cursor.offset]? = cursor.rest.head? := by
  rw [h.rest_eq, List.head?_drop]

theorem advance (h : cursor.InStream stream) {count : Nat} (hcount : count ≤ cursor.rest.length) :
    InStream stream ⟨cursor.order, cursor.offset + count, cursor.rest.drop count⟩ := by
  have hlength := h.offset_add
  refine ⟨by change cursor.offset + count ≤ _; omega, ?_⟩
  change cursor.rest.drop count = stream.drop (cursor.offset + count)
  rw [h.rest_eq, List.drop_drop]

theorem next {byte : UInt8} {rest : Bytes} (h : cursor.InStream stream) (hrest : cursor.rest = byte :: rest) :
    InStream stream ⟨cursor.order, cursor.offset + 1, rest⟩ := by
  have hnext := h.advance (show 1 ≤ cursor.rest.length by rw [hrest]; exact Nat.le_add_left ..)
  rwa [hrest] at hnext

theorem stay {rest : Bytes} (h : cursor.InStream stream) (hrest : cursor.rest = rest) :
    InStream stream ⟨cursor.order, cursor.offset, rest⟩ :=
  hrest ▸ h

theorem isExhausted_at (h : cursor.InStream stream) : (Tape.at stream cursor).isExhausted = cursor.isExhausted := by
  have hlength := h.offset_add
  rw [Tape.isExhausted, Cursor.isExhausted, Bool.eq_iff_iff, List.isEmpty_iff_length_eq_zero, decide_eq_true_iff]
  change stream.length ≤ cursor.offset ↔ _
  omega

end Cursor.InStream

/-! ### Agreement -/

namespace Tape

open Step (Paired Matched Same)

variable {stream : Bytes} {cursor : Cursor} {α β : Type}

/-- From one place of the stream the guarded reader comes to the same end as the reader itself, at one place
again. -/
def Agrees (stream : Bytes) (guarded : Guarded FormatError Tape α) (step : CursorStep α) : Prop :=
  Paired (Tracks stream) (Same (Tracks stream)) (Tracks stream) guarded (plain step)

namespace Agrees

variable {guarded : Guarded FormatError Tape α} {step : CursorStep α}

theorem pure (a : α) : Agrees stream (Pure.pure a) (Pure.pure a) :=
  Paired.pure fun _ _ htracks => ⟨rfl, htracks⟩

theorem fail (error : FormatError) : Agrees stream (fail error : Guarded FormatError Tape α) (throw error) :=
  Paired.throw (Stop.failed error) fun _ _ => id

theorem bind {next : α → Guarded FormatError Tape β} {next' : α → CursorStep β}
    (h : Agrees stream guarded step) (hnext : ∀ a, Agrees stream (next a) (next' a)) :
    Agrees stream (guarded >>= next) (step >>= next') := by
  rw [Agrees, Guarded.plain_bind]
  exact Paired.bind_same h hnext

theorem map (f : α → β) (h : Agrees stream guarded step) : Agrees stream (f <$> guarded) (f <$> step) := by
  rw [← bind_pure_comp, ← bind_pure_comp]
  exact h.bind fun a => pure (f a)

/-- It is enough to look at each place of the stream. -/
theorem of_matched (h : ∀ cursor : Cursor, cursor.InStream stream →
    Matched (Same (Tracks stream)) (Tracks stream) (guarded.outcome (.at stream cursor))
      ((plain step).outcome cursor)) : Agrees stream guarded step := by
  rintro _ cursor ⟨rfl, hcursor⟩
  exact h cursor hcursor

/-- The ends at one place: the reader's own end, on the tape, in the stream. -/
theorem ends (h : Agrees stream guarded step) (hcursor : cursor.InStream stream) :
    guarded.outcome (.at stream cursor) =
        ((step.outcome cursor).1.mapError .failed, .at stream (step.outcome cursor).2) ∧
      (step.outcome cursor).2.InStream stream := by
  have hends := h (.at stream cursor) cursor ⟨rfl, hcursor⟩
  rw [plain, Step.outcome_mapError] at hends
  generalize step.outcome cursor = plainly at hends ⊢
  generalize guarded.outcome (.at stream cursor) = checked at hends ⊢
  obtain ⟨error | a, left⟩ := plainly
  · change Matched _ _ checked (.error (.failed error), left) at hends
    cases hends with
    | error htracks => exact ⟨by rw [htracks.1]; rfl, htracks.2⟩
  · change Matched _ _ checked (.ok a, left) at hends
    cases hends with
    | ok hsame => exact ⟨by rw [hsame.1, hsame.2.1]; rfl, hsame.2.2⟩

end Agrees

theorem outcome_remaining (h : cursor.InStream stream) :
    remaining.outcome (.at stream cursor) = (.ok cursor.remaining, .at stream cursor) := by
  rw [remaining, Step.outcome_bind_ok (Step.outcome_get _), Cursor.remaining, h.length_rest]
  simp only [Tape.at, Guarded.difference_eq h.offset_le]
  rfl

/-- From a place behind the stream the reader is stopped. -/
example : (remaining.outcome ⟨.big, [], 1⟩).1 = .error .outOfRange := rfl

theorem outcome_advance (h : cursor.InStream stream) {count : Nat} (hcount : count ≤ cursor.rest.length)
    (rest : Bytes) :
    (advance count).outcome (.at stream cursor) =
      (.ok (), .at stream ⟨cursor.order, cursor.offset + count, rest⟩) := by
  have hguard : ¬(Tape.at stream cursor).stream.length < (Tape.at stream cursor).offset + count :=
    Nat.not_lt.mpr (h.advance hcount).offset_le
  rw [advance, Step.outcome_bind_ok (Step.outcome_get _), if_neg hguard]
  rfl

theorem outcome_nextByte_nil (h : cursor.InStream stream) (hrest : cursor.rest = []) :
    nextByte.outcome (.at stream cursor) =
      (.error (.failed (.truncated cursor.offset 1)), .at stream cursor) := by
  rw [nextByte, Step.outcome_bind_ok (Step.outcome_get _)]
  simp only [Tape.at, h.getElem?_offset, hrest, List.head?_nil]
  rfl

theorem outcome_nextByte_cons {byte : UInt8} {rest : Bytes} (h : cursor.InStream stream)
    (hrest : cursor.rest = byte :: rest) :
    nextByte.outcome (.at stream cursor) =
      (.ok byte, .at stream ⟨cursor.order, cursor.offset + 1, rest⟩) := by
  have hmoved := outcome_advance h (show 1 ≤ cursor.rest.length by rw [hrest]; exact Nat.le_add_left ..) rest
  rw [nextByte, Step.outcome_bind_ok (Step.outcome_get _)]
  change Step.outcome (match stream[cursor.offset]? with | none => _ | some byte => _) _ = _
  rw [h.getElem?_offset, hrest, List.head?_cons]
  dsimp only
  rw [Step.outcome_bind_ok hmoved]
  rfl

theorem agrees_readBytes (count : Nat) : Agrees stream (readBytes count) (Cursor.readBytes count) := by
  refine .of_matched fun cursor h => ?_
  rw [plain, Step.outcome_mapError, Cursor.readBytes, Step.outcome_of, readBytes,
    Step.outcome_bind_ok (outcome_remaining h), Step.outcome_bind_ok (Step.outcome_get _)]
  by_cases hshort : cursor.remaining < count
  · simp only [if_pos hshort, Guarded.difference_eq (Nat.le_of_lt hshort)]
    exact .error ⟨rfl, h⟩
  · simp only [if_neg hshort]
    have hcount := Nat.le_of_not_lt hshort
    have hleft := h.advance hcount
    have hslice : (slice cursor.offset (cursor.offset + count)).outcome (.at stream cursor) =
        (.ok (cursor.rest.take count), .at stream cursor) := by
      rw [slice, Step.outcome_bind_ok (Step.outcome_get _), h.rest_eq]
      simp only [Tape.at, if_pos (And.intro (Nat.le_add_right ..) hleft.offset_le), Nat.add_sub_cancel_left]
      rfl
    change Matched _ _ ((slice cursor.offset (cursor.offset + count) >>= _).outcome _) _
    rw [Step.outcome_bind_ok hslice, Step.outcome_bind_ok (outcome_advance h hcount _)]
    exact .ok ⟨rfl, rfl, hleft⟩

theorem length_of_readBytes {count : Nat} {data : Bytes} {left : Cursor}
    (h : (Cursor.readBytes count).outcome cursor = (.ok data, left)) : data.length = count := by
  simp only [Cursor.readBytes, Step.outcome_of] at h
  split at h
  · cases h
  · rename_i henough
    cases h
    exact List.length_take_of_le (Nat.le_of_not_lt henough)

/-- The bytes of a word are all there. -/
theorem inRange_word {data : Bytes} (h : data.length = 4) (order : ByteOrder) :
    (do return order.word [← inRange data[0]?, ← inRange data[1]?, ← inRange data[2]?, ← inRange data[3]?] :
      Guarded FormatError Tape UInt32) = pure (order.word data) := by
  match data, h with
  | [_, _, _, _], _ => rfl

theorem agrees_readWord : Agrees stream readWord Cursor.readWord := by
  refine .of_matched fun cursor h => ?_
  rw [plain, Step.outcome_mapError, readWord, Cursor.readWord, Step.outcome_bind_ok (Step.outcome_get _),
    Step.outcome_bind_ok (Step.outcome_get _)]
  dsimp only
  obtain ⟨hends, hleft⟩ := (agrees_readBytes 4).ends h
  rcases hread : (Cursor.readBytes 4).outcome cursor with ⟨error | data, left⟩ <;> rw [hread] at hends hleft
  · rw [Step.outcome_bind_error hends, Step.outcome_bind_error hread]
    exact .error ⟨rfl, hleft⟩
  · rw [Step.outcome_bind_ok hends, Step.outcome_bind_ok hread, inRange_word (length_of_readBytes hread)]
    exact .ok ⟨rfl, rfl, hleft⟩

theorem outcome_stepBack (order : ByteOrder) (offset : Nat) (byte : UInt8) (rest : Bytes) :
    stepBack.outcome (.at stream ⟨order, offset + 1, rest⟩) = (.ok (), .at stream ⟨order, offset, byte :: rest⟩) := by
  rw [stepBack, Step.outcome_bind_ok (Step.outcome_get _)]
  simp only [Tape.at, Guarded.difference_eq (Nat.le_add_left 1 offset)]
  rfl

/-- Rounds for all bytes that are left, and one more, are enough. -/
theorem matched_readIndexFrom {start value rounds : Nat} (h : cursor.InStream stream)
    (hrounds : cursor.rest.length < rounds) :
    Matched (Same (Tracks stream)) (Tracks stream) ((readIndexFrom start value rounds).outcome (.at stream cursor))
      ((plain (Step.of fun _ => Cursor.readIndexFrom cursor.order start value cursor.offset cursor.rest)).outcome
        cursor) := by
  rw [plain, Step.outcome_mapError, Step.outcome_of]
  induction rounds generalizing cursor value with
  | zero => exact absurd hrounds (Nat.not_lt_zero _)
  | succ rounds ih =>
      rw [readIndexFrom]
      cases hrest : cursor.rest with
      | nil =>
          rw [Step.outcome_bind_error (outcome_nextByte_nil h hrest)]
          exact .error ⟨rfl, h.stay hrest⟩
      | cons byte rest =>
          have hnext := h.next hrest
          rw [Step.outcome_bind_ok (outcome_nextByte_cons h hrest), Cursor.readIndexFrom]
          by_cases hbyte : 128 ≤ byte
          · rw [if_pos hbyte, if_pos hbyte, Step.outcome_bind_ok (outcome_stepBack _ _ byte _)]
            exact .ok ⟨rfl, rfl, h.stay hrest⟩
          by_cases hroom : Cursor.maxIndex / 128 < value
          · rw [if_neg hbyte, if_neg hbyte, if_pos hroom, if_pos hroom]
            exact .error ⟨rfl, hnext⟩
          · rw [if_neg hbyte, if_neg hbyte, if_neg hroom, if_neg hroom]
            rw [hrest, List.length_cons] at hrounds
            exact ih hnext (Nat.lt_of_succ_lt_succ hrounds)

theorem agrees_readIndex : Agrees stream readIndex Cursor.readIndex := by
  refine .of_matched fun cursor h => ?_
  rw [readIndex, Step.outcome_bind_ok (Step.outcome_get _), Step.outcome_bind_ok (outcome_remaining h)]
  exact matched_readIndexFrom h (Nat.lt_succ_self _)

/-- Operands are read behind an opcode, so there is a byte to step back over. -/
theorem matched_readOperands (op : Opcode) (length : Nat) (h : cursor.InStream stream) (hbehind : 0 < cursor.offset) :
    Matched (Same (Tracks stream)) (Tracks stream) ((readOperands op length).outcome (.at stream cursor))
      ((plain (op.readOperands length)).outcome cursor) := by
  cases op with
  | beginActorSet =>
      rw [readOperands, Step.outcome_bind_ok (Step.outcome_get _)]
      simp only [Tape.at, Guarded.difference_eq hbehind]
      exact .error ⟨rfl, h⟩
  | createActor | setSet | bindRole | parentRole | childRole | setPropertyOffset | setPropertyLength
  | copyMediaRef | createSet => exact agrees_readIndex.map _ _ cursor ⟨rfl, h⟩
  | copyProperty => exact (agrees_readBytes length).map _ _ cursor ⟨rfl, h⟩
  | copyDynamicProperty =>
      have hagrees : Agrees stream (readOperands .copyDynamicProperty length)
          (Opcode.copyDynamicProperty.readOperands length) :=
        agrees_readWord.bind fun size => (agrees_readBytes size.toNat).map _
      exact hagrees _ cursor ⟨rfl, h⟩
  | copyArrayProperty =>
      have hagrees : Agrees stream (readOperands .copyArrayProperty length)
          (Opcode.copyArrayProperty.readOperands length) := by
        refine agrees_readWord.bind fun count => ?_
        split
        · exact .fail _
        · exact (agrees_readBytes (count.toNat * length)).map _
      exact hagrees _ cursor ⟨rfl, h⟩
  | endActorGroup | endSet => exact .ok ⟨rfl, rfl, h⟩

end Tape

end Playprint
