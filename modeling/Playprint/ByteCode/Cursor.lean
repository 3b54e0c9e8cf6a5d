import Playprint.Vlq

/-!
Reading byte code. A cursor holds what is left of a stream. Operands are words in the byte order of the
container, raw bytes, or indices: groups of seven bits, most significant first, that end where a byte with
the high bit follows. That byte, the next opcode, is left unread.
-/

namespace Playprint

/-- What is left of a byte-code stream. -/
structure Cursor where
  order : ByteOrder
  /-- How many bytes were read. -/
  offset : Nat
  rest : Bytes

/-- A step that reads byte code. -/
abbrev CursorStep := Step FormatError Cursor

namespace Cursor

/-- A cursor at the start of a stream. -/
def ofBytes (order : ByteOrder) (stream : Bytes) : Cursor := ⟨order, 0, stream⟩

/-- How many bytes are left. -/
def remaining (cursor : Cursor) : Nat :=
  cursor.rest.length

/-- Whether all bytes were read. -/
def isExhausted (cursor : Cursor) : Bool :=
  cursor.rest.isEmpty

/-- How many bytes were read. -/
def position : CursorStep Nat := do
  return (← get).offset

/-- Reads one byte. -/
def nextByte : CursorStep UInt8 :=
  Step.of fun cursor =>
    match cursor.rest with
    | [] => (.error (.truncated cursor.offset 1), cursor)
    | byte :: rest => (.ok byte, { cursor with offset := cursor.offset + 1, rest })

/-- Reads `count` bytes; nothing is consumed when there are fewer. -/
def readBytes (count : Nat) : CursorStep Bytes :=
  Step.of fun cursor =>
    let available := cursor.remaining
    if available < count then (.error (.truncated cursor.offset (count - available)), cursor)
    else (.ok (cursor.rest.take count),
      { cursor with offset := cursor.offset + count, rest := cursor.rest.drop count })

/-- Reads a word in the byte order of the container. -/
def readWord : CursorStep UInt32 := do
  let order := (← get).order
  return order.word (← readBytes 4)

/-- The greatest index there is. -/
def maxIndex : Nat := 0x7fffffff

/-- Goes on reading an index that started at offset `start`, with `value` read so far. -/
def readIndexFrom (order : ByteOrder) (start value offset : Nat) :
    Bytes → Except FormatError Nat × Cursor
  | [] => (.error (.truncated offset 1), ⟨order, offset, []⟩)
  | byte :: rest =>
    if 128 ≤ byte then (.ok value, ⟨order, offset, byte :: rest⟩)
    else if maxIndex / 128 < value then
      (.error (.indexOverflow start), ⟨order, offset + 1, rest⟩)
    else readIndexFrom order start (value * 128 + byte.toNat) (offset + 1) rest

/-- Reads an index up to the opcode that ends it. A failed read keeps the bytes it went through. -/
def readIndex : CursorStep Nat :=
  Step.of fun cursor =>
    readIndexFrom cursor.order cursor.offset 0 cursor.offset cursor.rest

/-- An index as an operand: its groups of seven bits, most significant first. -/
def encodeIndex (value : Nat) : Bytes :=
  (Vlq.groups value).reverse.map UInt8.ofNat

/-- A step that never puts bytes back. -/
def Advances {α : Type} (step : CursorStep α) : Prop :=
  ∀ cursor, (step.outcome cursor).2.rest.length ≤ cursor.rest.length

theorem length_readIndexFrom_le (order : ByteOrder) (start value offset : Nat) (rest : Bytes) :
    (readIndexFrom order start value offset rest).2.rest.length ≤ rest.length := by
  fun_induction readIndexFrom order start value offset rest with
  | case1 => simp
  | case2 => simp
  | case3 => simp
  | case4 _ _ _ _ _ _ ih => exact Nat.le_succ_of_le ih

namespace Advances

variable {α β : Type}

theorem pure (a : α) : Advances (Pure.pure a) := fun _ => Nat.le_refl _

theorem throw (error : FormatError) : Advances (MonadExcept.throw error : CursorStep α) :=
  fun _ => Nat.le_refl _

theorem ofExcept (answer : Except FormatError α) : Advances (Step.ofExcept answer) :=
  fun _ => Nat.le_refl _

theorem get : Advances (MonadState.get : CursorStep Cursor) := fun _ => Nat.le_refl _

theorem bind {first : CursorStep α} {next : α → CursorStep β} (hfirst : Advances first)
    (hnext : ∀ a, Advances (next a)) : Advances (first >>= next) := by
  intro cursor
  rw [Step.outcome_bind]
  have h := hfirst cursor
  split <;> rename_i heq <;> rw [heq] at h
  · exact Nat.le_trans (hnext _ _) h
  · exact h

theorem map {step : CursorStep α} (f : α → β) (h : Advances step) : Advances (f <$> step) := by
  rw [← bind_pure_comp]
  exact h.bind fun _ => pure _

theorem position : Advances Cursor.position := get.bind fun _ => pure _

theorem readBytes (count : Nat) : Advances (Cursor.readBytes count) := by
  intro cursor
  simp only [Cursor.readBytes, Step.outcome_of]
  split
  · exact Nat.le_refl _
  · simp

theorem readWord : Advances Cursor.readWord :=
  get.bind fun _ => (readBytes 4).bind fun _ => pure _

theorem readIndex : Advances Cursor.readIndex :=
  fun _ => length_readIndexFrom_le ..

end Advances

/-- Reading a byte leaves fewer. -/
theorem length_nextByte_lt {cursor left : Cursor} {byte : UInt8}
    (h : nextByte.outcome cursor = (.ok byte, left)) : left.rest.length < cursor.rest.length := by
  simp only [nextByte, Step.outcome_of] at h
  split at h
  · simp at h
  · rename_i hrest
    simp only [Prod.mk.injEq] at h
    simp [← h.2, hrest]

end Cursor

end Playprint
