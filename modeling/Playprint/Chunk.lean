import Playprint.Stream

/-!
Chunks: a tag, a size, for some tags a form, then the payload and, after a payload of odd size, one pad
byte. Main statement: a chunk read from data has its whole header inside the data.
-/

namespace Playprint

/-- A chunk found in a container. -/
structure Chunk where
  tag : Tag
  /-- Bytes of payload, without pad byte. -/
  size : UInt32
  /-- The form of a chunk that holds other chunks, blank for all others. -/
  form : Tag
  /-- Where the payload starts. -/
  offset : Nat

namespace Chunk

/-- Whether the chunk holds other chunks. -/
def hasForm (chunk : Chunk) : Bool :=
  chunk.tag.hasForm

/-- Bytes in front of the payload. -/
def headerLength (chunk : Chunk) : Nat :=
  if chunk.hasForm then 12 else 8

/-- Where the header starts. -/
def start (chunk : Chunk) : Nat :=
  chunk.offset - chunk.headerLength

/-- The payload with its pad byte. -/
def paddedSize (chunk : Chunk) : Nat :=
  chunk.size.toNat + chunk.size.toNat % 2

/-- Where the payload stops. -/
def stop (chunk : Chunk) : Nat :=
  chunk.offset + chunk.size.toNat

/-- Where the next chunk starts. -/
def finish (chunk : Chunk) : Nat :=
  chunk.offset + chunk.paddedSize

/-- The word at an offset, when it lies in the data. -/
def wordAt? (order : ByteOrder) (data : Bytes) (offset : Nat) : Option UInt32 :=
  (data.slice? offset 4).map order.word

/-- The chunk whose header starts at an offset, when that header lies in the data. -/
def at? (order : ByteOrder) (data : Bytes) (start : Nat) : Option Chunk := do
  let tag := Tag.mk (← wordAt? order data start)
  let size ← wordAt? order data (start + 4)
  if tag.hasForm then
    let form ← wordAt? order data (start + 8)
    return { tag, size, form := ⟨form⟩, offset := start + 12 }
  else
    return { tag, size, form := Tag.blank, offset := start + 8 }

/-- Reads a chunk header and stops at the payload. -/
def readHeader (order : ByteOrder) : Reading Chunk :=
  Step.of fun stream =>
    match at? order stream.data stream.pos with
    | some chunk => (.ok chunk, stream.seek chunk.offset)
    | none => (.error (.io .readingWord .endOfData), stream.seek stream.data.length)

/-- Reads the whole payload, wherever the stream stands. -/
def readPayload (chunk : Chunk) : Reading Bytes := do
  Stream.ensureAvailable chunk.offset chunk.size.toNat
  Stream.goto chunk.offset
  Stream.take .readingPayload chunk.size.toNat

/-- Leaves the chunk, however much of it was read. -/
def ascend (chunk : Chunk) : Reading Unit :=
  Stream.goto chunk.finish

theorem le_of_wordAt? {order : ByteOrder} {data : Bytes} {offset : Nat} {word : UInt32}
    (h : wordAt? order data offset = some word) : offset + 4 ≤ data.length := by
  simp only [wordAt?, Option.map_eq_some_iff] at h
  obtain ⟨part, hpart, _⟩ := h
  exact Bytes.le_of_slice? (by omega) hpart

theorem offset_of_at? {order : ByteOrder} {data : Bytes} {start : Nat} {chunk : Chunk}
    (h : at? order data start = some chunk) :
    chunk.offset = start + chunk.headerLength ∧ chunk.offset ≤ data.length := by
  simp only [at?, bind, Option.bind_eq_some_iff] at h
  obtain ⟨tag, _, size, hsize, h⟩ := h
  have hs := le_of_wordAt? hsize
  split at h
  · rename_i hform
    simp only [Option.bind_eq_some_iff, pure, Option.some.injEq] at h
    obtain ⟨form, hword, rfl⟩ := h
    have hlast := le_of_wordAt? hword
    exact ⟨by simp [headerLength, hasForm, hform], hlast⟩
  · rename_i hform
    simp only [pure, Option.some.injEq] at h
    subst h
    exact ⟨by simp [headerLength, hasForm, hform], hs⟩

theorem le_headerLength (chunk : Chunk) : 8 ≤ chunk.headerLength := by
  simp only [headerLength]
  split <;> omega

theorem offset_le_finish (chunk : Chunk) : chunk.offset ≤ chunk.finish := by
  simp only [finish]
  omega

/-- The chunk after one that was read starts nearer to the end of the data. -/
theorem finish_measure {order : ByteOrder} {data : Bytes} {start : Nat} {chunk : Chunk}
    (h : at? order data start = some chunk) :
    data.length - chunk.finish < data.length - start := by
  have ⟨hoffset, hle⟩ := offset_of_at? h
  have := le_headerLength chunk
  have := offset_le_finish chunk
  omega

end Chunk

end Playprint
