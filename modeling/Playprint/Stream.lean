import Playprint.Vlq

/-!
A seekable stream over bytes in memory. Seeking always succeeds, also beyond the end. A read either
moves on by as many bytes as it asked for, or fails and leaves the position at the end of the data; a
read of no bytes never fails.
-/

namespace Playprint

/-- Bytes in memory, with the position of the next read. -/
structure Stream where
  data : Bytes
  /-- The position of the next read, which may lie beyond the data. -/
  pos : Nat

/-- A step that reads from a stream. -/
abbrev Reading := Step FormatError Stream

namespace Stream

/-- A stream at its first byte. -/
def ofBytes (data : Bytes) : Stream := ⟨data, 0⟩

/-- The stream with other data, which is cut or filled up with zeros to the length there was before. -/
def overwrite (data : Bytes) (stream : Stream) : Stream :=
  let length := stream.data.length
  { stream with data := (data ++ List.replicate length 0).take length }

/-- Moves to a position. -/
def seek (pos : Nat) (stream : Stream) : Stream :=
  { stream with pos := pos }

/-- Moves to a position. -/
def goto (pos : Nat) : Reading Unit :=
  Step.update (seek pos)

/-- The position of the next read. -/
def position : Reading Nat := do
  return (← get).pos

/-- Reads `count` bytes. -/
def take (activity : Activity) (count : Nat) : Reading Bytes :=
  Step.of fun stream =>
    if count = 0 then (.ok [], stream)
    else match stream.data.slice? stream.pos count with
      | some part => (.ok part, stream.seek (stream.pos + count))
      | none => (.error (.io activity .endOfData), stream.seek stream.data.length)

/-- Reads a word. -/
def readWord (order : ByteOrder) : Reading UInt32 := do
  return order.word (← take .readingWord 4)

/-- Reads a half word. -/
def readHalf (order : ByteOrder) : Reading UInt16 := do
  return order.half (← take .readingHalf 2)

/-- The end of a range of `count` bytes from `start` on, no further than a 64-bit position reaches. -/
def rangeEnd (start count : Nat) : Nat :=
  min (start + count) (UInt64.size - 1)

/-- Fails unless the data holds `count` bytes from `start` on; reads nothing. -/
def ensureAvailable (start count : Nat) : Reading Unit :=
  Step.of fun stream =>
    let size := stream.data.length
    if size < rangeEnd start count then
      (.error (.truncated size (rangeEnd start count - size)), stream)
    else (.ok (), stream)

/-- Goes on reading a 32-bit variable-length integer at group `index`, with `left` groups allowed. -/
def readVlqFrom (index value : Nat) : Nat → Reading Nat
  | 0 => throw (.vlqOverflow 32)
  | left + 1 => do
    let byte := (← take .readingVlq 1).headD 0
    let value := value + Vlq.valueBits byte * Vlq.weight index
    if UInt32.size ≤ value then throw (.vlqOverflow 32)
    else if Vlq.continues byte then readVlqFrom (index + 1) value left
    else return value

/-- Reads a 32-bit variable-length integer of at most five bytes. -/
def readVlq : Reading Nat :=
  readVlqFrom 0 0 5

end Stream

/-- A buffer of fixed room, filled from the front. -/
structure Sink where
  room : Nat
  written : Bytes

namespace Sink

/-- A buffer with nothing in it. -/
def empty (room : Nat) : Sink := ⟨room, []⟩

/-- The whole buffer, with zeros where nothing was written. -/
def contents (sink : Sink) : Bytes :=
  sink.written ++ List.replicate (sink.room - sink.written.length) 0

/-- Writes bytes; as many as fit are kept when not all do. -/
def write (activity : Activity) (data : Bytes) : Step FormatError Sink Unit :=
  Step.of fun sink =>
    let free := sink.room - sink.written.length
    let filled := { sink with written := sink.written ++ data.take free }
    (if data.length ≤ free then .ok () else .error (.io activity .noRoom), filled)

/-- Writes a number as a variable-length integer. -/
def writeVlq (value : Nat) : Step FormatError Sink Unit :=
  write .writingVlq (Vlq.encode value)

end Sink

end Playprint
