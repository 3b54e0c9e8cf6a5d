import Playprint.Chunk.Walk

/-!
Descending into chunks. A descent finds a chunk and leaves the stream at its payload; leaving the chunk
again is `Chunk.ascend`, and `Chunk.visit` pairs the two.
-/

namespace Playprint

/-- Which chunk to descend into. -/
inductive Descent
  /-- The one whose header is next in the stream. -/
  | next
  /-- The first child of the parent with a tag. -/
  | child (tag : Tag)
  /-- The first list with a form among the children of the parent. -/
  | list (form : Tag)
  /-- The outermost chunk, which must have a form. -/
  | outermost (form : Tag)

namespace Chunk

/-- The verdict of a search among the children of a parent that stops at `limit`: a child that claims
more than the parent holds ends the search. -/
def childVerdict (limit : Nat) (wanted : Chunk → Bool) (chunk : Chunk) : Verdict :=
  if limit < chunk.stop then .giveUp
  else if wanted chunk then .found
  else .skip

/-- Searches the payload of a parent for a child. -/
def seekChild (order : ByteOrder) (parent : Chunk) (name : Tag) (wanted : Chunk → Bool) :
    Reading Chunk := do
  Stream.goto parent.offset
  seekSibling order parent.stop (childVerdict parent.stop wanted) (.chunkNotFound name parent.tag)

/-- Finds a chunk and stops at its payload. -/
def descend (order : ByteOrder) (descent : Descent) (parent : Option Chunk) : Reading Chunk :=
  match descent, parent with
  | .next, _ => readHeader order
  | .child tag, some parent => seekChild order parent tag (·.tag == tag)
  | .list form, some parent =>
    seekChild order parent form fun chunk => chunk.tag == Tag.list && chunk.form == form
  | .child _, none | .list _, none => throw .missingParent
  | .outermost _, some _ => throw .unexpectedParent
  | .outermost form, none => do
    Stream.goto 0
    let chunk ← readHeader order
    if chunk.tag ≠ order.formTag then throw (.unknownForm chunk.tag)
    if chunk.form ≠ form then throw (.chunkNotFound form order.formTag)
    return chunk

/-- Descends, runs `body`, and leaves the chunk whatever `body` came to. -/
def visit {α : Type} (order : ByteOrder) (descent : Descent) (parent : Option Chunk)
    (body : Chunk → Reading α) : Reading α := do
  let chunk ← descend order descent parent
  (body chunk).closing chunk.ascend

end Chunk

/-- The byte order of the container, told from its first four bytes. A container is announced by the
form tag of its order as a word of that order, so a little-endian one starts with `ELPP`. -/
def detectOrder : Reading ByteOrder := do
  let saved ← Stream.position
  Stream.goto 0
  let word := ByteOrder.big.word (← Stream.take .readingFormTag 4)
  Stream.goto saved
  if word = Tag.ppbe.code then return .big
  else if word = ByteOrder.swapWord Tag.pple.code then return .little
  else throw (.unknownForm ⟨word⟩)

end Playprint
