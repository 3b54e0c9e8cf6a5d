import Playprint.Chunk

/-!
Walking a chain of sibling chunks: each chunk starts where the padded payload of the one before it ends,
and the chain goes on while a header can start at least eight bytes before the limit.
-/

namespace Playprint.Chunk

/-- Whether a header can start at a position below a limit. Positions are words of 64 bits, so the sum
wraps. -/
def headerFits (pos limit : Nat) : Bool :=
  (pos + 8) % UInt64.size ≤ limit

/-- What a walk does at a chunk. -/
inductive Verdict
  /-- Go on to the next sibling. -/
  | skip
  /-- This is the chunk that is looked for. -/
  | found
  /-- Give up here. -/
  | giveUp

/-- How a walk ends. -/
inductive Walk
  /-- At the chunk that was looked for. -/
  | found (chunk : Chunk)
  /-- Without such a chunk, at a position. -/
  | ended (pos : Nat)
  /-- At a header that is not wholly in the data. -/
  | cut

/-- Walks the siblings from a position on until the verdict on one of them ends the walk. -/
def walk (order : ByteOrder) (data : Bytes) (limit : Nat) (verdict : Chunk → Verdict) (pos : Nat) :
    Walk :=
  if headerFits pos limit then
    match _h : at? order data pos with
    | none => .cut
    | some chunk =>
      match verdict chunk with
      | .found => .found chunk
      | .giveUp => .ended chunk.offset
      | .skip => walk order data limit verdict chunk.finish
  else .ended pos
termination_by data.length - pos
decreasing_by exact finish_measure _h

/-- All siblings from a position on, or nothing when a header is not wholly in the data. -/
def siblings (order : ByteOrder) (data : Bytes) (limit pos : Nat) : Option (List Chunk) :=
  if headerFits pos limit then
    match _h : at? order data pos with
    | none => none
    | some chunk => (siblings order data limit chunk.finish).map (chunk :: ·)
  else some []
termination_by data.length - pos
decreasing_by exact finish_measure _h

/-- Walks from where the stream stands and stops at the payload of the chunk that was looked for;
`missing` is the failure when there is none. -/
def seekSibling (order : ByteOrder) (limit : Nat) (verdict : Chunk → Verdict)
    (missing : FormatError) : Reading Chunk :=
  Step.of fun stream =>
    match walk order stream.data limit verdict stream.pos with
    | .found chunk => (.ok chunk, stream.seek chunk.offset)
    | .ended pos => (.error missing, stream.seek pos)
    | .cut => (.error (.io .readingWord .endOfData), stream.seek stream.data.length)

end Playprint.Chunk
