import Playprint.Error

/-!
The table of contents of a container: entries of a label and an offset, appended up to a reserved count.
-/

namespace Playprint

/-- One entry of the table of contents. -/
structure TocEntry where
  label : UInt32
  /-- Where the header of the entry's chunk starts; zero when the entry points nowhere. -/
  offset : UInt32

/-- A table of contents, which only ever grows. -/
structure Toc where
  /-- How many entries there may be. -/
  reserved : Nat
  entries : Array TocEntry

namespace Toc

/-- How many entries can be reserved at most: an entry takes eight bytes, and the bytes of a table are counted
by a signed 64-bit number. -/
def maxReserved : Nat := (UInt64.size / 2 - 1) / 8

/-- An empty table with room for at least one entry. Beyond `maxReserved` there is no memory to start one in, and
what is answered here stands for nothing. -/
def withRoom (reserved : Nat) : Except FormatError Toc :=
  if reserved = 0 then .error .emptyToc else .ok ⟨reserved, #[]⟩

/-- How many entries there are. -/
def size (toc : Toc) : Nat :=
  toc.entries.size

/-- Appends an entry. Its index comes with the new table as a word, which starts again at zero behind the
last position that a word can hold. -/
def add (toc : Toc) (label offset : UInt32) : Except FormatError (UInt32 × Toc) :=
  if toc.size < toc.reserved then
    .ok (UInt32.ofNat toc.size, { toc with entries := toc.entries.push ⟨label, offset⟩ })
  else .error (.tocOverflow toc.reserved)

/-- Where the chunk of an entry starts. -/
def offset (toc : Toc) (index : Nat) : Except FormatError Nat :=
  match toc.entries[index]? with
  | none => .error (.tocIndex index toc.size)
  | some entry =>
    if entry.offset = 0 then .error (.invalidTocOffset index) else .ok entry.offset.toNat

end Toc

end Playprint
