import Playprint.Manifest
import Playprint.Object

/-!
The sets of a title, each kept once it was built, and the log of the actors that were created.
-/

namespace Playprint

/-- One set of the title. -/
structure SetSlot where
  name : String
  /-- The table entry of the chunk that builds the set. -/
  chunk : UInt32
  /-- The set, once built. -/
  set : Option SetHandle

/-- The sets of a title, by index. -/
structure SetTable where
  slots : List SetSlot

namespace SetTable

/-- The table of a manifest, with nothing built yet. -/
def ofEntries (entries : List SetEntry) : SetTable :=
  ⟨entries.map fun entry => ⟨entry.name, entry.chunk, none⟩⟩

/-- How many sets there are. -/
def size (table : SetTable) : Nat :=
  table.slots.length

/-- The failure of an index beyond the table. -/
def outOfRange (table : SetTable) (index : Nat) : FormatError :=
  .tableIndex .set index table.size

/-- The slot at an index. -/
def slot (table : SetTable) (index : Nat) : Except FormatError SetSlot :=
  match table.slots[index]? with
  | some slot => .ok slot
  | none => .error (table.outOfRange index)

/-- The set at an index, when it was built. -/
def cached? (table : SetTable) (index : Nat) : Option SetHandle :=
  table.slots[index]?.bind SetSlot.set

/-- Keeps a set that was built. -/
def install (table : SetTable) (index : Nat) (set : SetHandle) : Except FormatError SetTable :=
  if index < table.size then
    .ok ⟨table.slots.modify index fun slot => { slot with set := some set }⟩
  else .error (table.outOfRange index)

end SetTable

/-- An actor that was created. -/
structure LoggedObject where
  id : ObjectId
  typeIndex : Nat
  className : String

/-- The log of all actors created in the run of a title. -/
structure ObjectLog where
  nextId : Nat
  objects : Array LoggedObject

namespace ObjectLog

/-- A log without entries. -/
def empty : ObjectLog := ⟨0, #[]⟩

/-- Logs an actor and gives it the next identity. -/
def register (log : ObjectLog) (typeIndex : Nat) (className : String) : ObjectId × ObjectLog :=
  (⟨log.nextId⟩, ⟨log.nextId + 1, log.objects.push ⟨⟨log.nextId⟩, typeIndex, className⟩⟩)

/-- The actor of an identity. -/
def find? (log : ObjectLog) (id : ObjectId) : Option LoggedObject :=
  log.objects.find? (·.id = id)

end ObjectLog

end Playprint
