import Playprint.ByteCode.Instruction
import Playprint.Title

/-!
The state of a replay. A replay runs the byte code of one group or set chunk. Group chunks fill slots with
actors, bind them to sets through roles and hang the roles under each other; set chunks build one set. Sets
are asked of a host, which also logs the actors.
-/

namespace Playprint

/-- An actor that the replay created, and whether its role was attached. -/
structure Slot (K : Catalog) where
  record : ActorRecord K
  attached : Bool

/-- What instructions leave for later ones. -/
structure Registers where
  /-- The set that the next role is for. -/
  pendingSet : Option Nat
  /-- The slot that the next child goes under. -/
  parent : Option Nat
  /-- The property that is copied next. -/
  property : Option String
  /-- The size of a property, or of an element of a property array. -/
  length : Nat

/-- Registers at the start of a stream. -/
def Registers.fresh : Registers := ⟨none, none, none, 0⟩

/-- A world, with whatever drives the replays in it. -/
structure Session (K : Catalog) (σ : Type) where
  host : σ
  world : World K

/-- A step that a host takes. -/
abbrev SessionStep (K : Catalog) (σ : Type) := Step LoadError (Session K σ)

/-- What a replay asks of whoever drives it. -/
structure Host (K : Catalog) (σ : Type) where
  /-- The set at a position of the set table, built if need be. -/
  loadSet : Nat → SessionStep K σ SetHandle
  /-- Logs an actor of a type and class. -/
  register : Nat → String → σ → ObjectId × σ

/-- What a replay is given: its title, the kind of its chunk, and how many actors that declares. -/
structure Script (K : Catalog) where
  title : Title K
  kind : ChunkKind
  declared : Nat

namespace Script

variable {K : Catalog}

/-- The script of a group chunk. -/
def group (title : Title K) (declared : Nat) : Script K := ⟨title, .group, declared⟩

/-- The script of a set chunk, which declares no actors. -/
def set (title : Title K) : Script K := ⟨title, .set, 0⟩

/-- The name of the property at an index of the table for the kind of chunk. -/
def propertyName (script : Script K) (index : Nat) : Except FormatError String :=
  let (table, names) := match script.kind with
    | .group => (TableName.actorProperty, script.title.actorProperties)
    | .set => (TableName.setProperty, script.title.setProperties)
  match names[index]? with
  | some name => .ok name
  | none => .error (.tableIndex table index names.length)

end Script

/-- The state of a replay. -/
structure Replay (K : Catalog) (σ : Type) where
  slots : Array (Slot K)
  /-- The set that a set chunk built, with the index of its class. -/
  created : Option (Nat × SetHandle)
  registers : Registers
  session : Session K σ

/-- A step of a replay. -/
abbrev ReplayStep (K : Catalog) (σ : Type) := Step LoadError (Replay K σ)

namespace Replay

variable {K : Catalog} {σ α : Type}

/-- A replay that has created nothing. -/
def start (session : Session K σ) : Replay K σ := ⟨#[], none, .fresh, session⟩

/-- How many roles were created and not yet attached. -/
def unattachedRoles (replay : Replay K σ) : Nat :=
  (replay.slots.filter fun slot => slot.record.role.isSome && !slot.attached).size

/-- The actors that were created, in order. -/
def records (replay : Replay K σ) : List (ActorRecord K) :=
  replay.slots.toList.map Slot.record

/-- Fails for a cause in the byte code. -/
def refuse (error : FormatError) : ReplayStep K σ α :=
  throw (.format error)

/-- Runs a step on the session. -/
def onSession (step : SessionStep K σ α) : ReplayStep K σ α :=
  Step.on Replay.session (fun session replay => { replay with session }) step

/-- Runs a step on the world. -/
def onWorld {ε : Type} (tell : ε → LoadError) (step : WorldStep ε K α) : ReplayStep K σ α :=
  Step.on (fun replay => replay.session.world)
    (fun world replay => { replay with session := { replay.session with world } })
    (step.mapError tell)

/-- Changes the registers. -/
def setRegisters (f : Registers → Registers) : ReplayStep K σ Unit :=
  modify fun replay => { replay with registers := f replay.registers }

/-- Changes a slot. -/
def setSlot (index : Nat) (f : Slot K → Slot K) : ReplayStep K σ Unit :=
  modify fun replay => { replay with slots := replay.slots.modify index f }

end Replay

end Playprint
