import Playprint.Replay.Attach

/-!
What each instruction does. Before its operands are looked at, an opcode may already be refused: an actor
in a set chunk, or a role without an actor or a set that it could bind. `execute` is the whole effect of an
instruction, whether its operands were read from bytes or not.
-/

namespace Playprint

/-- A value that is assigned to a property. -/
inductive Assignment
  | single (value : Property)
  | array (value : PropertyArray)

namespace Replay

variable {K : Catalog} {σ : Type}

/-- The slot that the next role is for, and the position of the set it binds. -/
def roleTarget (replay : Replay K σ) : Except FormatError (Nat × Nat) :=
  if replay.slots.isEmpty then .error .noActiveActor
  else match replay.registers.pendingSet with
    | some set => .ok (replay.slots.size - 1, set)
    | none => .error .noPendingSet

/-- Refuses an opcode that cannot be run, whatever its operands. -/
def permit (script : Script K) (op : Opcode) (replay : Replay K σ) : Except FormatError Unit :=
  match op with
  | .createActor =>
    if script.kind = .set then .error (.opcodeNotAllowed op.byte script.kind) else .ok ()
  | .bindRole => replay.roleTarget.map fun _ => ()
  | _ => .ok ()

/-- Creates an actor in a new slot. -/
def createActor (script : Script K) (host : Host K σ) (typeIndex : Nat) : ReplayStep K σ Unit := do
  if script.declared ≤ (← get).slots.size then refuse (.actorOverflow script.declared)
  let actor ← onWorld .construction (script.title.newActor typeIndex)
  let id ← onSession do
    let session ← get
    let (id, changed) := host.register typeIndex actor.className session.host
    set { session with host := changed }
    return id
  modify fun replay =>
    { replay with slots := replay.slots.push ⟨⟨id, typeIndex, actor, none, none⟩, false⟩ }
  setRegisters fun registers => { registers with pendingSet := none, parent := none }

/-- Gives the newest actor a role in the pending set. -/
def bindRole (script : Script K) (host : Host K σ) (typeIndex : Nat) : ReplayStep K σ Unit := do
  match (← get).roleTarget with
  | .error error => refuse error
  | .ok (index, setIndex) =>
    let set ← onSession (host.loadSet setIndex)
    let slot ← slotAt index
    let actor : ActorRef := ⟨slot.record.id, slot.record.typeIndex, index⟩
    let role ← onWorld .construction (script.title.newRole typeIndex actor set)
    setSlot index fun slot =>
      { slot with record :=
        { slot.record with role := some role, binding := some ⟨setIndex, set⟩ } }

/-- Assigns a value to a property of the newest actor. -/
def assignToActor (name : String) (value : Assignment) : ReplayStep K σ Unit := do
  let slots := (← get).slots
  match slots.back? with
  | none => refuse .noActiveActor
  | some slot =>
    let actor := slot.record.actor
    let state ← onWorld (fun error : PropertyError => .format (.propertyRejected name error.message))
      (World.onJournal (match value with
        | .single value => K.actors.setProperty actor.className name value actor.state
        | .array value => K.actors.setArray actor.className name value actor.state))
    setSlot (slots.size - 1) fun slot =>
      { slot with record := { slot.record with actor := { actor with state } } }

/-- Assigns a value to a property of the set that was created. -/
def assignToSet (name : String) (value : Assignment) : ReplayStep K σ Unit := do
  match (← get).created with
  | none => refuse .noActiveSet
  | some (_, set) =>
    onWorld (fun error : PropertyError => .format (.propertyRejected name error.message))
      (World.onStage set fun className stage =>
        match value with
        | .single value => K.stages.setProperty className name value stage
        | .array value => K.stages.setArray className name value stage)

/-- Assigns a value to the property that was selected. -/
def assign (script : Script K) (value : Assignment) : ReplayStep K σ Unit := do
  match (← get).registers.property with
  | none => refuse .noPropertyName
  | some name =>
    match script.kind with
    | .group => assignToActor name value
    | .set => assignToSet name value

/-- The effect of an instruction whose opcode was permitted. -/
def perform (script : Script K) (host : Host K σ) : Instruction → ReplayStep K σ Unit
  | .createActor typeIndex => createActor script host typeIndex
  | .setSet set => setRegisters fun registers => { registers with pendingSet := some set }
  | .bindRole typeIndex => bindRole script host typeIndex
  | .parentRole slot => setRegisters fun registers => { registers with parent := some slot }
  | .childRole child => do
    match (← get).registers.parent with
    | none => refuse .noParentRole
    | some parent =>
      attachChild parent child
      setRegisters fun registers => { registers with parent := none }
  | .setPropertyOffset index => do
    match script.propertyName index with
    | .error error => refuse error
    | .ok name => setRegisters fun registers => { registers with property := some name }
  | .setPropertyLength length => setRegisters fun registers => { registers with length }
  | .copyProperty data | .copyDynamicProperty data => assign script (.single (.unknown data))
  | .copyArrayProperty count data => do
    assign script (.array ⟨(← get).registers.length, count.toNat, data⟩)
  | .copyMediaRef media => assign script (.single (.mediaRef media))
  | .createSet typeIndex => do
    let set ← onWorld .construction (script.title.newSet typeIndex)
    modify fun replay => { replay with created := some (typeIndex, set) }
  | .endActorGroup | .endSet => pure ()

/-- The effect of an instruction. -/
def execute (script : Script K) (host : Host K σ) (instruction : Instruction) :
    ReplayStep K σ Unit := do
  match permit script instruction.opcode (← get) with
  | .error error => refuse error
  | .ok () => perform script host instruction

/-- The effect of instructions one after another, up to the first that fails. -/
def executeAll (script : Script K) (host : Host K σ) (instructions : List Instruction) :
    ReplayStep K σ Unit :=
  Step.forEach instructions (execute script host)

end Replay

end Playprint
