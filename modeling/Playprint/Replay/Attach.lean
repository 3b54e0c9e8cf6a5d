import Playprint.Replay

/-!
Attaching roles. A role is attached once: under the role of another actor in the same set while the byte
code runs, or else directly to its set when the byte code of a group has ended.
-/

namespace Playprint.Replay

variable {K : Catalog} {σ : Type}

/-- Hangs the role of an actor on a set. -/
def hang (set : SetHandle) (parent : Option ObjectId) (child : ObjectId) : ReplayStep K σ Unit :=
  onWorld (fun error : AttachError => .format (.attachRejected error.reason))
    (World.onStage set fun className stage => K.stages.attach className parent child stage)

/-- The slot at an index. -/
def slotAt (index : Nat) : ReplayStep K σ (Slot K) := do
  let slots := (← get).slots
  match slots[index]? with
  | some slot => return slot
  | none => refuse (.actorSlot index slots.size)

/-- The role of a slot. -/
def roleOf (index : Nat) (slot : Slot K) : ReplayStep K σ (Role K) :=
  match slot.record.role with
  | some role => pure role
  | none => refuse (.missingRole index)

/-- Attaches the role of one slot under that of another one in the same set. -/
def attachChild (parent child : Nat) : ReplayStep K σ Unit := do
  let parentSlot ← slotAt parent
  let childSlot ← slotAt child
  if parent = child then refuse (.selfParent child)
  if childSlot.attached then refuse (.roleAlreadyAttached child)
  match parentSlot.record.binding with
  | none => refuse .noActiveSet
  | some binding =>
    if childSlot.record.binding.map SetBinding.handle ≠ some binding.handle then
      refuse (.setMismatch parent child)
    let parentRole ← roleOf parent parentSlot
    let childRole ← roleOf child childSlot
    hang binding.handle (some parentRole.actor.id) childRole.actor.id
    setSlot child fun slot => { slot with attached := true }

/-- Hangs the role of a slot on its set, if there is one that was not attached. -/
def attachRest (index : Nat) : ReplayStep K σ Unit := do
  match (← get).slots[index]? with
  | some ⟨⟨_, _, _, some role, some binding⟩, false⟩ =>
    hang binding.handle none role.actor.id
    setSlot index fun slot => { slot with attached := true }
  | _ => pure ()

/-- Hangs every role that was not attached on its set, in the order of the slots. -/
def lastCall : ReplayStep K σ Unit := do
  Step.forEach (List.range (← get).slots.size) attachRest

end Playprint.Replay
