import Playprint.ByteCode.Cursor
import Playprint.ByteCode.Opcode

/-!
Instructions of the byte code with their operands, and their bytes. An index operand has no length of its
own, so the bytes of an instruction that ends in one can be read back only if another opcode follows.
-/

namespace Playprint

/-- An opcode with its operands. -/
inductive Instruction
  | createActor (typeIndex : Nat)
  | setSet (set : Nat)
  | bindRole (typeIndex : Nat)
  | parentRole (slot : Nat)
  | childRole (slot : Nat)
  | setPropertyOffset (property : Nat)
  | setPropertyLength (length : Nat)
  /-- The data has the length that was set last. -/
  | copyProperty (data : Bytes)
  | copyMediaRef (media : Nat)
  | endActorGroup
  | copyDynamicProperty (data : Bytes)
  /-- The data holds `count` elements of the length that was set last. -/
  | copyArrayProperty (count : UInt32) (data : Bytes)
  | createSet (typeIndex : Nat)
  | endSet

namespace Instruction

/-- The opcode of an instruction. -/
def opcode : Instruction → Opcode
  | createActor _ => .createActor
  | setSet _ => .setSet
  | bindRole _ => .bindRole
  | parentRole _ => .parentRole
  | childRole _ => .childRole
  | setPropertyOffset _ => .setPropertyOffset
  | setPropertyLength _ => .setPropertyLength
  | copyProperty _ => .copyProperty
  | copyMediaRef _ => .copyMediaRef
  | endActorGroup => .endActorGroup
  | copyDynamicProperty _ => .copyDynamicProperty
  | copyArrayProperty _ _ => .copyArrayProperty
  | createSet _ => .createSet
  | endSet => .endSet

/-- The bytes of the operands of an instruction. -/
def operandBytes (order : ByteOrder) : Instruction → Bytes
  | createActor index | setSet index | bindRole index | parentRole index | childRole index
  | setPropertyOffset index | setPropertyLength index | copyMediaRef index | createSet index =>
    Cursor.encodeIndex index
  | copyProperty data => data
  | copyDynamicProperty data => order.wordBytes (UInt32.ofNat data.length) ++ data
  | copyArrayProperty count data => order.wordBytes count ++ data
  | endActorGroup | endSet => []

/-- The bytes of an instruction. -/
def encode (order : ByteOrder) (instruction : Instruction) : Bytes :=
  instruction.opcode.byte :: instruction.operandBytes order

/-- The bytes of instructions one after another. -/
def encodeAll (order : ByteOrder) (instructions : List Instruction) : Bytes :=
  instructions.flatMap (encode order)

end Instruction

namespace Opcode

/-- Reads the operands of an opcode; `length` is the property length in force. -/
def readOperands (op : Opcode) (length : Nat) : CursorStep Instruction :=
  match op with
  | .beginActorSet => do throw (.invalidOpcode op.byte ((← Cursor.position) - 1))
  | .createActor => .createActor <$> Cursor.readIndex
  | .setSet => .setSet <$> Cursor.readIndex
  | .bindRole => .bindRole <$> Cursor.readIndex
  | .parentRole => .parentRole <$> Cursor.readIndex
  | .childRole => .childRole <$> Cursor.readIndex
  | .setPropertyOffset => .setPropertyOffset <$> Cursor.readIndex
  | .setPropertyLength => .setPropertyLength <$> Cursor.readIndex
  | .copyProperty => .copyProperty <$> Cursor.readBytes length
  | .copyMediaRef => .copyMediaRef <$> Cursor.readIndex
  | .endActorGroup => pure .endActorGroup
  | .copyDynamicProperty => do
    let size ← Cursor.readWord
    .copyDynamicProperty <$> Cursor.readBytes size.toNat
  | .copyArrayProperty => do
    let count ← Cursor.readWord
    if UInt32.size ≤ count.toNat * length then throw (.propertySizeOverflow count.toNat length)
    .copyArrayProperty count <$> Cursor.readBytes (count.toNat * length)
  | .createSet => .createSet <$> Cursor.readIndex
  | .endSet => pure .endSet

theorem advances_readOperands (op : Opcode) (length : Nat) :
    Cursor.Advances (op.readOperands length) := by
  cases op with
  | beginActorSet => exact Cursor.Advances.position.bind fun _ => .throw _
  | createActor | setSet | bindRole | parentRole | childRole | setPropertyOffset
  | setPropertyLength | copyMediaRef | createSet => exact Cursor.Advances.readIndex.map _
  | copyProperty => exact (Cursor.Advances.readBytes _).map _
  | copyDynamicProperty =>
    exact Cursor.Advances.readWord.bind fun _ => (Cursor.Advances.readBytes _).map _
  | copyArrayProperty =>
    refine Cursor.Advances.readWord.bind fun count => ?_
    split
    · exact (Cursor.Advances.throw _).bind fun _ => (Cursor.Advances.readBytes _).map _
    · exact (Cursor.Advances.pure _).bind fun _ => (Cursor.Advances.readBytes _).map _
  | endActorGroup | endSet => exact .pure _

end Opcode

/-- A byte-code stream under construction. -/
structure Assembly where
  order : ByteOrder
  stream : Bytes

namespace Assembly

/-- A stream with nothing in it. -/
def empty (order : ByteOrder) : Assembly := ⟨order, []⟩

/-- Appends an instruction. -/
def push (assembly : Assembly) (instruction : Instruction) : Assembly :=
  { assembly with stream := assembly.stream ++ instruction.encode assembly.order }

/-- Appends a byte that need not belong to any instruction. -/
def pushByte (assembly : Assembly) (byte : UInt8) : Assembly :=
  { assembly with stream := assembly.stream ++ [byte] }

/-- The payload of a group chunk: the type of the group, the number of its actors, the stream. -/
def groupPayload (assembly : Assembly) (typeIndex : UInt32) (actors : Nat) : Bytes :=
  assembly.order.wordBytes typeIndex ++ Cursor.encodeIndex actors ++ assembly.stream

/-- The payload of a set chunk: the stream and nothing else. -/
def setPayload (assembly : Assembly) : Bytes :=
  assembly.stream

end Assembly

end Playprint
