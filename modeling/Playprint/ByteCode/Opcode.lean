import Playprint.Bytes

/-!
The opcodes of the byte code in group and set chunks. They occupy the bytes from `0x80` to `0x8e`; every
byte of an index operand lies below them.
-/

namespace Playprint

/-- An operation of the byte code. -/
inductive Opcode
  /-- Superseded by role bindings; no stream may hold it. -/
  | beginActorSet
  | createActor
  | setSet
  | bindRole
  | parentRole
  | childRole
  | setPropertyOffset
  | setPropertyLength
  | copyProperty
  | copyMediaRef
  | endActorGroup
  | copyDynamicProperty
  | copyArrayProperty
  | createSet
  | endSet
  deriving DecidableEq

namespace Opcode

/-- The byte of an opcode. -/
def byte : Opcode → UInt8
  | beginActorSet => 0x80
  | createActor => 0x81
  | setSet => 0x82
  | bindRole => 0x83
  | parentRole => 0x84
  | childRole => 0x85
  | setPropertyOffset => 0x86
  | setPropertyLength => 0x87
  | copyProperty => 0x88
  | copyMediaRef => 0x89
  | endActorGroup => 0x8a
  | copyDynamicProperty => 0x8b
  | copyArrayProperty => 0x8c
  | createSet => 0x8d
  | endSet => 0x8e

/-- All opcodes, in the order of their bytes. -/
def all : List Opcode :=
  [beginActorSet, createActor, setSet, bindRole, parentRole, childRole, setPropertyOffset,
    setPropertyLength, copyProperty, copyMediaRef, endActorGroup, copyDynamicProperty,
    copyArrayProperty, createSet, endSet]

/-- The opcode of a byte. -/
def ofByte? (byte : UInt8) : Option Opcode :=
  all.find? (·.byte = byte)

/-- The name of an opcode in listings. -/
def name : Opcode → String
  | beginActorSet => "beginActorSet"
  | createActor => "createActor"
  | setSet => "setSet"
  | bindRole => "bindRole"
  | parentRole => "parentRole"
  | childRole => "childRole"
  | setPropertyOffset => "setPropertyOffset"
  | setPropertyLength => "setPropertyLength"
  | copyProperty => "copyProperty"
  | copyMediaRef => "copyMediaRef"
  | endActorGroup => "endActorGroup"
  | copyDynamicProperty => "copyDynamicProperty"
  | copyArrayProperty => "copyArrayProperty"
  | createSet => "createSet"
  | endSet => "endSet"

theorem ofByte?_byte (op : Opcode) : ofByte? op.byte = some op := by
  cases op <;> rfl

end Opcode

end Playprint
