import Playprint.Tag

/-!
What can be wrong with a container or with the byte code inside one, and how each cause is told.
-/

namespace Playprint

/-- Which chunk a byte-code stream was taken from. -/
inductive ChunkKind
  | group
  | set
  deriving DecidableEq

/-- How messages and reports name the kind. -/
def ChunkKind.label : ChunkKind → String
  | group => "group"
  | set => "set"

/-- What was going on when the medium failed. -/
inductive Activity
  | openingContainer
  | mappingContainer
  | readingFormTag
  | readingWord
  | readingHalf
  | readingPayload
  | readingVlq
  | writingVlq

/-- The activity as messages tell it. -/
def Activity.text : Activity → String
  | openingContainer => "opening Playprint"
  | mappingContainer => "memory-mapping Playprint"
  | readingFormTag => "reading Playprint form tag"
  | readingWord => "reading 32-bit value"
  | readingHalf => "reading 16-bit value"
  | readingPayload => "reading chunk payload"
  | readingVlq => "reading variable-length integer"
  | writingVlq => "writing variable-length integer"

/-- Why the medium failed. -/
inductive IoCause
  /-- The data ended inside the value that was read. -/
  | endOfData
  /-- The buffer had no room for all that was written. -/
  | noRoom
  /-- The file system refused, with its own account of the reason. -/
  | system (text : String)

/-- The cause as messages tell it. -/
def IoCause.text : IoCause → String
  | endOfData => "failed to fill whole buffer"
  | noRoom => "failed to write whole buffer"
  | system text => text

/-- The tables that byte code points into by index. -/
inductive TableName
  | actorProperty
  | setProperty
  | set

/-- The table as messages name it. -/
def TableName.text : TableName → String
  | actorProperty => "actor property"
  | setProperty => "set property"
  | set => "set"

/-- Everything that can go wrong while a container is read or its byte code replayed. -/
inductive FormatError
  | io (activity : Activity) (cause : IoCause)
  | unknownForm (tag : Tag)
  | chunkNotFound (wanted parent : Tag)
  | unexpectedChunk (expected found : Tag)
  | missingParent
  | unexpectedParent
  | notStarted
  | emptyToc
  | tocUnavailable
  | tocOverflow (reserved : Nat)
  | tocIndex (index used : Nat)
  | invalidTocOffset (index : Nat)
  | truncated (offset needed : Nat)
  | vlqOverflow (bits : Nat)
  | indexOverflow (offset : Nat)
  | invalidOpcode (opcode : UInt8) (offset : Nat)
  | opcodeNotAllowed (opcode : UInt8) (kind : ChunkKind)
  | noActiveActor
  | noPendingSet
  | noActiveSet
  | noParentRole
  | actorSlot (slot count : Nat)
  | actorOverflow (declared : Nat)
  | roleAlreadyAttached (slot : Nat)
  | selfParent (slot : Nat)
  | setMismatch (parent child : Nat)
  | missingRole (slot : Nat)
  | tableIndex (table : TableName) (index size : Nat)
  | noPropertyName
  | propertySizeOverflow (count elementSize : Nat)
  | propertyRejected (name reason : String)
  | setNotCreated (index : Nat)
  | attachRejected (reason : String)

namespace FormatError

/-- An opcode byte as messages show it. -/
def opcodeText (opcode : UInt8) : String :=
  "0x" ++ Hex.ofNat 2 opcode.toNat

/-- The error as a report tells it. -/
def message : FormatError → String
  | io activity cause => s!"i/o failure while {activity.text}: {cause.text}"
  | unknownForm tag => s!"unknown Playprint form tag {tag.quoted}"
  | chunkNotFound wanted parent => s!"chunk {wanted.quoted} not found inside {parent.quoted}"
  | unexpectedChunk expected found => s!"expected {expected.quoted} chunk, found {found.quoted}"
  | missingParent => "descend mode requires a parent chunk"
  | unexpectedParent => "top-level form search must not be given a parent chunk"
  | notStarted => "Playprint has not been opened with begin()"
  | emptyToc => "TOC must reserve at least one entry"
  | tocUnavailable => "TOC is unavailable"
  | tocOverflow reserved => s!"reserved TOC entries are full ({reserved})"
  | tocIndex index used => s!"TOC index {index} out of range ({used} entries)"
  | invalidTocOffset index => s!"TOC entry {index} has an invalid offset"
  | truncated offset needed => s!"stream truncated at offset {offset}: needed {needed} more bytes"
  | vlqOverflow bits => s!"variable-length value overflows {bits} bits"
  | indexOverflow offset => s!"invalid index in byte-code stream at offset {offset}"
  | invalidOpcode opcode offset => s!"invalid opcode {opcodeText opcode} at offset {offset}"
  | opcodeNotAllowed opcode kind =>
    s!"opcode {opcodeText opcode} is not allowed in a {kind.label} chunk"
  | noActiveActor => "no actor is currently active"
  | noPendingSet => "no set is pending for role binding"
  | noActiveSet => "no set is currently active"
  | noParentRole => "child role attachment without a parent role"
  | actorSlot slot count => s!"actor slot {slot} out of range ({count} actors)"
  | actorOverflow declared => s!"chunk declares {declared} actors but creates more"
  | roleAlreadyAttached slot => s!"role of actor slot {slot} is already attached"
  | selfParent slot => s!"actor slot {slot} cannot be its own parent"
  | setMismatch parent child =>
    s!"actors {parent} and {child} must share a common set to have a parent/child relationship"
  | missingRole slot => s!"actor slot {slot} has no role"
  | tableIndex table index size => s!"{table.text} index {index} out of range ({size} entries)"
  | noPropertyName => "no property selected before copy"
  | propertySizeOverflow count elementSize =>
    s!"property array of {count} x {elementSize} bytes overflows"
  | propertyRejected name reason => s!"unable to set property {name}: {reason}"
  | setNotCreated index => s!"set {index} was not created by its set chunk"
  | attachRejected reason => s!"unable to attach roles: {reason}"

/-- What the error itself rests on, when that is told apart from the message. -/
def cause? : FormatError → Option String
  | io _ cause => some cause.text
  | _ => none

end FormatError

end Playprint
