import Playprint.ByteCode.Cursor
import Playprint.Property
import Playprint.Text.Utf8

/-!
Typed reading of property bytes: words, variable-length integers and texts, one after another. A failed
read consumes nothing, but a text whose content is short has already consumed its length.
-/

namespace Playprint.Cursor

/-- Reads a word as a signed number. -/
def readInt : CursorStep Int := do
  return (← readWord).toInt32.toInt

/-- Reads a word as the bits of a floating-point number. -/
def readFloat : CursorStep Float32 := do
  return Float32.ofBits (← readWord)

/-- Reads a variable-length integer of at most 64 bits. -/
def readVlq : CursorStep Nat :=
  Step.of fun cursor =>
    match Vlq.decode cursor.rest with
    | .error e => (.error e, cursor)
    | .ok (value, used) => (.ok value,
      { cursor with offset := cursor.offset + used, rest := cursor.rest.drop used })

/-- Reads a text: a variable-length count of bytes, then UTF-8. -/
def readText : CursorStep String := do
  let size ← readVlq
  return Utf8.decodeLenient (← readBytes size)

/-- The bytes that `readText` reads a text from. -/
def encodeText (text : String) : Bytes :=
  let data := Bytes.ofText text
  Vlq.encode data.length ++ data

end Playprint.Cursor

namespace Playprint

/-- A reader of the bytes of a property. -/
def Property.reader (property : Property) (order : ByteOrder) : Cursor :=
  Cursor.ofBytes order property.data

end Playprint
