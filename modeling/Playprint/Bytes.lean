/-!
Byte strings, and their text in hexadecimal.
-/

namespace Playprint

/-- A byte string. -/
abbrev Bytes := List UInt8

namespace Bytes

/-- The `count` bytes from offset `start` on, when there are that many. -/
def slice? (data : Bytes) (start count : Nat) : Option Bytes :=
  let part := (data.drop start).take count
  if part.length = count then some part else none

/-- The bytes of a text in UTF-8. -/
def ofText (text : String) : Bytes :=
  text.toList.flatMap String.utf8EncodeChar

theorem length_of_slice? {data part : Bytes} {start count : Nat}
    (h : data.slice? start count = some part) : part.length = count := by
  simp only [slice?] at h
  split at h
  · rename_i hl
    exact Option.some.inj h ▸ hl
  · simp at h

theorem le_of_slice? {data part : Bytes} {start count : Nat} (hc : 0 < count)
    (h : data.slice? start count = some part) : start + count ≤ data.length := by
  simp only [slice?] at h
  split at h
  · rename_i hl
    simp only [List.length_take, List.length_drop] at hl
    omega
  · simp at h

end Bytes

namespace Hex

/-- The lowercase digit of a value below sixteen. -/
def digit (value : Nat) : Char :=
  Nat.digitChar (value % 16)

/-- A number in lowercase hexadecimal, with zeros in front up to `width` digits. -/
def ofNat (width value : Nat) : String :=
  let digits := Nat.toDigits 16 value
  String.ofList (List.replicate (width - digits.length) '0' ++ digits)

/-- A byte string as two lowercase digits a byte. -/
def ofBytes (data : Bytes) : String :=
  String.ofList (data.flatMap fun byte => [digit (byte.toNat / 16), digit byte.toNat])

end Hex

end Playprint
