import Playprint.Text.Decimal
import Playprint.Bytes

/-!
Property values, as byte code copies them to actors and sets. A property is raw bytes; a property array
is elements of one size packed back to back.
-/

namespace Playprint

/-- What is known of the bytes of a property. -/
inductive PropertyKind
  | unknown
  /-- The bytes are the decimal text of the index of a media reference. -/
  | mediaRef
  deriving DecidableEq

/-- How summaries name the kind. -/
def PropertyKind.name : PropertyKind → String
  | unknown => "Unknown"
  | mediaRef => "MediaRef"

/-- A property value. -/
structure Property where
  kind : PropertyKind
  data : Bytes

namespace Property

/-- A value of which only the bytes are known. -/
def unknown (data : Bytes) : Property := ⟨.unknown, data⟩

/-- The value that points at a media reference. -/
def mediaRef (index : Nat) : Property :=
  ⟨.mediaRef, (Decimal.ofNat index).map Char.toUInt8⟩

/-- The index of the media reference that the value points at. -/
def mediaRefIndex? (property : Property) : Option Nat :=
  match property.kind with
  | .unknown => none
  | .mediaRef => Decimal.unsigned? UInt32.size (property.data.map fun byte => Char.ofNat byte.toNat)

end Property

/-- Elements of one size, packed back to back. -/
structure PropertyArray where
  elementSize : Nat
  count : Nat
  data : Bytes

namespace PropertyArray

/-- The element at an index, when it lies in the data. -/
def element? (array : PropertyArray) (index : Nat) : Option Bytes :=
  if index < array.count ∧ 0 < array.elementSize then
    array.data.slice? (index * array.elementSize) array.elementSize
  else none

/-- Cuts bytes into pieces of `size`, with one byte for size zero; a shorter rest is left out. -/
def pieces (size : Nat) (data : Bytes) : List Bytes :=
  if max size 1 ≤ data.length then
    data.take (max size 1) :: pieces size (data.drop (max size 1))
  else []
termination_by data.length
decreasing_by
  rw [List.length_drop]
  omega

/-- All elements in order. -/
def elements (array : PropertyArray) : List Bytes :=
  pieces array.elementSize array.data

end PropertyArray

end Playprint
