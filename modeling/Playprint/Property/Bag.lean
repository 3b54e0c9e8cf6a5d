import Playprint.Property

/-!
Property values by name, in the order of the names.
-/

namespace Playprint

/-- Puts a value under a name, in place of one that is there; names stay in order. -/
def insertNamed {α : Type} (name : String) (value : α) : List (String × α) → List (String × α)
  | [] => [(name, value)]
  | (key, old) :: rest =>
    if name < key then (name, value) :: (key, old) :: rest
    else if name = key then (name, value) :: rest
    else (key, old) :: insertNamed name value rest

/-- The properties and property arrays of an object. A name may stand for one of each. -/
structure PropertyBag where
  values : List (String × Property)
  arrays : List (String × PropertyArray)

namespace PropertyBag

/-- No properties. -/
def empty : PropertyBag := ⟨[], []⟩

/-- Sets a property. -/
def set (bag : PropertyBag) (name : String) (value : Property) : PropertyBag :=
  { bag with values := insertNamed name value bag.values }

/-- Sets a property array. -/
def setArray (bag : PropertyBag) (name : String) (value : PropertyArray) : PropertyBag :=
  { bag with arrays := insertNamed name value bag.arrays }

end PropertyBag

end Playprint
