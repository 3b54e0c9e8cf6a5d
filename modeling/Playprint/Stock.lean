import Playprint.Catalog

/-!
General-purpose classes, for titles that need nothing but the graph of their objects. They refuse nothing
except to put one actor on a stage twice, and keep no journal.
-/

namespace Playprint.Stock

/-- An actor that keeps its properties. -/
structure Actor where
  properties : PropertyBag
  /-- The class of the set around the actor when it was initialised. -/
  initSet : Option String
  initialized : Bool

/-- A role that knows the class of its set. -/
structure Role where
  setClass : String

/-- A set that keeps its properties and the roles hung on it. -/
structure Stage where
  properties : PropertyBag
  /-- The roles on the set, in the order in which they came. -/
  attachments : List Attachment
  initCount : Nat

/-- A group that knows whether it was initialised. -/
structure Group where
  initialized : Bool

/-- A scene that knows whether it was initialised. -/
structure Scene where
  initialized : Bool

/-- A media reference that keeps its media, in order. -/
structure MediaRef where
  media : List RegisteredMedia

namespace Actor

/-- An actor as it is built. -/
def fresh : Actor := ⟨.empty, none, false⟩

/-- Sets a property. -/
def setProperty (name : String) (value : Property) (actor : Actor) : Actor :=
  { actor with properties := actor.properties.set name value }

/-- Sets a property array. -/
def setArray (name : String) (value : PropertyArray) (actor : Actor) : Actor :=
  { actor with properties := actor.properties.setArray name value }

/-- Initialises the actor. -/
def init (context : InitContext) (actor : Actor) : Actor :=
  { actor with initSet := context.setClass, initialized := true }

end Actor

namespace Stage

/-- A set as it is built. -/
def fresh : Stage := ⟨.empty, [], 0⟩

/-- Sets a property. -/
def setProperty (name : String) (value : Property) (stage : Stage) : Stage :=
  { stage with properties := stage.properties.set name value }

/-- Sets a property array. -/
def setArray (name : String) (value : PropertyArray) (stage : Stage) : Stage :=
  { stage with properties := stage.properties.setArray name value }

/-- Whether the role of an actor is on the set. -/
def holds (stage : Stage) (child : ObjectId) : Bool :=
  stage.attachments.any (·.child = child)

/-- Hangs the role of an actor on the set, unless it is there already. -/
def attach (parent : Option ObjectId) (child : ObjectId) (stage : Stage) :
    Except AttachError Stage :=
  if stage.holds child then .error ⟨s!"actor {child.text} is already on stage"⟩
  else .ok { stage with attachments := stage.attachments ++ [⟨parent, child⟩] }

/-- Initialises the set. -/
def init (stage : Stage) : Stage :=
  { stage with initCount := stage.initCount + 1 }

end Stage

/-- What `key` finds when `name` is the only key. -/
def onlyKey {α : Type} (name : String) (value : α) (key : String) : Option α :=
  if key = name then some value else none

/-- The stock classes. -/
def catalog : Catalog where
  Journal := Unit
  Actor := Actor
  Role := Role
  Stage := Stage
  Group := Group
  Scene := Scene
  MediaRef := MediaRef
  actors := {
    build? := onlyKey "PropertyBagActor" fun _ => pure Actor.fresh
    setProperty := fun _ name value actor => pure (actor.setProperty name value)
    setArray := fun _ name value actor => pure (actor.setArray name value)
    init := fun _ context actor => pure (actor.init context)
    properties := Actor.properties }
  roles := {
    build? := onlyKey "StockRole" fun _ _ setClass => pure ⟨setClass⟩ }
  stages := {
    build? := onlyKey "StageSet" fun _ => pure Stage.fresh
    setProperty := fun _ name value stage => pure (stage.setProperty name value)
    setArray := fun _ name value stage => pure (stage.setArray name value)
    attach := fun _ parent child stage => Step.ofExcept (stage.attach parent child)
    init := fun _ _ stage => pure stage.init
    properties := Stage.properties
    attachments := Stage.attachments }
  groups := {
    build? := onlyKey "StockGroup" fun _ => pure ⟨false⟩
    join := fun _ _ _ group => pure group
    init := fun _ _ _ => pure ⟨true⟩ }
  scenes := {
    build? := onlyKey "StockScene" fun _ => pure ⟨false⟩
    join := fun _ _ scene => pure scene
    init := fun _ _ _ => pure ⟨true⟩ }
  mediaRefs := {
    build? := onlyKey "StockMediaRef" fun _ => pure ⟨[]⟩
    register := fun _ flags data mediaRef => pure ⟨mediaRef.media ++ [⟨flags, data⟩]⟩
    media := MediaRef.media }

end Playprint.Stock
