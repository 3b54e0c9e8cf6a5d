import Playprint.Error

/-!
Identities of objects, and what can go wrong while objects are built and used.
-/

namespace Playprint

/-- The identity of an actor, given out in the order of creation. -/
structure ObjectId where
  value : Nat
  deriving DecidableEq

/-- How messages and reports show an identity. -/
def ObjectId.text (id : ObjectId) : String :=
  s!"#{id.value}"

/-- What a role knows about its actor. -/
structure ActorRef where
  id : ObjectId
  typeIndex : Nat
  /-- The position of the actor in its group. -/
  slot : Nat

/-- Which set of a world. Equal handles are one set, and what is done to it through one shows in all. -/
structure SetHandle where
  index : Nat
  deriving DecidableEq

/-- The classes of the set and the scene around an object that is initialised. -/
structure InitContext where
  setClass : Option String
  sceneClass : Option String

/-- An object of a class of the title. -/
structure Object (α : Type) where
  className : String
  state : α

/-- Why an object refused a property. -/
inductive PropertyError
  | unknown (name : String)
  | invalid (name reason : String)
  | decode (error : FormatError)

/-- The refusal as a report tells it. -/
def PropertyError.message : PropertyError → String
  | unknown name => s!"unknown property {name}"
  | invalid name reason => s!"property {name}: {reason}"
  | decode error => error.message

/-- Why a set refused to attach a role. -/
structure AttachError where
  reason : String

/-- The tables of classes a title has. -/
inductive ClassKind
  | actor
  | role
  | set
  | group
  | scene
  | mediaRef

/-- How messages name the kind. -/
def ClassKind.text : ClassKind → String
  | actor => "actor"
  | role => "role"
  | set => "set"
  | group => "group"
  | scene => "scene"
  | mediaRef => "media reference"

/-- Why an object could not be built. -/
inductive ConstructionError
  | classIndex (kind : ClassKind) (index size : Nat)
  | unbound (kind : ClassKind) (name : String)
  | init (className reason : String)
  | mediaRejected (className reason : String)
  | noBootScene

/-- The failure as a report tells it. -/
def ConstructionError.message : ConstructionError → String
  | classIndex kind index size => s!"{kind.text} class index {index} out of range ({size} classes)"
  | unbound kind name => s!"{kind.text} class {name} has no registered constructor"
  | init className reason => s!"initialising {className} failed: {reason}"
  | mediaRejected className reason => s!"media reference {className} rejected media: {reason}"
  | noBootScene => "title tables do not name a boot scene"

/-- Why a load failed. -/
inductive LoadError
  | format (error : FormatError)
  | construction (error : ConstructionError)

namespace LoadError

/-- The failure as a report tells it. -/
def message : LoadError → String
  | format error => error.message
  | construction error => error.message

/-- What the failure itself rests on, when that is told apart from the message. -/
def cause? : LoadError → Option String
  | format error => error.cause?
  | construction _ => none

end LoadError

end Playprint
