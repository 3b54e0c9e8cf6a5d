import Playprint.Media
import Playprint.Object
import Playprint.Property.Bag
import Playprint.Step

/-!
Catalogues: the classes a title can name, and what they do when they are asked. Objects keep a state of
the catalogue's own, and everything they do may leave a mark in a journal. A class is found under a key;
its objects carry the name the manifest gives the class.
-/

namespace Playprint

/-- One role hung on a set, under the role of another actor or directly on the set. -/
structure Attachment where
  parent : Option ObjectId
  child : ObjectId
  deriving DecidableEq

/-- One piece of media that a media reference holds. -/
structure RegisteredMedia where
  flags : UInt32
  data : Bytes

/-- What the actors of a catalogue do. The first text of each function is the class of the actor. -/
structure ActorClasses (Journal Actor : Type) where
  build? : String → Option (String → StateM Journal Actor)
  setProperty : String → String → Property → Actor → Step PropertyError Journal Actor
  setArray : String → String → PropertyArray → Actor → Step PropertyError Journal Actor
  init : String → InitContext → Actor → Step ConstructionError Journal Actor
  /-- The properties an inspector sees. -/
  properties : Actor → PropertyBag

/-- What the roles of a catalogue do: they are built for an actor and the class of a set. -/
structure RoleClasses (Journal Role : Type) where
  build? : String → Option (String → ActorRef → String → StateM Journal Role)

/-- What the sets of a catalogue do. The first text of each function is the class of the set. -/
structure StageClasses (Journal Stage : Type) where
  build? : String → Option (String → StateM Journal Stage)
  setProperty : String → String → Property → Stage → Step PropertyError Journal Stage
  setArray : String → String → PropertyArray → Stage → Step PropertyError Journal Stage
  /-- Attaches the role of an actor under that of another one, or directly to the set. -/
  attach : String → Option ObjectId → ObjectId → Stage → Step AttachError Journal Stage
  init : String → InitContext → Stage → Step ConstructionError Journal Stage
  /-- The properties an inspector sees. -/
  properties : Stage → PropertyBag
  /-- The attachments an inspector sees, in order. -/
  attachments : Stage → List Attachment

/-- What the groups of a catalogue do beside holding their members. -/
structure GroupClasses (Journal Group : Type) where
  build? : String → Option (String → StateM Journal Group)
  /-- An actor of a class joined the group. -/
  join : String → ObjectId → String → Group → StateM Journal Group
  init : String → InitContext → Group → Step ConstructionError Journal Group

/-- What the scenes of a catalogue do beside holding their groups. -/
structure SceneClasses (Journal Scene : Type) where
  build? : String → Option (String → StateM Journal Scene)
  /-- A group of a class joined the scene. -/
  join : String → String → Scene → StateM Journal Scene
  init : String → InitContext → Scene → Step ConstructionError Journal Scene

/-- What the media references of a catalogue do. -/
structure MediaRefClasses (Journal MediaRef : Type) where
  build? : String → Option (String → StateM Journal MediaRef)
  register : String → UInt32 → Bytes → MediaRef → Step ConstructionError Journal MediaRef
  /-- The media an inspector sees, in order. -/
  media : MediaRef → List RegisteredMedia

/-- The classes a title can name. -/
structure Catalog where
  /-- The record that objects keep of what was asked of them. -/
  Journal : Type
  Actor : Type
  Role : Type
  Stage : Type
  Group : Type
  Scene : Type
  MediaRef : Type
  actors : ActorClasses Journal Actor
  roles : RoleClasses Journal Role
  stages : StageClasses Journal Stage
  groups : GroupClasses Journal Group
  scenes : SceneClasses Journal Scene
  mediaRefs : MediaRefClasses Journal MediaRef

/-- A role: what an actor plays in a set. -/
structure Role (K : Catalog) where
  className : String
  actor : ActorRef
  state : K.Role

/-- The set an actor plays in. -/
structure SetBinding where
  /-- The position of the set in the set table. -/
  index : Nat
  handle : SetHandle
  deriving DecidableEq

/-- An actor that a group chunk created, with what was bound to it. -/
structure ActorRecord (K : Catalog) where
  id : ObjectId
  typeIndex : Nat
  actor : Object K.Actor
  role : Option (Role K)
  binding : Option SetBinding

/-- A group: its actors in the order of creation. -/
structure Group (K : Catalog) where
  className : String
  members : List (ActorRecord K)
  state : K.Group

/-- A scene: its groups in order. -/
structure Scene (K : Catalog) where
  className : String
  groups : List (Group K)
  state : K.Scene

/-- A media reference. -/
abbrev MediaRef (K : Catalog) := Object K.MediaRef

/-- Where objects live: all sets, each under its handle, and the journal. -/
structure World (K : Catalog) where
  stages : Array (Object K.Stage)
  journal : K.Journal

/-- A step that changes a world. -/
abbrev WorldStep (ε : Type) (K : Catalog) := Step ε (World K)

namespace World

variable {K : Catalog} {ε α : Type}

/-- A world without sets. -/
def empty (journal : K.Journal) : World K := ⟨#[], journal⟩

/-- Runs a step of an object on the journal. -/
def onJournal (step : Step ε K.Journal α) : WorldStep ε K α :=
  Step.on World.journal (fun journal world => { world with journal }) step

/-- Runs something that an object does without fail on the journal. -/
def noted (action : StateM K.Journal α) : WorldStep ε K α :=
  onJournal (liftM action)

/-- Adds a set. -/
def addStage (stage : Object K.Stage) : WorldStep ε K SetHandle :=
  Step.of fun world =>
    (.ok ⟨world.stages.size⟩, { world with stages := world.stages.push stage })

/-- Forgets all sets but the first `count`. -/
def keepStages (count : Nat) (world : World K) : World K :=
  { world with stages := world.stages.take count }

/-- The set of a handle. -/
def stage? (world : World K) (handle : SetHandle) : Option (Object K.Stage) :=
  world.stages[handle.index]?

/-- The class of the set of a handle. -/
def className? (world : World K) (handle : SetHandle) : Option String :=
  (world.stage? handle).map Object.className

/-- Lets a set act, and keeps what has become of it. Nothing happens for a handle of another world. -/
def onStage (handle : SetHandle) (action : String → K.Stage → Step ε K.Journal K.Stage) :
    WorldStep ε K Unit := do
  match (← get).stage? handle with
  | none => pure ()
  | some stage =>
    let state ← onJournal (action stage.className stage.state)
    modify fun world =>
      { world with stages := world.stages.set! handle.index { stage with state } }

end World

end Playprint
