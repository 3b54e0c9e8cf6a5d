import Playprint.Catalog
import Playprint.Manifest

/-!
Titles: a manifest bound to a catalogue. Objects are built by the index of their class in the manifest,
whose key is looked up in the catalogue.
-/

namespace Playprint

/-- A title: what its tables name, built from the classes of a catalogue. -/
structure Title (K : Catalog) where
  manifest : Manifest

namespace Title

variable {K : Catalog}

/-- The name of the class at an index, and what its key finds. -/
def resolve {β : Type} (kind : ClassKind) (classes : List ClassEntry) (build? : String → Option β)
    (index : Nat) : Except ConstructionError (String × β) :=
  match classes[index]? with
  | none => .error (.classIndex kind index classes.length)
  | some entry =>
    match build? entry.builderKey with
    | none => .error (.unbound kind entry.name)
    | some build => .ok (entry.name, build)

/-- Builds an actor. -/
def newActor (title : Title K) (index : Nat) : WorldStep ConstructionError K (Object K.Actor) := do
  let (name, build) ←
    Step.ofExcept (resolve .actor title.manifest.actorClasses K.actors.build? index)
  return ⟨name, ← World.noted (build name)⟩

/-- Builds a role for an actor in a set. -/
def newRole (title : Title K) (index : Nat) (actor : ActorRef) (set : SetHandle) :
    WorldStep ConstructionError K (Role K) := do
  let (name, build) ←
    Step.ofExcept (resolve .role title.manifest.roleClasses K.roles.build? index)
  let setClass := ((← get).className? set).getD ""
  return ⟨name, actor, ← World.noted (build name actor setClass)⟩

/-- Builds a set. -/
def newSet (title : Title K) (index : Nat) : WorldStep ConstructionError K SetHandle := do
  let (name, build) ←
    Step.ofExcept (resolve .set title.manifest.setClasses K.stages.build? index)
  World.addStage ⟨name, ← World.noted (build name)⟩

/-- Builds a group. -/
def newGroup (title : Title K) (index : Nat) : WorldStep ConstructionError K (Group K) := do
  let (name, build) ←
    Step.ofExcept (resolve .group title.manifest.groupClasses K.groups.build? index)
  return ⟨name, [], ← World.noted (build name)⟩

/-- Builds a scene. -/
def newScene (title : Title K) (index : Nat) : WorldStep ConstructionError K (Scene K) := do
  let (name, build) ←
    Step.ofExcept (resolve .scene title.manifest.sceneClasses K.scenes.build? index)
  return ⟨name, [], ← World.noted (build name)⟩

/-- Builds a media reference. -/
def newMediaRef (title : Title K) (index : Nat) : WorldStep ConstructionError K (MediaRef K) := do
  let (name, build) ←
    Step.ofExcept (resolve .mediaRef title.manifest.mediaRefClasses K.mediaRefs.build? index)
  return ⟨name, ← World.noted (build name)⟩

/-- The names of the actor properties, by index. -/
def actorProperties (title : Title K) : List String :=
  title.manifest.actorProperties.map PropertyEntry.property

/-- The names of the set properties, by index. -/
def setProperties (title : Title K) : List String :=
  title.manifest.setProperties.map PropertyEntry.property

end Title

end Playprint
