import Playprint.Json
import Playprint.Loader

/-!
Summaries of what was loaded, as a report or as JSON.
-/

namespace Playprint

/-- A property or property array of an object. -/
structure PropertySummary where
  name : String
  kind : String
  size : Nat
  /-- The first bytes in hexadecimal. -/
  preview : String

/-- An actor of a group. -/
structure ActorSummary where
  id : Nat
  className : String
  typeIndex : Nat
  /-- The class of the role. -/
  role : Option String
  /-- The position of the set in the set table. -/
  set : Option Nat
  properties : List PropertySummary

/-- A group; one that came with a scene has no table entry of its own. -/
structure GroupSummary where
  tocIndex : Option Nat
  className : String
  actors : List ActorSummary

/-- A scene. -/
structure SceneSummary where
  tocIndex : Nat
  className : String
  groups : List GroupSummary

/-- A set of the set table, with a class if it was built. -/
structure SetSummary where
  index : Nat
  name : String
  chunk : Nat
  className : Option String
  attachments : Nat
  properties : List PropertySummary

/-- One piece of media. -/
structure MediaSummary where
  flags : Nat
  size : Nat

/-- A media reference. -/
structure MediaRefSummary where
  tocIndex : Nat
  className : String
  media : List MediaSummary

/-- All that was loaded. -/
structure LoadSummary where
  tocEntries : Nat
  groups : List GroupSummary
  scenes : List SceneSummary
  sets : List SetSummary
  mediaRefs : List MediaRefSummary

/-! ### Summarising -/

namespace PropertySummary

/-- The first sixteen bytes in hexadecimal. -/
def previewOf (data : Bytes) : String :=
  Hex.ofBytes (data.take 16)

/-- Properties first, then property arrays, each in the order of the names. -/
def ofBag (bag : PropertyBag) : List PropertySummary :=
  let values := bag.values.map fun (name, value) =>
    PropertySummary.mk name value.kind.name value.data.length (previewOf value.data)
  let arrays := bag.arrays.map fun (name, array) =>
    PropertySummary.mk name s!"array[{array.count}x{array.elementSize}]" array.data.length
      (previewOf array.data)
  values ++ arrays

end PropertySummary

variable {K : Catalog}

/-- The summary of an actor. -/
def ActorRecord.summary (record : ActorRecord K) : ActorSummary where
  id := record.id.value
  className := record.actor.className
  typeIndex := record.typeIndex
  role := record.role.map Role.className
  set := record.binding.map SetBinding.index
  properties := PropertySummary.ofBag (K.actors.properties record.actor.state)

/-- The summary of a group. -/
def Group.summary (group : Group K) (tocIndex : Option Nat) : GroupSummary where
  tocIndex
  className := group.className
  actors := group.members.map ActorRecord.summary

/-- The summary of a scene. -/
def Scene.summary (scene : Scene K) (tocIndex : Nat) : SceneSummary where
  tocIndex
  className := scene.className
  groups := scene.groups.map (·.summary none)

/-- The summary of a set table slot; what the set holds is looked up in the world. -/
def SetSlot.summary (slot : SetSlot) (world : World K) (index : Nat) : SetSummary :=
  let stage := slot.set.bind world.stage?
  { index
    name := slot.name
    chunk := slot.chunk.toNat
    className := stage.map Object.className
    attachments := match stage with
      | some stage => (K.stages.attachments stage.state).length
      | none => 0
    properties := match stage with
      | some stage => PropertySummary.ofBag (K.stages.properties stage.state)
      | none => [] }

/-- The summary of a media reference. -/
def mediaRefSummary (mediaRef : MediaRef K) (tocIndex : Nat) : MediaRefSummary where
  tocIndex
  className := mediaRef.className
  media := (K.mediaRefs.media mediaRef.state).map fun media =>
    ⟨media.flags.toNat, media.data.length⟩

/-- The summaries of all slots of the set table. -/
def Loader.setSummaries (loader : Loader K) : List SetSummary :=
  loader.host.sets.slots.mapIdx fun index slot => slot.summary loader.world index

/-! ### Writing -/

/-- A property as JSON. -/
def PropertySummary.toJson (summary : PropertySummary) : Json :=
  .object [("name", .string summary.name), ("kind", .string summary.kind),
    ("len", .natural summary.size), ("preview", .string summary.preview)]

/-- An actor as JSON. -/
def ActorSummary.toJson (summary : ActorSummary) : Json :=
  .object [("id", .natural summary.id), ("class", .string summary.className),
    ("type_index", .natural summary.typeIndex), ("role", .ofOption .string summary.role),
    ("set", .ofOption .natural summary.set),
    ("properties", .array (summary.properties.map PropertySummary.toJson))]

/-- A group as JSON. -/
def GroupSummary.toJson (summary : GroupSummary) : Json :=
  .object [("toc_index", .ofOption .natural summary.tocIndex),
    ("class", .string summary.className),
    ("actors", .array (summary.actors.map ActorSummary.toJson))]

/-- A scene as JSON. -/
def SceneSummary.toJson (summary : SceneSummary) : Json :=
  .object [("toc_index", .natural summary.tocIndex), ("class", .string summary.className),
    ("groups", .array (summary.groups.map GroupSummary.toJson))]

/-- A set as JSON. -/
def SetSummary.toJson (summary : SetSummary) : Json :=
  .object [("index", .natural summary.index), ("name", .string summary.name),
    ("chunk", .natural summary.chunk), ("class", .ofOption .string summary.className),
    ("attachments", .natural summary.attachments),
    ("properties", .array (summary.properties.map PropertySummary.toJson))]

/-- A piece of media as JSON. -/
def MediaSummary.toJson (summary : MediaSummary) : Json :=
  .object [("flags", .natural summary.flags), ("len", .natural summary.size)]

/-- A media reference as JSON. -/
def MediaRefSummary.toJson (summary : MediaRefSummary) : Json :=
  .object [("toc_index", .natural summary.tocIndex), ("class", .string summary.className),
    ("media", .array (summary.media.map MediaSummary.toJson))]

namespace LoadSummary

/-- All that was loaded as JSON. -/
def toJson (summary : LoadSummary) : Json :=
  .object [("toc_entries", .natural summary.tocEntries),
    ("groups", .array (summary.groups.map GroupSummary.toJson)),
    ("scenes", .array (summary.scenes.map SceneSummary.toJson)),
    ("sets", .array (summary.sets.map SetSummary.toJson)),
    ("media_refs", .array (summary.mediaRefs.map MediaRefSummary.toJson))]

/-- A summary with nothing loaded. -/
def empty (tocEntries : Nat) : LoadSummary := ⟨tocEntries, [], [], [], []⟩

/-- Adds a group. -/
def addGroup (summary : LoadSummary) (group : Group K) (tocIndex : Nat) : LoadSummary :=
  { summary with groups := summary.groups ++ [group.summary (some tocIndex)] }

/-- Adds a scene. -/
def addScene (summary : LoadSummary) (scene : Scene K) (tocIndex : Nat) : LoadSummary :=
  { summary with scenes := summary.scenes ++ [scene.summary tocIndex] }

/-- Adds a media reference. -/
def addMediaRef (summary : LoadSummary) (mediaRef : MediaRef K) (tocIndex : Nat) : LoadSummary :=
  { summary with mediaRefs := summary.mediaRefs ++ [mediaRefSummary mediaRef tocIndex] }

/-- The summary with the sets of a loader. -/
def withSets (summary : LoadSummary) (loader : Loader K) : LoadSummary :=
  { summary with sets := loader.setSummaries }

end LoadSummary

end Playprint
