import Playprint.Json.Parser
import Playprint.Json.Printer

/-!
The manifest of a title: the tables that byte code points into by index. It is kept as JSON; every table
may be missing, unknown fields are passed over, and an entry may be written as an array of its fields.
-/

namespace Playprint

/-- A class of the title. -/
structure ClassEntry where
  name : String
  /-- The constructor to build it with, when that is not found under the name of the class. -/
  builder : Option String
  deriving DecidableEq

/-- A property of a class. -/
structure PropertyEntry where
  className : String
  property : String
  deriving DecidableEq

/-- A set of the title. -/
structure SetEntry where
  name : String
  /-- The table entry of the chunk that builds the set. -/
  chunk : UInt32
  deriving DecidableEq

/-- The tables of a title. -/
structure Manifest where
  actorClasses : List ClassEntry
  roleClasses : List ClassEntry
  setClasses : List ClassEntry
  groupClasses : List ClassEntry
  sceneClasses : List ClassEntry
  mediaRefClasses : List ClassEntry
  actorProperties : List PropertyEntry
  setProperties : List PropertyEntry
  sets : List SetEntry
  /-- The table entry of the scene to start with. -/
  bootScene : Option UInt32
  deriving DecidableEq

/-- The key under which the constructor of a class is looked up. -/
def ClassEntry.builderKey (entry : ClassEntry) : String :=
  entry.builder.getD entry.name

/-! ### Reading -/

/-- Reads a class. -/
def ClassEntry.ofJson? (value : Json) : Option ClassEntry := do
  match ← value.record? ["name", "constructor"] with
  | [some name, builder] =>
    return ⟨← name.string?, ← Json.nullable? Json.string? (builder.getD .null)⟩
  | _ => none

/-- Reads a property. -/
def PropertyEntry.ofJson? (value : Json) : Option PropertyEntry := do
  match ← value.record? ["class", "property"] with
  | [some className, some property] => return ⟨← className.string?, ← property.string?⟩
  | _ => none

/-- Reads a set. -/
def SetEntry.ofJson? (value : Json) : Option SetEntry := do
  match ← value.record? ["name", "chunk"] with
  | [some name, some chunk] => return ⟨← name.string?, ← chunk.word?⟩
  | _ => none

namespace Manifest

/-- Reads a table, which is empty when it is missing. -/
def table? {α : Type} (read : Json → Option α) (value : Option Json) : Option (List α) :=
  match value with
  | some value => Json.list? read value
  | none => some []

/-- The names of the fields, in order. -/
def fieldNames : List String :=
  ["actor_classes", "role_classes", "set_classes", "group_classes", "scene_classes",
    "media_ref_classes", "actor_properties", "set_properties", "sets", "boot_scene"]

/-- Reads a manifest. -/
def ofJson? (value : Json) : Option Manifest := do
  match ← value.record? fieldNames with
  | [actors, roles, setClasses, groups, scenes, mediaRefs, actorProperties, setProperties, sets,
      bootScene] =>
    return {
      actorClasses := ← table? ClassEntry.ofJson? actors
      roleClasses := ← table? ClassEntry.ofJson? roles
      setClasses := ← table? ClassEntry.ofJson? setClasses
      groupClasses := ← table? ClassEntry.ofJson? groups
      sceneClasses := ← table? ClassEntry.ofJson? scenes
      mediaRefClasses := ← table? ClassEntry.ofJson? mediaRefs
      actorProperties := ← table? PropertyEntry.ofJson? actorProperties
      setProperties := ← table? PropertyEntry.ofJson? setProperties
      sets := ← table? SetEntry.ofJson? sets
      bootScene := ← Json.nullable? Json.word? (bootScene.getD .null) }
  | _ => none

/-- Reads a manifest from its text. -/
def ofText? (text : String) : Option Manifest :=
  (Json.parse? text).bind ofJson?

end Manifest

/-! ### Writing -/

/-- A class as JSON; a missing constructor key is left out. -/
def ClassEntry.toJson (entry : ClassEntry) : Json :=
  .object (("name", .string entry.name) ::
    match entry.builder with
    | some builder => [("constructor", .string builder)]
    | none => [])

/-- A property as JSON. -/
def PropertyEntry.toJson (entry : PropertyEntry) : Json :=
  .object [("class", .string entry.className), ("property", .string entry.property)]

/-- A set as JSON. -/
def SetEntry.toJson (entry : SetEntry) : Json :=
  .object [("name", .string entry.name), ("chunk", .natural entry.chunk.toNat)]

namespace Manifest

/-- A manifest as JSON, with all fields. -/
def toJson (manifest : Manifest) : Json :=
  .object [
    ("actor_classes", .array (manifest.actorClasses.map ClassEntry.toJson)),
    ("role_classes", .array (manifest.roleClasses.map ClassEntry.toJson)),
    ("set_classes", .array (manifest.setClasses.map ClassEntry.toJson)),
    ("group_classes", .array (manifest.groupClasses.map ClassEntry.toJson)),
    ("scene_classes", .array (manifest.sceneClasses.map ClassEntry.toJson)),
    ("media_ref_classes", .array (manifest.mediaRefClasses.map ClassEntry.toJson)),
    ("actor_properties", .array (manifest.actorProperties.map PropertyEntry.toJson)),
    ("set_properties", .array (manifest.setProperties.map PropertyEntry.toJson)),
    ("sets", .array (manifest.sets.map SetEntry.toJson)),
    ("boot_scene", Json.ofOption (fun scene => .natural scene.toNat) manifest.bootScene)]

/-- The text of a manifest. -/
def toText (manifest : Manifest) : String :=
  manifest.toJson.pretty

end Manifest

end Playprint
