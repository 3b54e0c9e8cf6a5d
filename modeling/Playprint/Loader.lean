import Playprint.Container
import Playprint.Replay.Run
import Playprint.Scope
import Playprint.SetTable

/-!
Loading a title from a container. Groups, scenes and media references are loaded from the chunks of table
entries. A set is loaded from its own chunk when the first role is bound to it, and kept from then on. While
a set or a scene is being built, the objects in it see it around them.
-/

namespace Playprint

/-- What the loader of a title keeps beside the world. -/
structure Desk where
  container : Container
  sets : SetTable
  objects : ObjectLog
  /-- The set around what is loaded, and the class of the scene. -/
  around : Surroundings SetHandle String

/-- The loader of a title. -/
abbrev Loader (K : Catalog) := Session K Desk

/-- A step of a loader. -/
abbrev LoadStep (K : Catalog) := Step LoadError (Loader K)

namespace Loader

variable {K : Catalog} {σ α : Type}

/-- A loader that has loaded nothing, over a container whose table of contents was read. -/
def start (title : Title K) (container : Container) (journal : K.Journal) : Loader K where
  host := {
    container
    sets := .ofEntries title.manifest.sets
    objects := .empty
    around := .none }
  world := .empty journal

/-- Fails for a cause in the container or its byte code. -/
def refuse (error : FormatError) : LoadStep K α :=
  throw (.format error)

/-- Changes what the loader keeps beside the world. -/
def updateDesk (f : Desk → Desk) : LoadStep K Unit :=
  modify fun loader => { loader with host := f loader.host }

/-- Runs a step on the container. -/
def onContainer (step : ContainerStep α) : LoadStep K α :=
  Step.on (fun loader => loader.host.container)
    (fun container loader => { loader with host := { loader.host with container } })
    (step.mapError .format)

/-- Runs a step on the world. -/
def onWorld (step : WorldStep ConstructionError K α) : LoadStep K α :=
  Step.on Session.world (fun world loader => { loader with world }) (step.mapError .construction)

/-- Reads from byte code that is kept outside the loader; what is left of it comes with the answer. -/
def read (step : CursorStep α) (cursor : Cursor) : LoadStep K (α × Cursor) :=
  let (answer, left) := step.outcome cursor
  Step.ofExcept ((answer.map (·, left)).mapError .format)

/-- The payload of the chunk of a table entry as byte code. -/
def chunkCode (tocIndex : Nat) (tag : Tag) : LoadStep K Cursor := do
  let payload ← onContainer (Container.readChunkAt tocIndex tag)
  return .ofBytes (← get).host.container.order payload

/-- Runs byte code in a session; the answer is the replay as it has ended. -/
def replay (script : Script K) (host : Host K σ) (code : Cursor) : SessionStep K σ (Replay K σ) :=
  Step.of fun session =>
    let (answer, (_, ended)) := (Replay.run script host).outcome (code, .start session)
    (answer.map fun () => ended, ended.session)

/-- Runs `body` in a scope, and leaves the scope whatever `body` came to. -/
def within (enter : Surroundings SetHandle String →
      Scope SetHandle String × Surroundings SetHandle String)
    (body : LoadStep K α) : LoadStep K α := do
  let (scope, around) := enter (← get).host.around
  updateDesk fun desk => { desk with around }
  body.closing (updateDesk fun desk => { desk with around := desk.around.leave scope })

/-- What an object that is initialised now sees around it. -/
def initContext : LoadStep K InitContext := do
  let loader ← get
  return ⟨loader.host.around.set.bind loader.world.className?, loader.host.around.scene⟩

/-! ### Sets -/

/-- The host of a set chunk. Such a chunk never has an actor, so nothing is ever asked of its host. -/
def setHost : Host K σ where
  loadSet _ := throw (.format .noActiveActor)
  register _ _ session := (⟨0⟩, session)

/-- Runs a set chunk; answers the set it built, with the index of its class. -/
def replaySet (title : Title K) (tocIndex : Nat) : LoadStep K (Option (Nat × SetHandle)) := do
  let code ← chunkCode tocIndex Tag.set
  return (← replay (.set title) setHost code).created

/-- Initialises the set that the chunk of a position built, and keeps it. -/
def installSet (index : Nat) (created : Option (Nat × SetHandle)) : LoadStep K SetHandle := do
  match created with
  | none => refuse (.setNotCreated index)
  | some (typeIndex, set) =>
    if typeIndex ≠ index then refuse (.setNotCreated index)
    let context : InitContext := ⟨none, (← get).host.around.scene⟩
    onWorld (World.onStage set fun className stage => K.stages.init className context stage)
    match (← get).host.sets.install index set with
    | .error error => refuse error
    | .ok sets =>
      updateDesk fun desk => { desk with sets }
      return set

/-- Builds the set at a position of the set table and keeps it. The stream stays where it is. Only a set
that was built in full is kept, so a load that failed can be tried again. -/
def buildSet (title : Title K) (index : Nat) (chunk : UInt32) : LoadStep K SetHandle := do
  let loader ← get
  let build : LoadStep K SetHandle := do
    let saved ← onContainer Container.position
    let created ← (replaySet title chunk.toNat).closing (onContainer (Container.goto saved))
    installSet index created
  build.onFailure fun left =>
    { left with world := left.world.keepStages loader.world.stages.size }

/-- The set at a position of the set table, built if it was not before. -/
def loadSet (title : Title K) (index : Nat) : LoadStep K SetHandle := do
  let sets := (← get).host.sets
  match sets.slot index, sets.cached? index with
  | .error error, _ => refuse error
  | .ok _, some set => return set
  | .ok slot, none => buildSet title index slot.chunk

/-! ### Groups -/

/-- The host of a group chunk: sets come from the set table, and actors go into the log. -/
def groupHost (title : Title K) : Host K Desk where
  loadSet := loadSet title
  register typeIndex className desk :=
    let (id, objects) := desk.objects.register typeIndex className
    (id, { desk with objects })

/-- Initialises an actor in the scope of its set, and lets it join a group. -/
def addMember (group : Group K) (record : ActorRecord K) : LoadStep K (Group K) := do
  let actor := record.actor
  let state ← within (·.enterSet (record.binding.map SetBinding.handle)) do
    let context ← initContext
    onWorld (World.onJournal (K.actors.init actor.className context actor.state))
  let joined ← onWorld (World.noted
    (K.groups.join group.className record.id actor.className group.state))
  let record := { record with actor := { actor with state } }
  return { group with members := group.members ++ [record], state := joined }

/-- Lets actors join a group one after another. -/
def addMembers (group : Group K) : List (ActorRecord K) → LoadStep K (Group K)
  | [] => pure group
  | record :: rest => do
    let group ← addMember group record
    addMembers group rest

/-- Loads the group of a table entry, and initialises its actors and then the group. -/
def loadGroup (title : Title K) (tocIndex : Nat) : LoadStep K (Group K) := do
  let code ← chunkCode tocIndex Tag.grp
  let (typeIndex, code) ← read Cursor.readWord code
  let group ← onWorld (title.newGroup typeIndex.toNat)
  let (declared, code) ← read Cursor.readIndex code
  let ended ← replay (.group title declared) (groupHost title) code
  let group ← addMembers group ended.records
  let context ← initContext
  let state ← onWorld (World.onJournal (K.groups.init group.className context group.state))
  return { group with state }

/-! ### Scenes -/

/-- Loads as many groups as a scene has words left to name, and lets them join the scene. -/
def addGroups (title : Title K) (scene : Scene K) (code : Cursor) : Nat → LoadStep K (Scene K)
  | 0 => pure scene
  | count + 1 => do
    let (tocIndex, code) ← read Cursor.readWord code
    let group ← loadGroup title tocIndex.toNat
    let state ← onWorld (World.noted (K.scenes.join scene.className group.className scene.state))
    addGroups title { scene with groups := scene.groups ++ [group], state } code count

/-- Loads the scene of a table entry with all of its groups. -/
def loadScene (title : Title K) (tocIndex : Nat) : LoadStep K (Scene K) := do
  let code ← chunkCode tocIndex Tag.scn
  let (typeIndex, code) ← read Cursor.readWord code
  let scene ← onWorld (title.newScene typeIndex.toNat)
  within (·.enterScene (some scene.className)) do
    let (count, code) ← read Cursor.readWord code
    let scene ← addGroups title scene code count.toNat
    let context := { ← initContext with sceneClass := none }
    let state ← onWorld (World.onJournal (K.scenes.init scene.className context scene.state))
    return { scene with state }

/-- Loads the scene that the title starts with. -/
def loadBootScene (title : Title K) : LoadStep K (Scene K) :=
  match title.manifest.bootScene with
  | some tocIndex => loadScene title tocIndex.toNat
  | none => throw (.construction .noBootScene)

/-! ### Media references -/

/-- Reads as many entries of the open media list and registers them. -/
def addMedia (mediaRef : MediaRef K) : Nat → LoadStep K (MediaRef K)
  | 0 => pure mediaRef
  | count + 1 => do
    let media ← onContainer Container.readMedia
    let state ← onWorld (World.onJournal
      (K.mediaRefs.register mediaRef.className media.flags media.data mediaRef.state))
    addMedia { mediaRef with state } count

/-- Loads the media reference whose list a table entry points at. -/
def loadMediaRef (title : Title K) (tocIndex : Nat) : LoadStep K (MediaRef K) := do
  let offset ← onContainer (Container.tocOffset tocIndex)
  onContainer (Container.goto offset)
  let info ← onContainer Container.enterMediaList
  Step.closing
    (do
      let mediaRef ← onWorld (title.newMediaRef info.typeIndex.toNat)
      addMedia mediaRef info.count.toNat)
    (onContainer Container.endMediaList)

end Loader

end Playprint
