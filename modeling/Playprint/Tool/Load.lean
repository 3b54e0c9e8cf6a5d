import Playprint.Json.Printer
import Playprint.Stock
import Playprint.Summary
import Playprint.Text.Utf8
import Playprint.Tool.Arguments
import Playprint.Tool.Failure

/-!
The tool that loads parts of a title and reports what they hold. The classes of the title are stock classes.
-/

namespace Playprint.Tool.Load

/-- Something to load, by table index. -/
inductive Request
  | group (tocIndex : Nat)
  | scene (tocIndex : Nat)
  | bootScene
  | mediaRef (tocIndex : Nat)

/-- What the tool is asked. -/
structure Options where
  playprint : String
  tables : String
  groups : List Nat
  scene : Option Nat
  boot : Bool
  media : List Nat
  /-- Where to keep the summary. -/
  summary : Option String

/-- The options the tool knows. -/
def switches : List Switch :=
  [⟨"playprint", .single⟩, ⟨"tables", .single⟩, ⟨"group", .repeated⟩, ⟨"scene", .single⟩,
    ⟨"boot", .flag⟩, ⟨"media", .repeated⟩, ⟨"summary-json", .single⟩]

/-- Reads the command line. -/
def Options.ofLine? (line : List String) : Option Options := do
  let arguments ← Arguments.ofLine? switches 0 line
  return {
    playprint := ← (arguments.one? "playprint").bind Arguments.path?
    tables := ← (arguments.one? "tables").bind Arguments.path?
    groups := ← (arguments.all "group").mapM Arguments.index?
    scene := ← (arguments.one? "scene").mapM Arguments.index?
    boot := arguments.has "boot"
    media := ← (arguments.all "media").mapM Arguments.index?
    summary := ← (arguments.one? "summary-json").mapM Arguments.path? }

/-- What to load, in order: groups, then a scene, then media references. -/
def Options.requests (options : Options) : Except Failure (List Request) :=
  if options.boot && options.scene.isSome then
    .error (.plain "--boot and --scene are mutually exclusive")
  else
    let requests := options.groups.map .group ++ options.scene.toList.map .scene ++
      (if options.boot then [.bootScene] else []) ++ options.media.map .mediaRef
    if requests.isEmpty then
      .error (.plain "nothing to load: pass --group, --scene, --boot or --media")
    else .ok requests

/-! ### Loading -/

variable {K : Catalog}

/-- A step of a loader that may make the tool give up. -/
abbrev ToolStep (K : Catalog) := Step Failure (Loader K)

/-- Loads something as a part of what the headline tells. -/
def under {α : Type} (headline : String) (step : LoadStep K α) : ToolStep K α :=
  step.mapError fun error => (Failure.ofLoad error).during headline

/-- Loads what a request asks for, and adds it to a summary. -/
def serve (title : Title K) (summary : LoadSummary) : Request → ToolStep K LoadSummary
  | .group tocIndex => do
    let group ← under s!"loading group at TOC entry {tocIndex}" (Loader.loadGroup title tocIndex)
    return summary.addGroup group tocIndex
  | .scene tocIndex => do
    let scene ← under s!"loading scene at TOC entry {tocIndex}" (Loader.loadScene title tocIndex)
    return summary.addScene scene tocIndex
  | .bootScene => do
    match title.manifest.bootScene with
    | none => throw (.plain "manifest does not name a boot scene")
    | some tocIndex =>
      let scene ← under "loading boot scene" (Loader.loadBootScene title)
      return summary.addScene scene tocIndex.toNat
  | .mediaRef tocIndex => do
    let mediaRef ← under s!"loading media reference at TOC entry {tocIndex}"
      (Loader.loadMediaRef title tocIndex)
    return summary.addMediaRef mediaRef tocIndex

/-- Serves requests one after another. -/
def serveAll (title : Title K) (summary : LoadSummary) : List Request → ToolStep K LoadSummary
  | [] => pure summary
  | request :: rest => do
    let summary ← serve title summary request
    serveAll title summary rest

/-- The summary of all that was requested from a container, with the sets that this took. -/
def summarise (title : Title K) (container : Container) (journal : K.Journal)
    (requests : List Request) : Except Failure LoadSummary :=
  let (answer, loader) := (serveAll title (.empty container.tocEntries.length) requests).outcome
    (Loader.start title container journal)
  answer.map (·.withSets loader)

/-! ### Reporting -/

/-- The line of a property. -/
def propertyLine (indent : String) (property : PropertySummary) : String :=
  s!"{indent}    {property.name} ({property.kind}, {property.size} bytes) {property.preview}"

/-- The lines of an actor. -/
def actorLines (indent : String) (actor : ActorSummary) : List String :=
  let role := actor.role.getD "-"
  let set := (actor.set.map toString).getD "-"
  s!"{indent}  actor #{actor.id} {actor.className} role={role} set={set}" ::
    actor.properties.map (propertyLine indent)

/-- The lines of a group. -/
def groupLines (indent : String) (group : GroupSummary) : List String :=
  let place := match group.tocIndex with
    | some tocIndex => s!" (TOC {tocIndex})"
    | none => ""
  s!"{indent}group {group.className}{place}" :: group.actors.flatMap (actorLines indent)

/-- The lines of a scene. -/
def sceneLines (scene : SceneSummary) : List String :=
  s!"scene {scene.className} (TOC {scene.tocIndex}) with {scene.groups.length} groups" ::
    scene.groups.flatMap (groupLines "  ")

/-- The line of a set, if it was built. -/
def setLine? (set : SetSummary) : Option String :=
  set.className.map fun className =>
    s!"set {set.index} [{set.name}] {className} with {set.attachments} attached roles"

/-- The line of a media reference. -/
def mediaRefLine (mediaRef : MediaRefSummary) : String :=
  s!"media reference {mediaRef.className} (TOC {mediaRef.tocIndex}) with {mediaRef.media.length} entries"

/-- The report of all that was loaded. -/
def report (summary : LoadSummary) : String :=
  let lines := s!"Playprint with {summary.tocEntries} TOC entries" ::
    summary.groups.flatMap (groupLines "") ++ summary.scenes.flatMap sceneLines ++
    summary.sets.filterMap setLine? ++ summary.mediaRefs.map mediaRefLine
  String.join (lines.map (· ++ "\n"))

/-! ### Running -/

/-- The manifest in the data of a file. -/
def manifestOf (path : String) : Except SystemError Bytes → Except Failure Manifest
  | .error error =>
    .error ((Failure.ofSystem error).during s!"failed to read title manifest: {path}")
  | .ok data =>
    match Utf8.decode? data with
    | none =>
      .error ⟨s!"failed to read title manifest: {path}", ["stream did not contain valid UTF-8"]⟩
    | some text =>
      match Manifest.ofText? text with
      | none => .error (.plain s!"failed to parse title manifest: {path}")
      | some manifest => .ok manifest

variable {m : Type → Type} [Monad m]

/-- Keeps a summary in a file. -/
def keep (files : FileSystem m) (summary : LoadSummary) (path : String) : Action m Unit := do
  attempt s!"failed to write load summary: {path}"
    (files.write path (Bytes.ofText summary.toJson.pretty))
  files.print s!"Saved load summary to {path}\n"

/-- Runs the tool. -/
def run (files : FileSystem m) (options : Options) : Action m Unit := do
  let requests ← settle options.requests
  let answer ← ExceptT.lift (files.read options.tables)
  let manifest ← settle (manifestOf options.tables answer)
  let container ← openContainer files options.playprint
  let title : Title Stock.catalog := ⟨manifest⟩
  let summary ← settle (summarise title container () requests)
  files.print (report summary)
  match options.summary with
  | some path => keep files summary path
  | none => return ()

end Playprint.Tool.Load
