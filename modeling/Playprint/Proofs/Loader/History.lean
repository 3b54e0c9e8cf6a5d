import Playprint.Proofs.Container.RoundTrip
import Playprint.Proofs.Loader.Alongside
import Playprint.Proofs.Loader.Staged

/-!
What a loader has been asked for before. The answer to the next request does not depend on it, but for the
identities, which count the actors that were logged so far; and what once stands in the set table stays.
-/

namespace Playprint

open Step (Matched)

namespace Loader

variable {title : Title Stock.catalog} {container : Container} {loader first second : Loader Stock.catalog}

/-! ### Requests and replies -/

/-- What a loader answers to a request. -/
inductive Reply
  | set (set : SetHandle)
  | group (group : Group Stock.catalog)
  | scene (scene : Scene Stock.catalog)
  | mediaRef (mediaRef : MediaRef Stock.catalog)

/-- All actors that come with a reply. -/
def Reply.records : Reply → List (ActorRecord Stock.catalog)
  | .set _ => []
  | .group loaded => loaded.members
  | .scene loaded => loaded.groups.flatMap Group.members
  | .mediaRef _ => []

/-- All actors that come with the reply are bound to sets of the table. -/
def Reply.BoundIn (table : SetTable) (reply : Reply) : Prop :=
  ∀ record ∈ reply.records, record.BoundIn table

/-- The same reply of a later run. A set is the same up to the roles on it. -/
inductive Reply.Raised (count : Nat) (world world' : World Stock.catalog) : Reply → Reply → Prop
  | set {set set' : SetHandle} {stage stage' : Object Stock.Stage} (hstage : world.stage? set = some stage)
      (hstage' : world'.stage? set' = some stage') (h : Alike stage stage') :
      Raised count world world' (.set set) (.set set')
  | group {group other : Group Stock.catalog} (h : group.Raised count other) :
      Raised count world world' (.group group) (.group other)
  | scene {scene other : Scene Stock.catalog} (h : scene.Raised count other) :
      Raised count world world' (.scene scene) (.scene other)
  | mediaRef (mediaRef : MediaRef Stock.catalog) :
      Raised count world world' (.mediaRef mediaRef) (.mediaRef mediaRef)

/-- Serves a request. -/
def respond (title : Title Stock.catalog) : Request → LoadStep Stock.catalog Reply
  | .set index => do return .set (← loadSet title index)
  | .group tocIndex => do return .group (← loadGroup title tocIndex)
  | .scene tocIndex => do return .scene (← loadScene title tocIndex)
  | .bootScene => do return .scene (← loadBootScene title)
  | .mediaRef tocIndex => do return .mediaRef (← loadMediaRef title tocIndex)

theorem respond_serve (title : Title Stock.catalog) (loader : Loader Stock.catalog) (request : Request) :
    ((respond title request).outcome loader).2 = serve title loader request := by
  have hreturn {α : Type} (step : LoadStep Stock.catalog α) (reply : α → Reply) :
      ((do return reply (← step) : LoadStep Stock.catalog Reply).outcome loader).2 =
        (step.outcome loader).2 := by
    rw [Step.outcome_bind]
    rcases step.outcome loader with ⟨error | answer, left⟩ <;> rfl
  cases request with
  | set index => exact hreturn _ _
  | group tocIndex => exact hreturn _ _
  | scene tocIndex => exact hreturn _ _
  | bootScene => exact hreturn _ _
  | mediaRef tocIndex => exact hreturn _ _

/-- The loader of a title over a container after it was asked for all of these. -/
def after (title : Title Stock.catalog) (container : Container) (requests : List Request) :
    Loader Stock.catalog :=
  requests.foldl (serve title) (start title container ())

/-- The replies to requests one after another, without those that failed. -/
def replies (title : Title Stock.catalog) (loader : Loader Stock.catalog) : List Request → List Reply
  | [] => []
  | request :: rest =>
    ((respond title request).outcome loader).1.toOption.toList ++
      replies title (serve title loader request) rest

/-! ### One request, served by two loaders -/

/-- Two replies that differ in the identities, from loaders that differ in what they did before. -/
structure Echo (frame : Frame) (reply other : Reply) (first second : Loader Stock.catalog) : Prop where
  raised : reply.Raised frame.raised first.world second.world other
  bound : reply.BoundIn first.host.sets
  bound' : other.BoundIn second.host.sets

theorem Alongside.respond {frame : Frame} (h : Alongside frame first second) (request : Request) :
    Matched (fun reply other s t => Alongside frame s t ∧ Echo frame reply other s t) (Alongside frame)
      ((respond frame.title request).outcome first) ((respond frame.title request).outcome second) := by
  have hscene (scene other : Scene Stock.catalog) (s t : Loader Stock.catalog)
      (h : SameScene frame scene other s t) :
      Alongside frame s t ∧ Echo frame (.scene scene) (.scene other) s t := by
    obtain ⟨h, hraised, hbound, hbound'⟩ := h
    refine ⟨h, .scene hraised, ?_, ?_⟩
    all_goals
      intro record hrecord
      obtain ⟨group, hgroup, hrecord⟩ := List.mem_flatMap.mp hrecord
    · exact hbound group hgroup record hrecord
    · exact hbound' group hgroup record hrecord
  cases request with
  | set index =>
      refine (h.loadSet index).bind fun set set' => ?_
      rintro s t ⟨h, hcached, hcached'⟩
      obtain ⟨stage, stage', hstage, hstage', halike⟩ := h.twin.alike hcached hcached'
      exact .ok ⟨h, .set hstage hstage' halike, fun _ => List.not_mem_nil.elim, fun _ => List.not_mem_nil.elim⟩
  | group tocIndex =>
      refine (h.loadGroup tocIndex).bind fun group other => ?_
      rintro s t ⟨h, hraised, hbound, hbound'⟩
      exact .ok ⟨h, .group hraised, hbound, hbound'⟩
  | scene tocIndex =>
      exact (h.loadScene tocIndex).bind fun scene other s t h => .ok (hscene scene other s t h)
  | bootScene =>
      exact h.loadBootScene.bind fun scene other s t h => .ok (hscene scene other s t h)
  | mediaRef tocIndex =>
      refine (h.loadMediaRef tocIndex).bind fun mediaRef other => ?_
      rintro s t ⟨rfl, h⟩
      exact .ok ⟨h, .mediaRef mediaRef, fun _ => List.not_mem_nil.elim, fun _ => List.not_mem_nil.elim⟩

/-! ### Requests one after another -/

/-- A loader between two requests. -/
structure Settled (title : Title Stock.catalog) (container : Container) (loader : Loader Stock.catalog) :
    Prop where
  kept : Kept title container loader
  sound : loader.Sound
  around : loader.host.around = .none

theorem cached?_start (index : Nat) :
    (start title container ()).host.sets.cached? index = none := by
  simp only [start, SetTable.cached?, SetTable.ofEntries, List.getElem?_map]
  cases title.manifest.sets[index]? <;> rfl

theorem settled_start : Settled title container (start title container ()) where
  kept := by
    have hcached (index : Nat) (set : SetHandle)
        (hset : (start title container ()).host.sets.cached? index = some set) : False :=
      nomatch (cached?_start index).symm.trans hset
    refine ⟨.refl container, ?_, fun i _ set hi => (hcached i set hi).elim,
      fun i set hi => (hcached i set hi).elim, rfl⟩
    show (title.manifest.sets.map _).map SetSlot.entry = _
    rw [List.map_map]
    exact List.map_id _
  sound := sound_start title container
  around := rfl

/-- What a settled loader is compared against: one that was asked for nothing yet. -/
def past (title : Title Stock.catalog) (container : Container) (loader : Loader Stock.catalog) : Frame where
  title := title
  container := container
  raised := loader.host.objects.objects.size
  hung := loader.attachmentsAt
  scene := none
  seen := ((start title container ()).host.sets, loader.host.sets)

theorem Settled.alongside (h : Settled title container loader) :
    Alongside (past title container loader) (start title container ()) loader := by
  have hstart : Settled title container (start title container ()) := settled_start
  refine ⟨⟨hstart.kept, h.kept, fun index hcached => ?_, fun index => ?_, h.kept.counted, ⟨rfl, h.around⟩,
    .refl _, .refl _⟩, hstart.sound, h.sound⟩
  · rw [cached?_start] at hcached
    cases hcached
  · rw [attachmentsAt_of_none (cached?_start index), List.map_nil, List.append_nil]
    rfl

/-- What a loader did stays done: no slot is emptied and no role is taken off. -/
structure Onward (before after : Loader Stock.catalog) : Prop where
  grown : before.host.sets.Grown after.host.sets
  attachments : ∀ index, before.attachmentsAt index <+: after.attachmentsAt index

theorem Settled.serve (h : Settled title container loader) (request : Request) :
    Settled title container (serve title loader request) ∧ Onward loader (serve title loader request) := by
  rw [← respond_serve]
  have hleft (s t : Loader Stock.catalog) (halongside : Alongside (past title container loader) s t) :
      Settled title container t ∧ Onward loader t := by
    obtain ⟨htwin, _, hsound⟩ := halongside
    refine ⟨⟨htwin.kept', hsound, htwin.around.2⟩, htwin.grown.2, fun index => ?_⟩
    rw [htwin.attachments index]
    exact List.prefix_append _ _
  exact (h.alongside.respond request).states (fun _ _ s t hstates => hleft s t hstates.1) hleft

theorem Settled.serves (h : Settled title container loader) (requests : List Request) :
    Settled title container (requests.foldl (Loader.serve title) loader) ∧
      Onward loader (requests.foldl (Loader.serve title) loader) := by
  induction requests generalizing loader with
  | nil => exact ⟨h, .refl _, fun _ => List.prefix_rfl⟩
  | cons request rest ih =>
      obtain ⟨hserved, hfirst⟩ := h.serve request
      obtain ⟨hlast, hrest⟩ := ih hserved
      exact ⟨hlast, hfirst.grown.trans hrest.grown,
        fun index => (hfirst.attachments index).trans (hrest.attachments index)⟩

/-- Actors that a loader has answered with keep the sets of their slots. -/
theorem Settled.boundIn_replies (h : Settled title container loader) (requests : List Request)
    (reply : Reply) (hreply : reply ∈ replies title loader requests) :
    reply.BoundIn (requests.foldl (Loader.serve title) loader).host.sets := by
  induction requests generalizing loader with
  | nil => cases hreply
  | cons request rest ih =>
      have hserved := (h.serve request).1
      rcases List.mem_append.mp hreply with hhere | hthere
      -- The second of the two loaders is the one that serves, and its table only grows from here on.
      · have hend := h.alongside.respond request
        have hleft := respond_serve title loader request
        rcases hend.ends with ⟨_, other, _, t, _, hother, _, hecho⟩ | ⟨_, _, t, _, hother, _⟩
        all_goals
          replace hother : (respond title request).outcome loader = _ := hother
          rw [hother] at hhere hleft
        · obtain rfl := List.mem_singleton.mp hhere
          obtain rfl : t = _ := hleft
          exact fun record hrecord => (hecho.bound' record hrecord).grown (hserved.serves rest).2.grown
        · cases hhere
      · exact ih hserved hthere

/-! ### Independence of the past -/

/-- The sets under one index are of one class and have the same properties. -/
def SameSets (fresh left : Loader Stock.catalog) : Prop :=
  ∀ index set set', fresh.host.sets.cached? index = some set → left.host.sets.cached? index = some set' →
    ∃ stage stage', fresh.world.stage? set = some stage ∧ left.world.stage? set' = some stage' ∧
      Alike stage stage'

/-- What the loader has behind the roles it had before is what a new one has, with raised identities. -/
def GrowsLike (loader fresh left : Loader Stock.catalog) : Prop :=
  ∀ index, left.attachmentsAt index = loader.attachmentsAt index ++
    (fresh.attachmentsAt index).map (Attachment.raise loader.host.objects.objects.size)

/-- Whatever a loader was asked for before, it answers like a loader that was asked for nothing yet, or
fails for the same cause. The identities in the answer are raised by the number of actors that were logged
before, a set that is answered is the same up to the roles on it, and so are the sets that the actors are
bound to. Every set grows by the roles that the same request hangs on it in a new loader. -/
theorem respond_independent_of_past (title : Title Stock.catalog) (container : Container)
    (earlier : List Request) (request : Request) :
    let loader := after title container earlier
    Matched
      (fun reply other fresh left =>
        reply.Raised loader.host.objects.objects.size fresh.world left.world other ∧
        reply.BoundIn fresh.host.sets ∧ other.BoundIn left.host.sets ∧ SameSets fresh left ∧
        loader.GrowsLike fresh left)
      loader.GrowsLike
      ((respond title request).outcome (start title container ()))
      ((respond title request).outcome loader) := by
  intro loader
  have hsettled : Settled title container loader := (settled_start.serves earlier).1
  apply (hsettled.alongside.respond request).mono
  · rintro reply other fresh left ⟨halongside, hraised, hbound, hbound'⟩
    exact ⟨hraised, hbound, hbound', fun _ _ _ => halongside.twin.alike, halongside.twin.attachments⟩
  · exact fun fresh left halongside => halongside.twin.attachments

/-- The title of the two sets, with a class of groups. -/
def pairTitle : Title Stock.catalog where
  manifest := { Replay.stagedTitle.manifest with groupClasses := [⟨"StockGroup", none⟩] }

/-- A container to be written with the chunk of a set, and the chunk of a group. -/
def stageAnd (group : Bytes) : Master where
  order := .big
  header := ⟨1, 2⟩
  sections := [.set (Instruction.encodeAll .big [.createSet 0, .endSet]), .group group]

/-- The payload of a group of two actors. -/
def twoActors (instructions : List Instruction) : Bytes :=
  Chunk.encodeWords .big [0] ++ Cursor.encodeIndex 2 ++ Instruction.encodeAll .big instructions

/-- A set, and two actors that are bound to it. -/
def pairMaster : Master := stageAnd (twoActors (Replay.tiedPair []))

/-- The container of the pair, as it is opened. -/
def pairContainer : Container := pairMaster.loaded

theorem load_pairMaster : Container.load pairMaster.encode = .ok pairContainer :=
  Master.load_eq_loaded (by simp [pairMaster, stageAnd]) (by decide +kernel)

/-- After a set that does not exist and the pair itself, the pair comes with the next two identities. -/
theorem pair_raised :
    Container.load pairMaster.encode = .ok pairContainer ∧ ∃ reply other fresh left,
      (respond pairTitle (.group 1)).outcome (start pairTitle pairContainer ()) = (.ok reply, fresh) ∧
      (respond pairTitle (.group 1)).outcome (after pairTitle pairContainer [.set 7, .group 1]) =
        (.ok other, left) ∧
      reply.records.map ActorRecord.id = [⟨0⟩, ⟨1⟩] ∧ other.records.map ActorRecord.id = [⟨2⟩, ⟨3⟩] ∧
      reply.Raised 2 fresh.world left.world other ∧
      left.attachmentsAt 0 =
        [⟨some ⟨0⟩, ⟨1⟩⟩, ⟨none, ⟨0⟩⟩] ++ (fresh.attachmentsAt 0).map (Attachment.raise 2) := by
  have hmatched := respond_independent_of_past pairTitle pairContainer [.set 7, .group 1] (.group 1)
  have hids : ((respond pairTitle (.group 1)).outcome (start pairTitle pairContainer ())).1.toOption.map
      (fun reply => reply.records.map ActorRecord.id) = some [⟨0⟩, ⟨1⟩] := by
    decide +kernel
  have hids' : ((respond pairTitle (.group 1)).outcome
      (after pairTitle pairContainer [.set 7, .group 1])).1.toOption.map
        (fun reply => reply.records.map ActorRecord.id) = some [⟨2⟩, ⟨3⟩] := by
    decide +kernel
  have hcount : (after pairTitle pairContainer [.set 7, .group 1]).host.objects.objects.size = 2 := by
    decide +kernel
  have hbefore : (after pairTitle pairContainer [.set 7, .group 1]).attachmentsAt 0 =
      [⟨some ⟨0⟩, ⟨1⟩⟩, ⟨none, ⟨0⟩⟩] := by
    decide +kernel
  rcases hmatched.ends with ⟨reply, other, fresh, left, hfresh, hleft, hraised, _, _, _, hgrows⟩ |
    ⟨_, _, _, hfresh, _⟩
  · rw [hfresh] at hids
    rw [hleft] at hids'
    rw [hcount] at hraised
    refine ⟨load_pairMaster, reply, other, fresh, left, hfresh, hleft, Option.some.inj hids,
      Option.some.inj hids', hraised, ?_⟩
    rw [hgrows, hbefore, hcount]
  · rw [hfresh] at hids
    cases hids

/-! ### The set table -/

/-- Whatever a loader is asked for, the sets in its table are sets of the classes of their slots, each
initialised once and no two in different slots the same, with the properties that their own chunks gave
them. A slot that was filled keeps its set, nothing about this set changes but for roles that are hung on it
behind those before, and all actors that were ever answered are bound to the sets of their slots. -/
theorem sets_kept (title : Title Stock.catalog) (container : Container) (earlier later : List Request) :
    let mid := after title container earlier
    let left := after title container (earlier ++ later)
    (∀ index set, mid.host.sets.cached? index = some set → left.host.sets.cached? index = some set) ∧
    (∀ i j set, left.host.sets.cached? i = some set → left.host.sets.cached? j = some set → i = j) ∧
    (∀ index set, left.host.sets.cached? index = some set →
      ∃ stage, left.world.stage? set = some stage ∧ Finished title container index stage) ∧
    (∀ index set, mid.host.sets.cached? index = some set →
      ∃ stage stage', mid.world.stage? set = some stage ∧ left.world.stage? set = some stage' ∧
        Alike stage stage' ∧ stage.state.attachments <+: stage'.state.attachments) ∧
    ∀ reply ∈ replies title (start title container ()) (earlier ++ later), ∀ record ∈ reply.records,
      ∀ binding, record.binding = some binding →
        left.host.sets.cached? binding.index = some binding.handle := by
  intro mid left
  have hstart : Settled title container (start title container ()) := settled_start
  have hmid : Settled title container mid := (hstart.serves earlier).1
  have hsplit : left = later.foldl (Loader.serve title) mid := List.foldl_append
  obtain ⟨hleft, honward⟩ := hmid.serves later
  rw [← hsplit] at hleft honward
  refine ⟨honward.grown, hleft.kept.apart, hleft.kept.finished, ?unchanged,
    hstart.boundIn_replies (earlier ++ later)⟩
  case unchanged =>
    intro index set hset
    have hset' := honward.grown index set hset
    obtain ⟨stage, hstage, hfinished⟩ := hmid.kept.finished index set hset
    obtain ⟨stage', hstage', hfinished'⟩ := hleft.kept.finished index set hset'
    have hattachments := honward.attachments index
    rw [attachmentsAt_of_some hset, attachmentsAt_of_some hset', Stock.attachments_of_stage? hstage,
      Stock.attachments_of_stage? hstage'] at hattachments
    exact ⟨stage, stage', hstage, hstage', hfinished.same hfinished', hattachments⟩

/-- The set of the pair stays when the pair is asked for again, and so do the roles that hang on it. -/
theorem stage_kept :
    Container.load pairMaster.encode = .ok pairContainer ∧
    (after pairTitle pairContainer [.group 1]).host.sets.cached? 0 = some ⟨0⟩ ∧
    (after pairTitle pairContainer ([.group 1] ++ [.set 7, .group 1])).host.sets.cached? 0 = some ⟨0⟩ ∧
    (∃ stage stage', (after pairTitle pairContainer [.group 1]).world.stage? ⟨0⟩ = some stage ∧
      (after pairTitle pairContainer ([.group 1] ++ [.set 7, .group 1])).world.stage? ⟨0⟩ = some stage' ∧
      Alike stage stage' ∧ stage.state.attachments <+: stage'.state.attachments) ∧
    ∀ reply ∈ replies pairTitle (start pairTitle pairContainer ()) ([.group 1] ++ [.set 7, .group 1]),
      ∀ record ∈ reply.records, ∀ binding, record.binding = some binding →
        (after pairTitle pairContainer ([.group 1] ++ [.set 7, .group 1])).host.sets.cached? binding.index =
          some binding.handle := by
  obtain ⟨hgrown, _, _, hstages, hbound⟩ := sets_kept pairTitle pairContainer [.group 1] [.set 7, .group 1]
  have hfilled : (after pairTitle pairContainer [.group 1]).host.sets.cached? 0 = some ⟨0⟩ := by
    decide +kernel
  exact ⟨load_pairMaster, hfilled, hgrown 0 ⟨0⟩ hfilled, hstages 0 ⟨0⟩ hfilled, hbound⟩

end Loader

end Playprint
