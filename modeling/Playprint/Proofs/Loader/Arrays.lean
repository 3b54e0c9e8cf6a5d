import Playprint.Proofs.Loader.History
import Playprint.Proofs.Replay.Arrays

/-!
Property arrays that an inspector sees. A loader does nothing to actors and sets but to replay byte code, to
initialise what that has built, and to forget sets that were not built in full. So what the classes of a title
uphold while byte code runs holds of all that is ever loaded. Main statement: `shown_arrays_well_formed`.
-/

namespace Playprint

open Step (Keeps)

namespace Loader

variable {K : Catalog} {A : K.Actor → Prop} {S : K.Stage → Prop} {α σ : Type} {P : α → Prop} {title : Title K}

/-! ### Parts of loads -/

theorem keeps_updateDesk (f : Desk → Desk) :
    Keeps (Session.Every S) (fun _ => True) (updateDesk f : LoadStep K Unit) :=
  .modify fun _ hloader => hloader

theorem keeps_onContainer (step : ContainerStep α) :
    Keeps (Session.Every S) (fun _ => True) (onContainer step : LoadStep K α) :=
  fun _ hloader => ⟨hloader, fun _ _ => trivial⟩

theorem keeps_onWorld {step : WorldStep ConstructionError K α} (h : Keeps (World.Every S) P step) :
    Keeps (Session.Every S) P (onWorld step) :=
  (h.mapError LoadError.construction).on (fun _ hloader => hloader) fun _ _ hworld _ => hworld

theorem keeps_read (step : CursorStep α) (cursor : Cursor) :
    Keeps (Session.Every S) (fun _ => True) (read step cursor : LoadStep K (α × Cursor)) :=
  .ofExcept fun _ _ => trivial

theorem keeps_chunkCode (tocIndex : Nat) (tag : Tag) :
    Keeps (Session.Every S) (fun _ => True) (chunkCode tocIndex tag : LoadStep K Cursor) :=
  (keeps_onContainer _).bind fun _ _ => Keeps.get.bind fun _ _ => .pure trivial

theorem keeps_initContext : Keeps (Session.Every S) (fun _ => True) (initContext : LoadStep K InitContext) :=
  Keeps.get.bind fun _ _ => .pure trivial

theorem keeps_within {enter : Surroundings SetHandle String → Scope SetHandle String × Surroundings SetHandle String}
    {body : LoadStep K α} (hbody : Keeps (Session.Every S) P body) :
    Keeps (Session.Every S) P (within enter body) :=
  Keeps.get.bind fun _ _ => (keeps_updateDesk _).bind fun _ _ => hbody.closing (keeps_updateDesk _)

theorem keeps_replay (h : K.Upholds A S) {script : Script K} {host : Host K σ} (hhost : host.Upholds S)
    (code : Cursor) :
    Keeps (Session.Every S) (fun ended => ended.Every A S) (replay script host code) := by
  intro session hsession
  have hended : ((Replay.run script host).outcome (code, .start session)).2.2.Every A S :=
    Replay.every_run h hhost code hsession
  refine ⟨hended.stages, fun ended hanswer => ?_⟩
  change ((Replay.run script host).outcome (code, .start session)).1.map _ = .ok ended at hanswer
  cases hrun : ((Replay.run script host).outcome (code, .start session)).1 with
  | error error =>
    rw [hrun] at hanswer
    cases hanswer
  | ok _ =>
    rw [hrun] at hanswer
    cases hanswer
    exact hended

/-! ### Sets -/

theorem upholds_setHost : (setHost : Host K σ).Upholds S :=
  fun _ => .throw _

theorem keeps_installSet (h : K.Upholds A S) (index : Nat) (created : Option (Nat × SetHandle)) :
    Keeps (Session.Every S) (fun _ => True) (installSet index created : LoadStep K SetHandle) := by
  unfold installSet
  split
  · exact .throw _
  split
  · exact .throw _
  refine Keeps.get.bind fun loader _ => ?_
  refine (keeps_onWorld (World.keeps_onStage _ fun className => h.initStage className _)).bind fun _ _ => ?_
  refine Keeps.get.bind fun loader _ => ?_
  split
  · exact .throw _
  · exact (keeps_updateDesk _).bind fun _ _ => .pure trivial

theorem keeps_replaySet (h : K.Upholds A S) (tocIndex : Nat) :
    Keeps (Session.Every S) (fun _ => True) (replaySet title tocIndex) :=
  (keeps_chunkCode _ _).bind fun code _ => (keeps_replay h upholds_setHost code).bind fun _ _ => .pure trivial

theorem keeps_buildSet (h : K.Upholds A S) (index : Nat) (chunk : UInt32) :
    Keeps (Session.Every S) (fun _ => True) (buildSet title index chunk) := by
  -- Where the build fails, the sets that are left are some of those that it came to.
  refine Keeps.get.bind fun loader _ => .onFailure ?_ fun left hleft => World.Every.keepStages hleft _
  refine (keeps_onContainer _).bind fun saved _ => ?_
  exact ((keeps_replaySet h _).closing (keeps_onContainer _)).bind fun created _ => keeps_installSet h index created

theorem keeps_loadSet (h : K.Upholds A S) (index : Nat) :
    Keeps (Session.Every S) (fun _ => True) (loadSet title index) := by
  unfold loadSet
  refine Keeps.get.bind fun loader _ => ?_
  dsimp only
  split
  · exact .throw _
  · exact .pure trivial
  · exact keeps_buildSet h _ _

theorem upholds_groupHost (h : K.Upholds A S) : (groupHost title).Upholds S :=
  keeps_loadSet h

/-! ### Groups and scenes -/

/-- All actors of a list have a property. -/
def Each (A : K.Actor → Prop) (records : List (ActorRecord K)) : Prop :=
  ∀ record ∈ records, A record.actor.state

theorem keeps_addMember (h : K.Upholds A S) {group : Group K} {record : ActorRecord K}
    (hgroup : Each A group.members) (hrecord : A record.actor.state) :
    Keeps (Session.Every S) (fun joined => Each A joined.members) (addMember group record) := by
  refine Keeps.bind (A := A) (keeps_within ?_) fun state hstate => ?_
  · refine keeps_initContext.bind fun context _ => ?_
    exact keeps_onWorld (World.keeps_onJournal (h.initActor _ _ _ hrecord))
  · refine (keeps_onWorld (World.keeps_onJournal (.trivially _))).bind fun joined _ => .pure ?_
    exact List.forall_mem_append.mpr ⟨hgroup, List.forall_mem_singleton.mpr hstate⟩

theorem keeps_addMembers (h : K.Upholds A S) {group : Group K} {records : List (ActorRecord K)}
    (hgroup : Each A group.members) (hrecords : Each A records) :
    Keeps (Session.Every S) (fun joined => Each A joined.members) (addMembers group records) := by
  induction records generalizing group with
  | nil => exact .pure hgroup
  | cons record rest ih =>
    obtain ⟨hrecord, hrest⟩ := List.forall_mem_cons.mp hrecords
    exact (keeps_addMember h hgroup hrecord).bind fun joined hjoined => ih hjoined hrest

theorem keeps_loadGroup (h : K.Upholds A S) (tocIndex : Nat) :
    Keeps (Session.Every S) (fun group => Each A group.members) (loadGroup title tocIndex) := by
  refine (keeps_chunkCode _ _).bind fun code _ => (keeps_read _ _).bind fun typeIndex _ => ?_
  refine (keeps_onWorld (title.keeps_newGroup _)).bind fun group hgroup => (keeps_read _ _).bind fun declared _ => ?_
  refine (keeps_replay h (upholds_groupHost h) _).bind fun ended hended => ?_
  have hmembers : Each A group.members := by
    rw [hgroup]
    exact fun _ hrecord => absurd hrecord List.not_mem_nil
  have hrecords : Each A ended.records := by
    intro record hrecord
    obtain ⟨slot, hslot, rfl⟩ := List.mem_map.mp hrecord
    exact hended.actors slot (Array.mem_toList_iff.mp hslot)
  refine (keeps_addMembers h hmembers hrecords).bind fun joined hjoined => keeps_initContext.bind fun context _ => ?_
  exact (keeps_onWorld (World.keeps_onJournal (.trivially _))).bind fun state _ => .pure hjoined

theorem keeps_addGroups (h : K.Upholds A S) {scene : Scene K} (hscene : ∀ group ∈ scene.groups, Each A group.members)
    (code : Cursor) (count : Nat) :
    Keeps (Session.Every S) (fun scene => ∀ group ∈ scene.groups, Each A group.members)
      (addGroups title scene code count) := by
  induction count generalizing scene code with
  | zero => exact .pure hscene
  | succ count ih =>
    refine (keeps_read _ _).bind fun word _ => (keeps_loadGroup h _).bind fun group hgroup => ?_
    refine (keeps_onWorld (World.keeps_onJournal (.trivially _))).bind fun state _ => ih ?_ _
    exact List.forall_mem_append.mpr ⟨hscene, List.forall_mem_singleton.mpr hgroup⟩

theorem keeps_loadScene (h : K.Upholds A S) (tocIndex : Nat) :
    Keeps (Session.Every S) (fun scene => ∀ group ∈ scene.groups, Each A group.members) (loadScene title tocIndex) := by
  refine (keeps_chunkCode _ _).bind fun code _ => (keeps_read _ _).bind fun typeIndex _ => ?_
  refine (keeps_onWorld (title.keeps_newScene _)).bind fun scene hscene => keeps_within ?_
  have hgroups : ∀ group ∈ scene.groups, Each A group.members := by
    rw [hscene]
    exact fun _ hgroup => absurd hgroup List.not_mem_nil
  refine (keeps_read _ _).bind fun count _ => (keeps_addGroups h hgroups _ _).bind fun loaded hloaded => ?_
  refine keeps_initContext.bind fun context _ => ?_
  exact (keeps_onWorld (World.keeps_onJournal (.trivially _))).bind fun state _ => .pure hloaded

theorem keeps_loadBootScene (h : K.Upholds A S) :
    Keeps (Session.Every S) (fun scene => ∀ group ∈ scene.groups, Each A group.members) (loadBootScene title) := by
  unfold loadBootScene
  split
  · exact keeps_loadScene h _
  · exact .throw _

/-! ### Media references -/

theorem keeps_addMedia (mediaRef : MediaRef K) (count : Nat) :
    Keeps (Session.Every S) (fun _ => True) (addMedia mediaRef count) := by
  induction count generalizing mediaRef with
  | zero => exact .pure trivial
  | succ count ih =>
    refine (keeps_onContainer _).bind fun media _ => ?_
    exact (keeps_onWorld (World.keeps_onJournal (.trivially _))).bind fun state _ => ih _

theorem keeps_loadMediaRef (tocIndex : Nat) :
    Keeps (Session.Every S) (fun _ => True) (loadMediaRef title tocIndex) := by
  refine (keeps_onContainer _).bind fun offset _ => (keeps_onContainer _).bind fun _ _ => ?_
  refine (keeps_onContainer _).bind fun info _ => Keeps.closing ?_ (keeps_onContainer _)
  exact (keeps_onWorld (title.keeps_newMediaRef _)).bind fun mediaRef _ => keeps_addMedia _ _

/-! ### Requests -/

section Requests

variable {title : Title Stock.catalog} {loader : Loader Stock.catalog}

/-- Actors that come with a reply have only well-formed arrays, and so have all sets. -/
theorem keeps_respond (title : Title Stock.catalog) (request : Request) :
    Keeps (Session.Every Stock.Stage.WellFormed) (fun reply => Each Stock.Actor.WellFormed reply.records)
      (respond title request) := by
  have h := Stock.upholds_wellFormed
  have hscene (scene : Scene Stock.catalog)
      (hgroups : ∀ group ∈ scene.groups, Each Stock.Actor.WellFormed group.members) :
      Each Stock.Actor.WellFormed (Reply.scene scene).records := by
    intro record hrecord
    obtain ⟨group, hgroup, hmember⟩ := List.mem_flatMap.mp hrecord
    exact hgroups group hgroup record hmember
  cases request with
  | set index => exact (keeps_loadSet h index).bind fun _ _ => .pure fun _ hrecord => absurd hrecord List.not_mem_nil
  | group tocIndex => exact (keeps_loadGroup h tocIndex).bind fun _ hgroup => .pure hgroup
  | scene tocIndex => exact (keeps_loadScene h tocIndex).bind fun scene hloaded => .pure (hscene scene hloaded)
  | bootScene => exact (keeps_loadBootScene h).bind fun scene hloaded => .pure (hscene scene hloaded)
  | mediaRef tocIndex =>
    exact (keeps_loadMediaRef tocIndex).bind fun _ _ => .pure fun _ hrecord => absurd hrecord List.not_mem_nil

theorem every_serves (hloader : loader.Every Stock.Stage.WellFormed) (requests : List Request) :
    Session.Every Stock.Stage.WellFormed (requests.foldl (Loader.serve title) loader) ∧
      ∀ reply ∈ replies title loader requests, Each Stock.Actor.WellFormed reply.records := by
  induction requests generalizing loader with
  | nil => exact ⟨hloader, fun _ hreply => absurd hreply List.not_mem_nil⟩
  | cons request rest ih =>
    obtain ⟨hserved, hanswer⟩ := keeps_respond title request loader hloader
    rw [respond_serve] at hserved
    obtain ⟨hlast, hreplies⟩ := ih hserved
    refine ⟨hlast, List.forall_mem_append.mpr ⟨fun reply hreply => hanswer reply ?_, hreplies⟩⟩
    rw [Option.mem_toList] at hreply
    cases hserve : ((respond title request).outcome loader).1 with
    | error error =>
      rw [hserve] at hreply
      cases hreply
    | ok answer =>
      rw [hserve] at hreply
      cases hreply
      rfl

/-- Whatever a loader is asked for, all arrays of all actors that it answers and of all sets are well formed. -/
theorem shown_arrays_well_formed (title : Title Stock.catalog) (container : Container) (requests : List Request) :
    (∀ stage ∈ (after title container requests).world.stages, ∀ entry ∈ stage.state.properties.arrays,
      entry.2.WellFormed) ∧
    ∀ reply ∈ replies title (start title container ()) requests, ∀ record ∈ reply.records,
      ∀ entry ∈ record.actor.state.properties.arrays, entry.2.WellFormed := by
  have hstart : (start title container ()).Every Stock.Stage.WellFormed :=
    fun _ hstage => absurd hstage (Array.not_mem_empty _)
  exact every_serves hstart requests

end Requests

end Loader

end Playprint
