import Playprint.Proofs.Loader.GroupRun

/-!
The states that the loader of a title of stock classes can be in. Loading one thing after another, each to
its end or to its first failure, never names a set that does not exist, and never hangs a role of an actor
that was not logged.
-/

namespace Playprint.Loader

open Step (Along)
open World (Quiet)

variable {α : Type}

/-- Something that a loader is asked for. -/
inductive Request
  | set (index : Nat)
  | group (tocIndex : Nat)
  | scene (tocIndex : Nat)
  | bootScene
  | mediaRef (tocIndex : Nat)

/-- The loader after a request was served, or has failed. -/
def serve (title : Title Stock.catalog) (loader : Loader Stock.catalog) :
    Request → Loader Stock.catalog
  | .set index => ((loadSet title index).outcome loader).2
  | .group tocIndex => ((loadGroup title tocIndex).outcome loader).2
  | .scene tocIndex => ((loadScene title tocIndex).outcome loader).2
  | .bootScene => ((loadBootScene title).outcome loader).2
  | .mediaRef tocIndex => ((loadMediaRef title tocIndex).outcome loader).2

/-- The loader of a title over a container, after any requests. -/
inductive Reachable (title : Title Stock.catalog) : Loader Stock.catalog → Prop
  | start (container : Container) : Reachable title (.start title container ())
  | serve {loader : Loader Stock.catalog} (request : Request) (h : Reachable title loader) :
      Reachable title (serve title loader request)

/-! ### What loads are made of -/

/-- A relation that goes along with everything that loads are made of. -/
structure Carried (title : Title Stock.catalog) (R : Loader Stock.catalog → Loader Stock.catalog → Prop) :
    Prop where
  chunk : ∀ tocIndex tag, Along R (chunkCode tocIndex tag)
  world : ∀ loader world, Quiet loader.world world → R loader { loader with world }
  around : ∀ loader around, R loader { loader with host := { loader.host with around } }
  set : ∀ index, Along R (loadSet title index)
  group : ∀ declared code, Along R (replay (.group title declared) (groupHost title) code)
  mediaRef : ∀ tocIndex, Along R (loadMediaRef title tocIndex)

section Carried

variable {title : Title Stock.catalog} {R : Loader Stock.catalog → Loader Stock.catalog → Prop}

theorem Carried.onWorld (h : Carried title R) {step : WorldStep ConstructionError Stock.catalog α}
    (hstep : Along Quiet step) : Along R (Loader.onWorld step) :=
  fun loader => h.world loader _ (hstep loader.world)

variable [Std.Refl R]

theorem along_read (step : CursorStep α) (cursor : Cursor) :
    Along R (read step cursor : LoadStep Stock.catalog (α × Cursor)) :=
  .ofExcept _

variable [Trans R R R]

theorem Carried.within (h : Carried title R) {enter : Surroundings SetHandle String →
      Scope SetHandle String × Surroundings SetHandle String} {body : LoadStep Stock.catalog α}
    (hbody : Along R body) : Along R (Loader.within enter body) := by
  have hdesk : ∀ change : Surroundings SetHandle String → Surroundings SetHandle String,
      Along R (updateDesk fun desk => { desk with around := change desk.around } :
        LoadStep Stock.catalog Unit) :=
    fun change loader => h.around loader (change loader.host.around)
  refine Along.get.bind fun loader => ?_
  exact (hdesk fun _ => (enter loader.host.around).2).bind fun _ =>
    hbody.closing (hdesk fun around => around.leave (enter loader.host.around).1)

theorem along_initContext : Along R (initContext : LoadStep Stock.catalog InitContext) :=
  Along.get.bind fun _ => .pure _

theorem Carried.addMember (h : Carried title R) (group : Group Stock.catalog)
    (record : ActorRecord Stock.catalog) : Along R (Loader.addMember group record) := by
  refine Along.bind (h.within ?_) fun state => (h.onWorld (World.quiet_noted _)).bind fun _ => .pure _
  exact along_initContext.bind fun context => h.onWorld (World.quiet_onJournal _)

theorem Carried.addMembers (h : Carried title R) (records : List (ActorRecord Stock.catalog)) :
    ∀ group : Group Stock.catalog, Along R (Loader.addMembers group records) := by
  induction records with
  | nil => exact fun _ => .pure _
  | cons record rest ih => exact fun group => (h.addMember group record).bind fun _ => ih _

theorem Carried.loadGroup (h : Carried title R) (tocIndex : Nat) :
    Along R (Loader.loadGroup title tocIndex) := by
  refine (h.chunk _ _).bind fun code => (along_read _ _).bind fun typeIndex => ?_
  refine (h.onWorld (title.quiet_newGroup _)).bind fun group => (along_read _ _).bind fun declared => ?_
  refine (h.group _ _).bind fun ended => (h.addMembers _ _).bind fun group => ?_
  exact along_initContext.bind fun context => (h.onWorld (World.quiet_onJournal _)).bind fun _ => .pure _

theorem Carried.addGroups (h : Carried title R) (count : Nat) :
    ∀ (scene : Scene Stock.catalog) (code : Cursor), Along R (Loader.addGroups title scene code count) := by
  induction count with
  | zero => exact fun _ _ => .pure _
  | succ count ih =>
      intro scene code
      refine (along_read _ _).bind fun word => (h.loadGroup _).bind fun group => ?_
      exact (h.onWorld (World.quiet_noted _)).bind fun state => ih _ _

theorem Carried.loadScene (h : Carried title R) (tocIndex : Nat) :
    Along R (Loader.loadScene title tocIndex) := by
  refine (h.chunk _ _).bind fun code => (along_read _ _).bind fun typeIndex => ?_
  refine (h.onWorld (title.quiet_newScene _)).bind fun scene => h.within ?_
  refine (along_read _ _).bind fun count => (h.addGroups _ _ _).bind fun scene => ?_
  exact along_initContext.bind fun context => (h.onWorld (World.quiet_onJournal _)).bind fun _ => .pure _

theorem Carried.loadBootScene (h : Carried title R) : Along R (Loader.loadBootScene title) := by
  unfold Loader.loadBootScene
  split
  · exact h.loadScene _
  · exact .throw _

/-- Whatever a loader is asked for, served or not. -/
theorem Carried.serve (h : Carried title R) (loader : Loader Stock.catalog) (request : Request) :
    R loader (Loader.serve title loader request) := by
  cases request with
  | set index => exact h.set index loader
  | group tocIndex => exact h.loadGroup tocIndex loader
  | scene tocIndex => exact h.loadScene tocIndex loader
  | bootScene => exact h.loadBootScene loader
  | mediaRef tocIndex => exact h.mediaRef tocIndex loader

end Carried

/-! ### Sound loaders -/

/-- A loader that is sound stays so. -/
def StaysSound (before after : Loader Stock.catalog) : Prop :=
  before.Sound → after.Sound

instance : Std.Refl StaysSound := ⟨fun _ => id⟩

instance : Trans StaysSound StaysSound StaysSound := ⟨fun hfirst hsecond h => hsecond (hfirst h)⟩

theorem Widens.staysSound {before after : Loader Stock.catalog} (h : Widens before after) :
    StaysSound before after := by
  intro hsound
  obtain ⟨hsets, hobjects, hattachments, _⟩ := h hsound.sets
  refine ⟨hsets, ?_⟩
  rw [hobjects, hattachments]
  exact hsound.child

theorem staysSound_of_still {step : LoadStep Stock.catalog α} (h : Along Still step) :
    Along StaysSound step :=
  h.mono fun _ _ hstill => hstill.widens.staysSound

theorem still_addMedia (count : Nat) :
    ∀ mediaRef : MediaRef Stock.catalog, Along Still (addMedia mediaRef count) := by
  induction count with
  | zero => exact fun _ => .pure _
  | succ count ih =>
      intro mediaRef
      refine (still_onContainer _).bind fun media => ?_
      exact (still_onWorld (World.quiet_onJournal _)).bind fun state => ih _

theorem still_loadMediaRef (title : Title Stock.catalog) (tocIndex : Nat) :
    Along Still (loadMediaRef title tocIndex) := by
  refine (still_onContainer _).bind fun offset => (still_onContainer _).bind fun _ => ?_
  refine (still_onContainer _).bind fun info => ?_
  refine Along.closing ?_ (still_onContainer _)
  exact (still_onWorld (title.quiet_newMediaRef _)).bind fun mediaRef => still_addMedia _ _

theorem carried_staysSound (title : Title Stock.catalog) : Carried title StaysSound where
  chunk tocIndex tag := staysSound_of_still (still_chunkCode tocIndex tag)
  world loader world hquiet := by
    have hstill : Still loader { loader with world } := ⟨rfl, rfl, hquiet⟩
    exact hstill.widens.staysSound
  around _ _ hsound := ⟨hsound.sets, hsound.child⟩
  set _ _ hsound := (loadSet_spec rfl hsound.sets).1.staysSound hsound
  group declared code _ hsound := Replay.sound_of_replay title declared code hsound
  mediaRef tocIndex := staysSound_of_still (still_loadMediaRef title tocIndex)

/-! ### Reachable loaders -/

theorem sound_start (title : Title Stock.catalog) (container : Container) :
    (start title container ()).Sound where
  sets index set hset := by
    simp only [start, SetTable.cached?, SetTable.ofEntries, List.getElem?_map] at hset
    cases hentry : title.manifest.sets[index]? with
    | none =>
        rw [hentry] at hset
        cases hset
    | some entry =>
        rw [hentry] at hset
        cases hset
  child set entry hentry := by cases hentry

theorem Sound.serve {loader : Loader Stock.catalog} (title : Title Stock.catalog)
    (hsound : loader.Sound) (request : Request) : (serve title loader request).Sound :=
  (carried_staysSound title).serve loader request hsound

/-- Every loader that can be reached is sound. -/
theorem Reachable.sound {title : Title Stock.catalog} {loader : Loader Stock.catalog}
    (h : Reachable title loader) : loader.Sound := by
  induction h with
  | start container => exact sound_start title container
  | serve request _ ih => exact ih.serve title request

end Playprint.Loader
