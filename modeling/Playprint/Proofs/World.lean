import Mathlib.Logic.Function.Basic
import Playprint.Proofs.Step
import Playprint.Stock
import Playprint.Title

/-!
What hangs on the sets of a world. With stock classes only attaching a role changes it: a step that does
anything else in a world is quiet, whether it answers or fails.
-/

namespace Playprint

namespace World

variable {K : Catalog} {ε α β : Type}

/-- The attachments on a set; none on a handle of another world. -/
def attachments (world : World K) (set : SetHandle) : List Attachment :=
  match world.stage? set with
  | some stage => K.stages.attachments stage.state
  | none => []

theorem attachments_of_le {world : World K} {set : SetHandle} (h : world.stages.size ≤ set.index) :
    world.attachments set = [] := by
  rw [attachments, stage?, Array.getElem?_eq_none h]

/-- Nothing was hung or taken down, and no set was lost. -/
def Quiet (before after : World K) : Prop :=
  after.attachments = before.attachments ∧ before.stages.size ≤ after.stages.size

instance : Std.Refl (Quiet (K := K)) := ⟨fun _ => ⟨rfl, Nat.le_refl _⟩⟩

instance : Trans (Quiet (K := K)) (Quiet (K := K)) (Quiet (K := K)) :=
  ⟨fun first second => ⟨second.1.trans first.1, Nat.le_trans first.2 second.2⟩⟩

theorem Quiet.of_stages {before after : World K} (h : after.stages = before.stages) :
    Quiet before after := by
  refine ⟨?_, Nat.le_of_eq (congrArg Array.size h).symm⟩
  funext set
  rw [attachments, attachments, stage?, stage?, h]

theorem quiet_onJournal (step : Step ε K.Journal α) : Step.Along Quiet (onJournal step : WorldStep ε K α) :=
  fun _ => .of_stages rfl

theorem quiet_noted (action : StateM K.Journal α) : Step.Along Quiet (noted action : WorldStep ε K α) :=
  quiet_onJournal _

/-! ### Sets that act -/

/-- The world in which a set has become another one. -/
def replaced (world : World K) (set : SetHandle) (stage : Object K.Stage) (journal : K.Journal) :
    World K :=
  ⟨world.stages.set! set.index stage, journal⟩

theorem stage?_replaced {world : World K} {set : SetHandle} {old stage : Object K.Stage}
    {journal : K.Journal} (h : world.stage? set = some old) (other : SetHandle) :
    (world.replaced set stage journal).stage? other =
      if other = set then some stage else world.stage? other := by
  obtain ⟨hindex, _⟩ := Array.getElem?_eq_some_iff.mp h
  by_cases hother : other = set
  · subst hother
    rw [if_pos rfl, stage?, replaced, Array.set!_eq_setIfInBounds,
      Array.getElem?_setIfInBounds_self_of_lt hindex]
  · have hne : set.index ≠ other.index := fun heq => hother (by cases other; cases set; simp_all)
    rw [if_neg hother, stage?, stage?, replaced, Array.set!_eq_setIfInBounds,
      Array.getElem?_setIfInBounds_ne hne]

theorem size_replaced (world : World K) (set : SetHandle) (stage : Object K.Stage)
    (journal : K.Journal) : (world.replaced set stage journal).stages.size = world.stages.size := by
  rw [replaced, Array.set!_eq_setIfInBounds, Array.size_setIfInBounds]

theorem outcome_onStage {set : SetHandle} {action : String → K.Stage → Step ε K.Journal K.Stage}
    {world : World K} {stage : Object K.Stage} {state : K.Stage} {journal : K.Journal}
    (hstage : world.stage? set = some stage)
    (haction : (action stage.className stage.state).outcome world.journal = (.ok state, journal)) :
    (onStage set action).outcome world = (.ok (), world.replaced set { stage with state } journal) := by
  have hjournal : (onJournal (action stage.className stage.state)).outcome world =
      (.ok state, { world with journal }) := by
    rw [onJournal, Step.outcome_on, haction]
  rw [onStage, Step.outcome_bind_ok (Step.outcome_get _), hstage]
  exact Step.outcome_bind_ok hjournal

/-- A set that acts has become what its action answers; without such a set nothing happens. -/
theorem onStage_ok {set : SetHandle} {action : String → K.Stage → Step ε K.Journal K.Stage}
    {world after : World K} (h : (onStage set action).outcome world = (.ok (), after)) :
    (world.stage? set = none ∧ after = world) ∨
    ∃ stage state journal, world.stage? set = some stage ∧
      (action stage.className stage.state).outcome world.journal = (.ok state, journal) ∧
      after = world.replaced set { stage with state } journal := by
  simp only [onStage, Step.outcome_bind_eq_ok_iff] at h
  obtain ⟨_, _, ⟨⟩, h⟩ := h
  split at h
  · rename_i hnone
    cases h
    exact .inl ⟨hnone, rfl⟩
  rename_i stage hstage
  simp only [Step.outcome_bind_eq_ok_iff] at h
  obtain ⟨state, mid, haction, h⟩ := h
  rw [onJournal, Step.outcome_on, Prod.mk.injEq] at haction
  obtain ⟨hanswer, rfl⟩ := haction
  cases h
  exact .inr ⟨stage, state, _, hstage, Prod.ext hanswer rfl, rfl⟩

theorem failsQuiet_onStage (set : SetHandle)
    (action : String → K.Stage → Step ε K.Journal K.Stage) :
    Step.FailsAlong Quiet (onStage set action) := by
  refine Step.FailsAlong.bind Step.Along.get fun world => ?_
  split
  · exact .pure _
  · exact .bind (quiet_onJournal _) fun state => .modify _

/-- A set may change anything but its attachments without a sign of it. -/
theorem quiet_onStage {set : SetHandle} {action : String → K.Stage → Step ε K.Journal K.Stage}
    (haction : ∀ className stage journal state left,
      (action className stage).outcome journal = (.ok state, left) →
        K.stages.attachments state = K.stages.attachments stage) :
    Step.Along Quiet (onStage set action) := by
  intro world
  rcases h : (onStage set action).outcome world with ⟨_ | _, after⟩
  · exact failsQuiet_onStage set action world after _ h
  rcases onStage_ok h with ⟨_, rfl⟩ | ⟨stage, state, journal, hstage, hdone, rfl⟩
  · exact Std.Refl.refl after
  refine ⟨?_, Nat.le_of_eq (size_replaced _ _ _ _).symm⟩
  funext other
  rw [attachments, attachments, stage?_replaced hstage]
  by_cases hother : other = set
  · subst hother
    rw [if_pos rfl, hstage]
    exact haction _ _ _ _ _ hdone
  · rw [if_neg hother]

end World

namespace Title

open World (Quiet quiet_noted)

variable {K : Catalog}

theorem quiet_newActor (title : Title K) (index : Nat) : Step.Along Quiet (title.newActor index) :=
  (Step.Along.ofExcept _).bind fun _ => (quiet_noted _).bind fun _ => .pure _

theorem quiet_newRole (title : Title K) (index : Nat) (actor : ActorRef) (set : SetHandle) :
    Step.Along Quiet (title.newRole index actor set) :=
  (Step.Along.ofExcept _).bind fun _ => Step.Along.get.bind fun _ =>
    (quiet_noted _).bind fun _ => .pure _

theorem quiet_newGroup (title : Title K) (index : Nat) : Step.Along Quiet (title.newGroup index) :=
  (Step.Along.ofExcept _).bind fun _ => (quiet_noted _).bind fun _ => .pure _

theorem quiet_newScene (title : Title K) (index : Nat) : Step.Along Quiet (title.newScene index) :=
  (Step.Along.ofExcept _).bind fun _ => (quiet_noted _).bind fun _ => .pure _

theorem quiet_newMediaRef (title : Title K) (index : Nat) :
    Step.Along Quiet (title.newMediaRef index) :=
  (Step.Along.ofExcept _).bind fun _ => (quiet_noted _).bind fun _ => .pure _

/-- A role is built for the actor it was asked for. -/
theorem actor_of_newRole {title : Title K} {index : Nat} {actor : ActorRef} {set : SetHandle}
    {world after : World K} {role : Role K}
    (h : (title.newRole index actor set).outcome world = (.ok role, after)) : role.actor = actor := by
  simp only [newRole, Step.outcome_bind_eq_ok_iff] at h
  obtain ⟨_, _, _, _, _, _, _, _, _, ⟨⟩⟩ := h
  rfl

/-- A group is built without members. -/
theorem members_of_newGroup {title : Title K} {index : Nat} {world after : World K} {group : Group K}
    (h : (title.newGroup index).outcome world = (.ok group, after)) : group.members = [] := by
  simp only [newGroup, Step.outcome_bind_eq_ok_iff] at h
  obtain ⟨_, _, _, _, _, _, ⟨⟩⟩ := h
  rfl

/-- A scene is built without groups. -/
theorem groups_of_newScene {title : Title K} {index : Nat} {world after : World K} {scene : Scene K}
    (h : (title.newScene index).outcome world = (.ok scene, after)) : scene.groups = [] := by
  simp only [newScene, Step.outcome_bind_eq_ok_iff] at h
  obtain ⟨_, _, _, _, _, _, ⟨⟩⟩ := h
  rfl

theorem resolve_ok {β : Type} {kind : ClassKind} {classes : List ClassEntry}
    {build? : String → Option β} {index : Nat} {name : String} {build : β}
    (h : resolve kind classes build? index = .ok (name, build)) :
    classes[index]?.map ClassEntry.name = some name ∧ ∃ key, build? key = some build := by
  unfold resolve at h
  split at h
  · cases h
  rename_i entry hentry
  split at h
  · cases h
  rename_i hbuild
  cases h
  exact ⟨by rw [hentry, Option.map_some], entry.builderKey, hbuild⟩

end Title

/-! ### Stock sets -/

namespace Stock

open World (Quiet)

variable {ε : Type} {world after : World catalog} {set : SetHandle}

theorem quiet_setProperty (name : String) (value : Property) :
    Step.Along Quiet (World.onStage set fun className stage =>
      catalog.stages.setProperty className name value stage) := by
  apply World.quiet_onStage
  rintro className stage journal state left ⟨⟩
  rfl

theorem quiet_setArray (name : String) (value : PropertyArray) :
    Step.Along Quiet (World.onStage set fun className stage =>
      catalog.stages.setArray className name value stage) := by
  apply World.quiet_onStage
  rintro className stage journal state left ⟨⟩
  rfl

theorem quiet_init (context : InitContext) :
    Step.Along Quiet (World.onStage set fun className stage =>
      catalog.stages.init className context stage) := by
  apply World.quiet_onStage
  rintro className stage journal state left ⟨⟩
  rfl

/-- The world with a new set that has nothing on it. -/
def withFresh (world : World catalog) (name : String) : World catalog :=
  { world with stages := world.stages.push ⟨name, Stage.fresh⟩ }

theorem size_withFresh (world : World catalog) (name : String) :
    (withFresh world name).stages.size = world.stages.size + 1 :=
  Array.size_push _

theorem quiet_withFresh (world : World catalog) (name : String) :
    Quiet world (withFresh world name) := by
  refine ⟨?_, ?_⟩
  · funext set
    simp only [World.attachments, World.stage?, withFresh, Array.getElem?_push]
    by_cases hset : set.index = world.stages.size
    · rw [if_pos hset, hset, Array.getElem?_eq_none (Nat.le_refl _)]
      rfl
    · rw [if_neg hset]
  · rw [size_withFresh]
    exact Nat.le_succ _

/-- There is one class of each kind. -/
theorem eq_of_onlyKey {α : Type} {name key : String} {value found : α}
    (h : onlyKey name value key = some found) : value = found := by
  rw [onlyKey] at h
  split at h
  · exact Option.some.inj h
  · cases h

/-- Whether a set can be built does not depend on the world. -/
theorem outcome_newSet (title : Title catalog) (index : Nat) :
    (∃ error, ∀ world, (title.newSet index).outcome world = (.error error, world)) ∨
    ∃ name, title.manifest.setClasses[index]?.map ClassEntry.name = some name ∧
      ∀ world, (title.newSet index).outcome world =
        (.ok ⟨world.stages.size⟩, withFresh world name) := by
  cases hresolve : Title.resolve .set title.manifest.setClasses catalog.stages.build? index with
  | error error =>
      refine .inl ⟨error, fun world => ?_⟩
      rw [Title.newSet, hresolve]
      rfl
  | ok found =>
      obtain ⟨name, build⟩ := found
      obtain ⟨hname, key, hbuild⟩ := Title.resolve_ok hresolve
      obtain rfl := eq_of_onlyKey hbuild
      refine .inr ⟨name, hname, fun world => ?_⟩
      rw [Title.newSet, hresolve]
      rfl

/-- A set that is built is the next one, and has nothing on it. -/
theorem newSet_ok {title : Title catalog} {index : Nat}
    (h : (title.newSet index).outcome world = (.ok set, after)) :
    set.index = world.stages.size ∧ ∃ name, after = withFresh world name := by
  rcases outcome_newSet title index with ⟨error, hnew⟩ | ⟨name, _, hnew⟩ <;> rw [hnew] at h <;> cases h
  exact ⟨rfl, name, rfl⟩

theorem quiet_newSet (title : Title catalog) (index : Nat) :
    Step.Along Quiet (title.newSet index) := by
  intro world
  rcases outcome_newSet title index with ⟨error, hnew⟩ | ⟨name, _, hnew⟩ <;> rw [hnew]
  · exact Std.Refl.refl world
  · exact quiet_withFresh world name

theorem attachments_of_stage? {stage : Object Stage} (h : world.stage? set = some stage) :
    world.attachments set = stage.state.attachments := by
  rw [World.attachments, h]
  rfl

/-- A set takes every role that it does not hold. -/
theorem outcome_attach {stage : Object Stage} {parent : Option ObjectId} {child : ObjectId}
    (hstage : world.stage? set = some stage)
    (hfree : ∀ entry ∈ world.attachments set, entry.child ≠ child) :
    (World.onStage set fun className stage =>
      catalog.stages.attach className parent child stage).outcome world =
        (.ok (), world.replaced set { stage with
          state := { stage.state with
            attachments := stage.state.attachments ++ [⟨parent, child⟩] } } ()) := by
  have habsent : ¬stage.state.holds child := by
    intro hholds
    obtain ⟨entry, hentry, hchild⟩ := List.any_eq_true.mp hholds
    exact hfree entry (attachments_of_stage? hstage ▸ hentry) (of_decide_eq_true hchild)
  apply World.outcome_onStage hstage
  change (Step.ofExcept (stage.state.attach parent child)).outcome world.journal = _
  rw [Step.outcome_ofExcept, Stage.attach, if_neg habsent]
  rfl

/-- Hanging a role adds it to the end of a set that did not hold it. -/
theorem attachments_of_attach {parent : Option ObjectId} {child : ObjectId}
    (hset : set.index < world.stages.size)
    (h : (World.onStage set fun className stage =>
      catalog.stages.attach className parent child stage).outcome world = (.ok (), after)) :
    (∀ entry ∈ world.attachments set, entry.child ≠ child) ∧
      after.attachments =
        Function.update world.attachments set (world.attachments set ++ [⟨parent, child⟩]) ∧
      after.stages.size = world.stages.size := by
  rcases World.onStage_ok h with ⟨hnone, _⟩ | ⟨stage, state, journal, hstage, hattach, rfl⟩
  · rw [World.stage?, Array.getElem?_eq_getElem hset] at hnone
    cases hnone
  have hlist := attachments_of_stage? hstage
  change (Step.ofExcept (stage.state.attach parent child)).outcome world.journal = _ at hattach
  rw [Step.outcome_ofExcept] at hattach
  unfold Stage.attach at hattach
  split at hattach
  · cases hattach
  rename_i hfree
  cases hattach
  refine ⟨?_, ?_, World.size_replaced _ _ _ _⟩
  · rw [hlist]
    intro entry hentry heq
    exact hfree (List.any_eq_true.mpr ⟨entry, hentry, decide_eq_true heq⟩)
  · funext other
    rw [World.attachments, World.stage?_replaced hstage]
    by_cases hother : other = set
    · subst hother
      rw [if_pos rfl, Function.update_self, hlist]
      rfl
    · rw [if_neg hother, Function.update_of_ne hother]
      rfl

end Stock

end Playprint
