import Playprint.Proofs.Container.Locality
import Playprint.Proofs.Loader.Sets
import Playprint.Proofs.Replay.Paired

/-!
What the chunk of a set builds. The byte code of a set chunk looks at no sets but those that it has built
itself. So it builds the same in an empty world as behind all the sets of a loader, or fails for the same
cause; and a loader that could not build a set is exactly the loader from before.
-/

namespace Playprint

open Step (Matched Paired Same)
open Container (Agree Apart)

/-- The handle of a set once so many others stand before it. -/
def SetHandle.behind (count : Nat) (set : SetHandle) : SetHandle := ⟨count + set.index⟩

/-- The table with one slot filled. -/
def SetTable.fill (table : SetTable) (index : Nat) (set : SetHandle) : SetTable :=
  ⟨table.slots.modify index fun slot => { slot with set := some set }⟩

namespace World

variable {K : Catalog} {before world : World K} {set : SetHandle}

/-- The world with the sets of another one before its own. -/
def behind (before world : World K) : World K :=
  ⟨before.stages ++ world.stages, world.journal⟩

theorem stage?_behind : (behind before world).stage? (set.behind before.stages.size) = world.stage? set := by
  show (before.stages ++ world.stages)[before.stages.size + set.index]? = world.stages[set.index]?
  rw [Array.getElem?_append_right (Nat.le_add_right _ _), Nat.add_sub_cancel_left]

theorem stage?_behind_of_lt (h : set.index < before.stages.size) :
    (behind before world).stage? set = before.stage? set :=
  Array.getElem?_append_left h

theorem replaced_behind (stage : Object K.Stage) (journal : K.Journal) :
    (behind before world).replaced (set.behind before.stages.size) stage journal =
      behind before (world.replaced set stage journal) := by
  show World.mk ((before.stages ++ world.stages).setIfInBounds (before.stages.size + set.index) stage)
    journal = World.mk (before.stages ++ world.stages.setIfInBounds set.index stage) journal
  rw [Array.setIfInBounds_append_right (Nat.le_add_right _ _), Nat.add_sub_cancel_left]

theorem behind_empty (before : World Stock.catalog) : behind before (.empty ()) = before := by
  show World.mk (before.stages ++ #[]) () = before
  rw [Array.append_empty]
  rfl

theorem keepStages_behind :
    (behind before world).keepStages before.stages.size = ⟨before.stages, world.journal⟩ := by
  show World.mk ((before.stages ++ world.stages).take before.stages.size) world.journal =
    World.mk before.stages world.journal
  rw [Array.take_eq_extract, Array.extract_append_left, Array.extract_size]

end World

theorem Stock.withFresh_behind (before world : World Stock.catalog) (name : String) :
    withFresh (World.behind before world) name = World.behind before (withFresh world name) := by
  show World.mk ((before.stages ++ world.stages).push ⟨name, Stage.fresh⟩) _ =
    World.mk (before.stages ++ world.stages.push ⟨name, Stage.fresh⟩) _
  rw [Array.push_append]
  rfl

namespace Replay

variable {title : Title Stock.catalog} {loader : Loader Stock.catalog}
  {alone inside replay : Replay Stock.catalog Desk}

/-- A set as it is while its chunk runs: of its class, with nothing on it, and not initialised. -/
structure Newborn (title : Title Stock.catalog) (typeIndex : Nat) (stage : Object Stock.Stage) : Prop where
  className : title.manifest.setClasses[typeIndex]?.map ClassEntry.name = some stage.className
  attachments : stage.state.attachments = []
  initCount : stage.state.initCount = 0

/-- The replay of a set chunk as a loader runs it, whose sets stand before those of the chunk. -/
def behind (loader : Loader Stock.catalog) (replay : Replay Stock.catalog Desk) :
    Replay Stock.catalog Desk :=
  { replay with
    created := replay.created.map fun made => (made.1, made.2.behind loader.world.stages.size)
    session := ⟨loader.host, World.behind loader.world replay.session.world⟩ }

/-- A replay of a set chunk by itself, and the one that a loader runs. -/
structure Shifted (title : Title Stock.catalog) (loader : Loader Stock.catalog)
    (alone inside : Replay Stock.catalog Desk) : Prop where
  inside : inside = alone.behind loader
  slots : alone.slots = #[]
  newborn : ∀ typeIndex set, alone.created = some (typeIndex, set) →
    ∃ stage, alone.session.world.stage? set = some stage ∧ Newborn title typeIndex stage

theorem shifted_setRegisters (f : Registers → Registers) :
    Paired (Shifted title loader) (fun _ _ => Shifted title loader) (Shifted title loader)
      (setRegisters f) (setRegisters f) := by
  apply Paired.modify
  rintro alone _ ⟨rfl, hslots, hnewborn⟩
  exact ⟨rfl, hslots, hnewborn⟩

/-! ### The instructions of set chunks -/

/-- The set with a value assigned to a property. -/
def assigned (name : String) (value : Assignment) (stage : Object Stock.Stage) : Object Stock.Stage :=
  { stage with state := match value with
    | .single value => stage.state.setProperty name value
    | .array value => stage.state.setArray name value }

theorem Newborn.assigned {typeIndex : Nat} {stage : Object Stock.Stage}
    (h : Newborn title typeIndex stage) (name : String) (value : Assignment) :
    Newborn title typeIndex (Replay.assigned name value stage) := by
  cases value with
  | single value => exact ⟨h.className, h.attachments, h.initCount⟩
  | array value => exact ⟨h.className, h.attachments, h.initCount⟩

theorem outcome_assignToSet_none (name : String) (value : Assignment) (hcreated : replay.created = none) :
    (assignToSet name value).outcome replay = (.error (.format .noActiveSet), replay) := by
  rw [assignToSet, Step.outcome_bind_ok (Step.outcome_get _), hcreated]
  rfl

theorem outcome_assignToSet {typeIndex : Nat} {set : SetHandle} {stage : Object Stock.Stage}
    (name : String) (value : Assignment) (hcreated : replay.created = some (typeIndex, set))
    (hstage : replay.session.world.stage? set = some stage) :
    (assignToSet name value).outcome replay =
      (.ok (), replay.inWorld (replay.session.world.replaced set (assigned name value stage) ())) := by
  rw [assignToSet, Step.outcome_bind_ok (Step.outcome_get _), hcreated]
  apply onWorld_eq_ok_iff.mpr
  refine ⟨_, World.outcome_onStage hstage ?_, rfl⟩
  cases value <;> rfl

theorem shifted_assignToSet (name : String) (value : Assignment) :
    Paired (Shifted title loader) (fun _ _ => Shifted title loader) (Shifted title loader)
      (assignToSet name value) (assignToSet name value) := by
  rintro alone _ ⟨rfl, hslots, hnewborn⟩
  cases hcreated : alone.created with
  | none =>
      have hinside : (alone.behind loader).created = none := by
        rw [behind, hcreated, Option.map_none]
      rw [outcome_assignToSet_none name value hcreated, outcome_assignToSet_none name value hinside]
      exact .error ⟨rfl, hslots, hnewborn⟩
  | some made =>
      obtain ⟨typeIndex, set⟩ := made
      obtain ⟨stage, hstage, hborn⟩ := hnewborn typeIndex set hcreated
      have hinside : (alone.behind loader).created =
          some (typeIndex, set.behind loader.world.stages.size) := by
        rw [behind, hcreated, Option.map_some]
      rw [outcome_assignToSet name value hcreated hstage,
        outcome_assignToSet name value hinside (World.stage?_behind.trans hstage)]
      refine .ok ⟨?_, hslots, ?_⟩
      · exact congrArg (fun world => inWorld world (alone.behind loader)) (World.replaced_behind _ _)
      · intro typeIndex' set' hmade
        obtain ⟨rfl, rfl⟩ := Prod.mk.inj (Option.some.inj (hcreated.symm.trans hmade))
        refine ⟨assigned name value stage, ?_, hborn.assigned name value⟩
        exact (World.stage?_replaced hstage set).trans (if_pos rfl)

theorem shifted_assign (value : Assignment) :
    Paired (Shifted title loader) (fun _ _ => Shifted title loader) (Shifted title loader)
      (assign (.set title) value) (assign (.set title) value) := by
  apply Paired.get_bind
  rintro alone _ h
  obtain rfl := h.inside
  have hregisters : (alone.behind loader).registers.property = alone.registers.property := rfl
  rw [hregisters]
  cases alone.registers.property with
  | none => exact .error h
  | some name => exact shifted_assignToSet name value _ _ h

/-- The state after a set of a class was built. -/
def withCreated (typeIndex : Nat) (name : String) (replay : Replay Stock.catalog Desk) :
    Replay Stock.catalog Desk :=
  { replay.inWorld (Stock.withFresh replay.session.world name) with
    created := some (typeIndex, ⟨replay.session.world.stages.size⟩) }

theorem outcome_createSet (script : Script Stock.catalog) (host : Host Stock.catalog Desk)
    (typeIndex : Nat) :
    (∃ error, ∀ replay, (perform script host (.createSet typeIndex)).outcome replay =
      (.error error, replay)) ∨
    ∃ name, script.title.manifest.setClasses[typeIndex]?.map ClassEntry.name = some name ∧
      ∀ replay, (perform script host (.createSet typeIndex)).outcome replay =
        (.ok (), replay.withCreated typeIndex name) := by
  rcases Stock.outcome_newSet script.title typeIndex with ⟨error, hnew⟩ | ⟨name, hname, hnew⟩
  · refine .inl ⟨.construction error, fun replay => ?_⟩
    rw [perform, onWorld, Step.outcome_bind, Step.outcome_on, Step.outcome_mapError, hnew]
    rfl
  · refine .inr ⟨name, hname, fun replay => ?_⟩
    rw [perform, Step.outcome_bind_ok (onWorld_eq_ok_iff.mpr ⟨_, hnew _, rfl⟩)]
    rfl

theorem withCreated_behind (typeIndex : Nat) (name : String) :
    (alone.behind loader).withCreated typeIndex name = (alone.withCreated typeIndex name).behind loader := by
  have hsize : (World.behind loader.world alone.session.world).stages.size =
      loader.world.stages.size + alone.session.world.stages.size := Array.size_append
  have hworld := Stock.withFresh_behind loader.world alone.session.world name
  show (⟨_, some (typeIndex, ⟨(World.behind loader.world alone.session.world).stages.size⟩), _, ⟨_,
    Stock.withFresh (World.behind loader.world alone.session.world) name⟩⟩ : Replay Stock.catalog Desk) = _
  rw [hsize, hworld]
  rfl

theorem shifted_createSet (host : Host Stock.catalog Desk) (typeIndex : Nat) :
    Paired (Shifted title loader) (fun _ _ => Shifted title loader) (Shifted title loader)
      (perform (.set title) host (.createSet typeIndex))
      (perform (.set title) host (.createSet typeIndex)) := by
  rintro alone _ ⟨rfl, hslots, hnewborn⟩
  rcases outcome_createSet (.set title) host typeIndex with ⟨error, hnew⟩ | ⟨name, hname, hnew⟩
  · rw [hnew, hnew]
    exact .error ⟨rfl, hslots, hnewborn⟩
  · rw [hnew, hnew]
    refine .ok ⟨withCreated_behind typeIndex name, hslots, ?_⟩
    rintro _ _ ⟨⟩
    exact ⟨⟨name, Stock.Stage.fresh⟩, Array.getElem?_push_size, hname, rfl, rfl⟩

/-- Without slots no role goes under another one. -/
theorem shifted_childRole (host : Host Stock.catalog Desk) (child : Nat) :
    Paired (Shifted title loader) (fun _ _ => Shifted title loader) (Shifted title loader)
      (perform (.set title) host (.childRole child)) (perform (.set title) host (.childRole child)) := by
  have hrefused (parent : Nat) (replay : Replay Stock.catalog Desk) (hslots : replay.slots = #[]) :
      (attachChild parent child).outcome replay = (.error (.format (.actorSlot parent 0)), replay) := by
    simp only [attachChild, slotAt, Step.outcome_bind, Step.outcome_get, hslots]
    rfl
  apply Paired.get_bind
  rintro alone _ h
  obtain rfl := h.inside
  have hregisters : (alone.behind loader).registers.parent = alone.registers.parent := rfl
  rw [hregisters]
  cases alone.registers.parent with
  | none => exact .error h
  | some parent =>
      have hinside : (alone.behind loader).slots = #[] := h.slots
      rw [Step.outcome_bind_error (hrefused parent _ h.slots),
        Step.outcome_bind_error (hrefused parent _ hinside)]
      exact .error h

theorem shifted_setPropertyOffset (host : Host Stock.catalog Desk) (index : Nat) :
    Paired (Shifted title loader) (fun _ _ => Shifted title loader) (Shifted title loader)
      (perform (.set title) host (.setPropertyOffset index))
      (perform (.set title) host (.setPropertyOffset index)) := by
  simp only [perform]
  cases (Script.set title).propertyName index with
  | error error => exact Paired.throw _ fun _ _ => id
  | ok name => exact shifted_setRegisters _

theorem permit_behind (op : Opcode) :
    permit (.set title) op (alone.behind loader) = permit (.set title) op alone := by
  cases op <;> rfl

theorem shifted_execute (host : Host Stock.catalog Desk) (instruction : Instruction) :
    Paired (Shifted title loader) (fun _ _ => Shifted title loader) (Shifted title loader)
      (execute (.set title) host instruction) (execute (.set title) host instruction) := by
  intro alone inside h
  obtain rfl := h.inside
  apply matched_execute (permit_behind _) h
  intro hpermit
  cases instruction with
  | createActor typeIndex => cases hpermit
  | bindRole typeIndex =>
      rw [Instruction.opcode, permit, roleTarget, h.slots] at hpermit
      cases hpermit
  | setSet index | parentRole index | setPropertyLength index =>
      simp only [perform]
      exact shifted_setRegisters _ _ _ h
  | childRole child => exact shifted_childRole host child _ _ h
  | setPropertyOffset index => exact shifted_setPropertyOffset host index _ _ h
  | copyProperty data | copyDynamicProperty data | copyMediaRef index =>
      simp only [perform]
      exact shifted_assign _ _ _ h
  | copyArrayProperty count data =>
      simp only [perform, Step.outcome_bind_ok (Step.outcome_get _)]
      exact shifted_assign _ _ _ h
  | createSet typeIndex => exact shifted_createSet host typeIndex _ _ h
  | endActorGroup | endSet => exact .ok h

/-- The chunk of a set, replayed in an empty world and behind the sets of a loader. -/
theorem matched_replay_set (title : Title Stock.catalog) (host : Host Stock.catalog Desk) (code : Cursor)
    {first : Loader Stock.catalog} (hempty : first.world = .empty ()) (loader : Loader Stock.catalog) :
    Matched (fun one other left left' => Shifted title loader one other ∧ left = one.session ∧
        left' = other.session)
      (fun left left' => ∃ one other, Shifted title loader one other ∧ left = one.session ∧
        left' = other.session)
      ((Loader.replay (.set title) host code).outcome first)
      ((Loader.replay (.set title) host code).outcome loader) := by
  have hstart : Shifted title loader (start first) (start loader) := by
    refine ⟨?_, rfl, fun _ _ h => nomatch h⟩
    show start loader = ⟨#[], none, .fresh, ⟨loader.host, World.behind loader.world first.world⟩⟩
    rw [hempty, World.behind_empty]
    rfl
  apply matched_replay (R := Shifted title loader) ?_ (shifted_execute host) (fun _ _ => id)
    (Paired.pure fun _ _ => id) code hstart
  rintro alone _ ⟨rfl, _, _⟩
  exact fetch_congr permit_behind rfl

end Replay

namespace Loader

section Containers

variable {K : Catalog} {first second : Loader K} {α : Type}

/-- The loader with its container in another state. -/
def withContainer (container : Container) (loader : Loader K) : Loader K :=
  { loader with host := { loader.host with container } }

/-- The loader with its stream at another position. -/
def moved (pos : Nat) (loader : Loader K) : Loader K :=
  loader.withContainer (loader.host.container.moved pos)

/-- Two loaders that differ from these in their containers only, which are related. -/
def Beside (first second : Loader K) (R : Container → Container → Prop) (s t : Loader K) : Prop :=
  ∃ one other, R one other ∧ s = first.withContainer one ∧ t = second.withContainer other

theorem paired_onContainer {R S E : Container → Container → Prop} {step : ContainerStep α}
    (h : Paired R (Same S) E step step) :
    Paired (Beside first second R) (Same (Beside first second S)) (Beside first second E)
      (onContainer step) (onContainer step) := by
  rintro _ _ ⟨one, other, hone, rfl, rfl⟩
  refine Paired.on (h.mapError one other hone) ?_ ?_
  · rintro a b left left' ⟨rfl, hleft⟩
    exact ⟨rfl, left, left', hleft, rfl, rfl⟩
  · intro left left' hleft
    exact ⟨left, left', hleft, rfl, rfl⟩

theorem paired_chunkCode (hagree : Agree first.host.container second.host.container) (tocIndex : Nat)
    (tag : Tag) :
    Paired (Beside first second (Apart first.host.container second.host.container))
      (Same (Beside first second (Apart first.host.container second.host.container)))
      (Beside first second (Apart first.host.container second.host.container))
      (chunkCode tocIndex tag) (chunkCode tocIndex tag) := by
  refine (paired_onContainer (Container.paired_readChunkAt hagree tocIndex tag)).bind_same fun payload => ?_
  apply Paired.get_bind
  rintro s t h
  obtain ⟨_, _, ⟨pos, pos', rfl, rfl⟩, rfl, rfl⟩ := h
  refine .ok ⟨?_, _, _, ⟨pos, pos', rfl, rfl⟩, rfl, rfl⟩
  exact congrArg (fun order => Cursor.ofBytes order payload) hagree.order

/-- Two loaders are beside themselves. -/
theorem beside_refl : Beside first second (Apart first.host.container second.host.container) first second :=
  ⟨_, _, ⟨_, _, rfl, rfl⟩, rfl, rfl⟩

end Containers

variable {title : Title Stock.catalog} {container : Container} {loader : Loader Stock.catalog}

/-! ### Building a set -/

/-- The loader with these sets behind its own. -/
def before (loader : Loader Stock.catalog) (world : World Stock.catalog) : Loader Stock.catalog :=
  ⟨loader.host, World.behind loader.world world⟩

theorem matched_replaySet (hagree : Agree container loader.host.container) (title : Title Stock.catalog)
    (tocIndex : Nat) :
    Matched (fun made made' left left' =>
        made' = made.map (fun made => (made.1, made.2.behind loader.world.stages.size)) ∧
        (∀ typeIndex set, made = some (typeIndex, set) →
          ∃ stage, left.world.stage? set = some stage ∧ Replay.Newborn title typeIndex stage) ∧
        ∃ pos, left' = (loader.moved pos).before left.world)
      (fun left left' =>
        ∃ pos, left' = (loader.moved pos).before left.world)
      ((replaySet title tocIndex).outcome (start title container ()))
      ((replaySet title tocIndex).outcome loader) := by
  have hstart : Agree (start title container ()).host.container loader.host.container := hagree
  have hcode := paired_chunkCode hstart tocIndex Tag.set _ _ beside_refl
  refine (hcode.failing ?failed).bind fun code code' => ?replayed
  case failed =>
    rintro _ _ ⟨_, _, ⟨_, pos, rfl, rfl⟩, rfl, rfl⟩
    refine ⟨pos, ?_⟩
    exact congrArg (fun world => (⟨_, world⟩ : Loader Stock.catalog)) (World.behind_empty loader.world).symm
  case replayed =>
    rintro _ _ ⟨rfl, _, _, ⟨_, pos, rfl, rfl⟩, rfl, rfl⟩
    refine Matched.bind (Matched.mono (Replay.matched_replay_set title setHost code rfl
      (loader.moved pos)) (fun _ _ _ _ => id) ?_) ?_
    · rintro _ _ ⟨one, _, ⟨rfl, _, _⟩, rfl, rfl⟩
      exact ⟨pos, rfl⟩
    · rintro one _ _ _ ⟨⟨rfl, _, hborn⟩, rfl, rfl⟩
      exact .ok ⟨rfl, hborn, pos, rfl⟩

/-- The set that a chunk builds for an index, among all sets that it builds, in an empty world. -/
def ownSet (title : Title Stock.catalog) (container : Container) (index : Nat) (chunk : UInt32) :
    Except LoadError (SetHandle × World Stock.catalog) :=
  match (replaySet title chunk.toNat).outcome (start title container ()) with
  | (.error error, _) => .error error
  | (.ok none, _) => .error (.format (.setNotCreated index))
  | (.ok (some (typeIndex, set)), left) =>
    if typeIndex = index then .ok (set, left.world) else .error (.format (.setNotCreated index))

theorem ownSet_of_error {index : Nat} {chunk : UInt32} {error : LoadError} {left : Loader Stock.catalog}
    (h : (replaySet title chunk.toNat).outcome (start title container ()) = (.error error, left)) :
    ownSet title container index chunk = .error error := by
  rw [ownSet, h]

theorem ownSet_of_ok {index : Nat} {chunk : UInt32} {set : SetHandle} {left : Loader Stock.catalog}
    (h : (replaySet title chunk.toNat).outcome (start title container ()) =
      (.ok (some (index, set)), left)) :
    ownSet title container index chunk = .ok (set, left.world) := by
  simp only [ownSet, h, if_true]

theorem ownSet_of_other {index : Nat} {chunk : UInt32} {made : Option (Nat × SetHandle)}
    {left : Loader Stock.catalog} (hmade : ∀ set, made ≠ some (index, set))
    (h : (replaySet title chunk.toNat).outcome (start title container ()) = (.ok made, left)) :
    ownSet title container index chunk = .error (.format (.setNotCreated index)) := by
  cases made with
  | none => rw [ownSet, h]
  | some made =>
      obtain ⟨typeIndex, set⟩ := made
      have hne : typeIndex ≠ index := fun heq => hmade set (heq ▸ rfl)
      simp only [ownSet, h, if_neg hne]

/-- The loader with the sets of a world behind its own, one of them under an index of the table. -/
def withSet (index : Nat) (set : SetHandle) (world : World Stock.catalog)
    (loader : Loader Stock.catalog) : Loader Stock.catalog :=
  ⟨{ loader.host with sets := loader.host.sets.fill index set }, World.behind loader.world world⟩

/-- The set after it was initialised. -/
def initialised (stage : Object Stock.Stage) : Object Stock.Stage :=
  { stage with state := stage.state.init }

theorem outcome_installSet {index : Nat} {set : SetHandle} {stage : Object Stock.Stage}
    (hstage : loader.world.stage? set = some stage) (hroom : index < loader.host.sets.size) :
    (installSet index (some (index, set))).outcome loader =
      (.ok set, ⟨{ loader.host with sets := loader.host.sets.fill index set },
        loader.world.replaced set (initialised stage) ()⟩) := by
  have hinit : (onWorld (World.onStage set fun className stage =>
      Stock.catalog.stages.init className ⟨none, loader.host.around.scene⟩ stage)).outcome loader =
        (.ok (), ⟨loader.host, loader.world.replaced set (initialised stage) ()⟩) := by
    rw [onWorld, Step.outcome_on, Step.outcome_mapError, World.outcome_onStage hstage rfl]
    rfl
  simp only [installSet, ne_eq, not_true_eq_false, if_false]
  rw [Step.outcome_bind_ok (Step.outcome_get _), Step.outcome_bind_ok hinit,
    Step.outcome_bind_ok (Step.outcome_get _)]
  simp only [SetTable.install, if_pos hroom]
  rfl

theorem outcome_installSet_error {index : Nat} {created : Option (Nat × SetHandle)}
    (h : ∀ set, created ≠ some (index, set)) :
    (installSet index created).outcome loader = (.error (.format (.setNotCreated index)), loader) := by
  cases created with
  | none => rfl
  | some created =>
      obtain ⟨typeIndex, set⟩ := created
      have hne : typeIndex ≠ index := fun heq => h set (heq ▸ rfl)
      simp only [installSet, if_pos hne]
      rfl

/-- The stream is put back where it was, whatever the replay came to. -/
theorem outcome_goto_saved (world : World Stock.catalog) (pos : Nat) :
    (onContainer (Container.goto loader.host.container.stream.pos)).outcome
      ((loader.moved pos).before world) =
        (.ok (), loader.before world) := rfl

theorem outcome_assembleSet (index : Nat) {pos : Nat} {chunk : UInt32} {made : Option (Nat × SetHandle)}
    {world : World Stock.catalog}
    (h : (replaySet title chunk.toNat).outcome loader =
      (.ok made, (loader.moved pos).before world)) :
    (assembleSet title index chunk).outcome loader = (installSet index made).outcome (loader.before world) := by
  have hposition : (onContainer Container.position).outcome loader =
      (.ok loader.host.container.stream.pos, loader) := rfl
  rw [assembleSet, Step.outcome_bind_ok hposition,
    Step.outcome_bind_ok (Step.outcome_closing h (outcome_goto_saved world pos))]

theorem outcome_assembleSet_error {index pos : Nat} {chunk : UInt32} {error : LoadError}
    {world : World Stock.catalog}
    (h : (replaySet title chunk.toNat).outcome loader =
      (.error error, (loader.moved pos).before world)) :
    (assembleSet title index chunk).outcome loader = (.error error, loader.before world) := by
  have hposition : (onContainer Container.position).outcome loader =
      (.ok loader.host.container.stream.pos, loader) := rfl
  rw [assembleSet, Step.outcome_bind_ok hposition,
    Step.outcome_bind_error (Step.outcome_closing h (outcome_goto_saved world pos))]

/-- The sets that a failed build has left behind those of the loader are dropped. -/
theorem keepStages_before (loader : Loader Stock.catalog) (world : World Stock.catalog) :
    { loader.before world with
      world := (loader.before world).world.keepStages loader.world.stages.size } = loader :=
  congrArg (fun world => (⟨loader.host, world⟩ : Loader Stock.catalog)) World.keepStages_behind

/-- A build that fails leaves the loader as it was, and one that succeeds adds just what the chunk builds
in an empty world. -/
theorem buildSet_own {index : Nat} (hagree : Agree container loader.host.container)
    (hroom : index < loader.host.sets.size) (title : Title Stock.catalog) (chunk : UInt32) :
    (∃ error, ownSet title container index chunk = .error error ∧
      (buildSet title index chunk).outcome loader = (.error error, loader)) ∨
    ∃ set world stage, ownSet title container index chunk = .ok (set, world) ∧
      world.stage? set = some stage ∧ Replay.Newborn title index stage ∧
      (buildSet title index chunk).outcome loader = (.ok (set.behind loader.world.stages.size),
        loader.withSet index (set.behind loader.world.stages.size)
          (world.replaced set (initialised stage) ())) := by
  rw [outcome_buildSet]
  rcases (matched_replaySet hagree title chunk.toNat).ends with
    ⟨made, _, alone, _, halone, hinside, rfl, hborn, pos, rfl⟩ |
    ⟨error, alone, _, halone, hinside, pos, rfl⟩
  · have hbuild := outcome_assembleSet index hinside
    by_cases hmade : ∃ set, made = some (index, set)
    · obtain ⟨set, rfl⟩ := hmade
      obtain ⟨stage, hstage, hnewborn⟩ := hborn index set rfl
      refine .inr ⟨set, alone.world, stage, ownSet_of_ok halone, hstage, hnewborn, ?_⟩
      have hstage' : (loader.before alone.world).world.stage?
          (set.behind loader.world.stages.size) = some stage := World.stage?_behind.trans hstage
      have hinstall := outcome_installSet hstage' hroom
      rw [Step.outcome_onFailure_ok (hbuild.trans hinstall)]
      exact congrArg (fun world => (_, (⟨_, world⟩ : Loader Stock.catalog))) (World.replaced_behind _ _)
    · have hother : ∀ set, made ≠ some (index, set) := fun set heq => hmade ⟨set, heq⟩
      refine .inl ⟨_, ownSet_of_other hother halone, ?_⟩
      have hrefused : ∀ set, made.map (fun made => (made.1, made.2.behind loader.world.stages.size)) ≠
          some (index, set) := by
        intro set heq
        obtain ⟨⟨_, set'⟩, hsome, ⟨⟩⟩ := Option.map_eq_some_iff.mp heq
        exact hother set' hsome
      rw [Step.outcome_onFailure_error (hbuild.trans (outcome_installSet_error hrefused)), keepStages_before]
  · refine .inl ⟨error, ownSet_of_error halone, ?_⟩
    rw [Step.outcome_onFailure_error (outcome_assembleSet_error hinside), keepStages_before]

end Loader

end Playprint
