import Playprint.Loader
import Playprint.Proofs.Replay.Effects
import Playprint.Proofs.Replay.Rounds
import Playprint.Proofs.World

/-!
Loading sets, over stock classes. The byte code of a set chunk hangs nothing and touches nothing of the
loader but the world, so that loading a set is quiet, and the set that it answers exists. A load that
failed leaves no set behind that the table could name.
-/

namespace Playprint

open World (Quiet)

/-! ### Replays of set chunks -/

namespace Replay

variable {σ : Type} {before after replay : Replay Stock.catalog σ}

/-- A replay without actors, of which the set that it built exists. -/
structure Bare (replay : Replay Stock.catalog σ) : Prop where
  slots : replay.slots = #[]
  created : ∀ typeIndex set, replay.created = some (typeIndex, set) →
    set.index < replay.session.world.stages.size

/-- From a bare replay to a bare one, with the host as it was and nothing hung. -/
def StaysBare (before after : Replay Stock.catalog σ) : Prop :=
  before.Bare → after.Bare ∧ after.session.host = before.session.host ∧
    Quiet before.session.world after.session.world

instance : Std.Refl (StaysBare (σ := σ)) := ⟨fun _ h => ⟨h, rfl, Std.Refl.refl _⟩⟩

instance : Trans (StaysBare (σ := σ)) (StaysBare (σ := σ)) (StaysBare (σ := σ)) where
  trans hfirst hsecond hbare := by
    obtain ⟨hmid, hhost, hquiet⟩ := hfirst hbare
    obtain ⟨hlast, hhost', hquiet'⟩ := hsecond hmid
    exact ⟨hlast, hhost'.trans hhost, Trans.trans hquiet hquiet'⟩

theorem staysBare_setRegisters (f : Registers → Registers) :
    Step.Along StaysBare (setRegisters f : ReplayStep Stock.catalog σ Unit) :=
  fun _ hbare => ⟨⟨hbare.slots, hbare.created⟩, rfl, Std.Refl.refl _⟩

theorem staysBare_onWorld {ε α : Type} (tell : ε → LoadError) {step : WorldStep ε Stock.catalog α}
    (h : Step.Along Quiet step) :
    Step.Along StaysBare (onWorld tell step : ReplayStep Stock.catalog σ α) := by
  intro replay hbare
  have hquiet := h replay.session.world
  refine ⟨⟨hbare.slots, fun typeIndex set hset => ?_⟩, rfl, hquiet⟩
  exact Nat.lt_of_lt_of_le (hbare.created typeIndex set hset) hquiet.2

theorem staysBare_assign (title : Title Stock.catalog) (value : Assignment) :
    Step.Along StaysBare (assign (.set title) value : ReplayStep Stock.catalog σ Unit) := by
  unfold assign
  refine Step.Along.get.bind fun replay => ?_
  cases replay.registers.property with
  | none => exact .throw _
  | some name =>
      change Step.Along StaysBare (assignToSet name value)
      unfold assignToSet
      refine Step.Along.get.bind fun replay => ?_
      cases replay.created with
      | none => exact .throw _
      | some created =>
          cases value with
          | single value => exact staysBare_onWorld _ (Stock.quiet_setProperty name value)
          | array value => exact staysBare_onWorld _ (Stock.quiet_setArray name value)

theorem staysBare_createSet (title : Title Stock.catalog) (host : Host Stock.catalog σ)
    (typeIndex : Nat) :
    Step.Along StaysBare (perform (.set title) host (.createSet typeIndex)) := by
  intro replay hbare
  rcases h : (perform (.set title) host (.createSet typeIndex)).outcome replay with ⟨error | _, after⟩
  · rcases Step.outcome_bind_eq_error_iff.mp h with hset | ⟨_, _, _, ⟨⟩⟩
    change (onWorld .construction (title.newSet typeIndex)).outcome replay = _ at hset
    exact (staysBare_onWorld .construction (Stock.quiet_newSet title typeIndex)).of_outcome hset hbare
  · obtain ⟨set, mid, hset, hrest⟩ := Step.outcome_bind_eq_ok_iff.mp h
    obtain ⟨world, hworld, rfl⟩ := onWorld_eq_ok_iff.mp hset
    obtain ⟨hindex, name, rfl⟩ := Stock.newSet_ok hworld
    cases hrest
    refine ⟨⟨hbare.slots, ?_⟩, rfl, Stock.quiet_withFresh _ name⟩
    rintro _ _ ⟨⟩
    change set.index < (Stock.withFresh replay.session.world name).stages.size
    rw [hindex, Stock.size_withFresh]
    exact Nat.lt_succ_self _

/-- Without slots there is nothing to attach. -/
theorem staysBare_attachChild (parent child : Nat) :
    Step.Along StaysBare (attachChild parent child : ReplayStep Stock.catalog σ Unit) := by
  intro replay hbare
  have hnone : (slotAt parent : ReplayStep Stock.catalog σ _).outcome replay =
      (.error (.format (.actorSlot parent replay.slots.size)), replay) := by
    simp only [slotAt, Step.outcome_bind, Step.outcome_get, hbare.slots]
    rfl
  rw [attachChild, Step.outcome_bind_error hnone]
  exact ⟨hbare, rfl, Std.Refl.refl _⟩

theorem staysBare_childRole (title : Title Stock.catalog) (host : Host Stock.catalog σ) (child : Nat) :
    Step.Along StaysBare (perform (.set title) host (.childRole child)) := by
  refine Step.Along.get.bind fun replay => ?_
  cases replay.registers.parent with
  | none => exact .throw _
  | some parent => exact (staysBare_attachChild parent child).bind fun _ => staysBare_setRegisters _

theorem staysBare_copyArrayProperty (title : Title Stock.catalog) (host : Host Stock.catalog σ)
    (count : UInt32) (data : Bytes) :
    Step.Along StaysBare (perform (.set title) host (.copyArrayProperty count data)) :=
  Step.Along.get.bind fun _ => staysBare_assign title _

/-- No instruction of a set chunk creates an actor or hangs a role. -/
theorem staysBare_execute (title : Title Stock.catalog) (host : Host Stock.catalog σ)
    (instruction : Instruction) : Step.Along StaysBare (execute (.set title) host instruction) := by
  intro replay hbare
  rw [execute, Step.outcome_bind_ok (Step.outcome_get _)]
  cases hpermit : permit (.set title) instruction.opcode replay with
  | error error => exact ⟨hbare, rfl, Std.Refl.refl _⟩
  | ok _ =>
      cases instruction with
      | createActor typeIndex => cases hpermit
      | bindRole typeIndex =>
          rw [Instruction.opcode, permit, roleTarget, hbare.slots] at hpermit
          cases hpermit
      | childRole child => exact staysBare_childRole title host child replay hbare
      | setSet index | parentRole index | setPropertyLength index =>
          exact staysBare_setRegisters _ replay hbare
      | setPropertyOffset index =>
          simp only [perform]
          split
          · exact ⟨hbare, rfl, Std.Refl.refl _⟩
          · exact staysBare_setRegisters _ replay hbare
      | copyProperty data | copyDynamicProperty data | copyMediaRef index =>
          exact staysBare_assign title _ replay hbare
      | copyArrayProperty count data =>
          exact staysBare_copyArrayProperty title host count data replay hbare
      | createSet typeIndex => exact staysBare_createSet title host typeIndex replay hbare
      | endActorGroup | endSet => exact ⟨hbare, rfl, Std.Refl.refl _⟩

/-- A set chunk is replayed to its end, or to its first failure, without a sign outside the world. -/
theorem staysBare_run (title : Title Stock.catalog) (host : Host Stock.catalog σ) (code : Cursor)
    (session : Session Stock.catalog σ) :
    StaysBare (.start session) ((run (.set title) host).outcome (code, .start session)).2.2 :=
  along_run (staysBare_execute title host) (.pure ()) code session

theorem bare_start (session : Session Stock.catalog σ) : (start session).Bare :=
  ⟨rfl, fun _ _ h => nomatch h⟩

end Replay

/-! ### The set table -/

namespace Loader

variable {before after loader : Loader Stock.catalog} {ε α : Type}

/-- Every set that the table names exists. -/
def SetsExist (loader : Loader Stock.catalog) : Prop :=
  ∀ index set, loader.host.sets.cached? index = some set → set.index < loader.world.stages.size

/-- The tables are as they were, and nothing was hung. -/
def Still (before after : Loader Stock.catalog) : Prop :=
  after.host.sets = before.host.sets ∧ after.host.objects = before.host.objects ∧
    Quiet before.world after.world

instance : Std.Refl Still := ⟨fun _ => ⟨rfl, rfl, Std.Refl.refl _⟩⟩

instance : Trans Still Still Still where
  trans hfirst hsecond :=
    ⟨hsecond.1.trans hfirst.1, hsecond.2.1.trans hfirst.2.1, Trans.trans hfirst.2.2 hsecond.2.2⟩

theorem SetsExist.still (hsets : before.SetsExist) (hstill : Still before after) : after.SetsExist := by
  intro index set hset
  rw [hstill.1] at hset
  exact Nat.lt_of_lt_of_le (hsets index set hset) hstill.2.2.2

theorem still_onContainer (step : ContainerStep α) :
    Step.Along Still (onContainer step : LoadStep Stock.catalog α) :=
  fun _ => ⟨rfl, rfl, Std.Refl.refl _⟩

theorem still_onWorld {step : WorldStep ConstructionError Stock.catalog α}
    (h : Step.Along Quiet step) : Step.Along Still (onWorld step) :=
  fun loader => ⟨rfl, rfl, h loader.world⟩

theorem still_chunkCode (tocIndex : Nat) (tag : Tag) :
    Step.Along Still (chunkCode tocIndex tag : LoadStep Stock.catalog Cursor) :=
  (still_onContainer _).bind fun _ => Step.Along.get.bind fun _ => .pure _

theorem still_read (step : CursorStep α) (cursor : Cursor) :
    Step.Along Still (read step cursor : LoadStep Stock.catalog (α × Cursor)) :=
  fun _ => Std.Refl.refl _

/-- What was read is read from the cursor alone. -/
theorem read_ok {step : CursorStep α} {cursor : Cursor} {answer : α × Cursor}
    (h : (read step cursor : LoadStep Stock.catalog (α × Cursor)).outcome before = (.ok answer, after)) :
    after = before ∧ step.outcome cursor = (.ok answer.1, answer.2) := by
  rw [read] at h
  rcases hstep : step.outcome cursor with ⟨error | a, rest⟩ <;> rw [hstep] at h
  · cases h
  · cases h
    exact ⟨rfl, rfl⟩

theorem still_replay_set (title : Title Stock.catalog) (code : Cursor) :
    Step.Along Still (replay (.set title) setHost code) := by
  intro loader
  have hbare := Replay.bare_start loader
  obtain ⟨_, hhost, hquiet⟩ := Replay.staysBare_run title setHost code loader hbare
  exact ⟨congrArg Desk.sets hhost, congrArg Desk.objects hhost, hquiet⟩

/-- The set that a chunk built exists. -/
theorem created_of_replay_set {title : Title Stock.catalog} {code : Cursor}
    {ended : Replay Stock.catalog Desk}
    (h : (replay (.set title) setHost code).outcome loader = (.ok ended, after)) (typeIndex : Nat)
    (set : SetHandle) (hset : ended.created = some (typeIndex, set)) :
    set.index < after.world.stages.size := by
  have hstays := Replay.staysBare_run title setHost code loader (Replay.bare_start loader)
  rw [replay, Step.outcome_of] at h
  rcases hrun : (Replay.run (.set title) setHost).outcome (code, .start loader) with
    ⟨_ | _, left, last⟩ <;> rw [hrun] at h hstays
  · cases h
  · cases h
    exact hstays.1.created typeIndex set hset

theorem still_replaySet (title : Title Stock.catalog) (tocIndex : Nat) :
    Step.Along Still (replaySet title tocIndex) :=
  (still_chunkCode _ _).bind fun _ => (still_replay_set title _).bind fun _ => .pure _

theorem created_of_replaySet {title : Title Stock.catalog} {tocIndex : Nat}
    {created : Option (Nat × SetHandle)}
    (h : (replaySet title tocIndex).outcome loader = (.ok created, after)) (typeIndex : Nat)
    (set : SetHandle) (hset : created = some (typeIndex, set)) :
    set.index < after.world.stages.size := by
  simp only [replaySet, Step.outcome_bind_eq_ok_iff] at h
  obtain ⟨code, _, _, ended, _, hended, ⟨⟩⟩ := h
  exact created_of_replay_set hended typeIndex set hset

theorem still_initSet (set : SetHandle) (context : InitContext) :
    Step.Along Still (onWorld (World.onStage set fun className stage =>
      Stock.catalog.stages.init className context stage)) :=
  still_onWorld (Stock.quiet_init context)

/-- A set that is installed was built for its index, and stands in the table from then on. -/
theorem installSet_ok {index : Nat} {created : Option (Nat × SetHandle)} {set : SetHandle}
    (h : (installSet index created).outcome loader = (.ok set, after)) :
    created = some (index, set) ∧ ∃ mid sets, Still loader mid ∧
      loader.host.sets.install index set = .ok sets ∧
      after = { mid with host := { mid.host with sets } } := by
  cases created with
  | none => cases h
  | some created =>
      obtain ⟨typeIndex, built⟩ := created
      simp only [installSet] at h
      split at h
      · cases h
      rename_i hindex
      obtain rfl := Decidable.not_not.mp hindex
      simp only [Step.outcome_bind_eq_ok_iff] at h
      obtain ⟨_, _, ⟨⟩, _, mid, hinit, _, _, ⟨⟩, h⟩ := h
      have hstill := (still_initSet built ⟨none, loader.host.around.scene⟩).of_outcome hinit
      rw [hstill.1] at h
      split at h
      · cases h
      rename_i sets hinstall
      cases h
      exact ⟨rfl, mid, sets, hstill, hinstall, rfl⟩

theorem failsStill_installSet (index : Nat) (created : Option (Nat × SetHandle)) :
    Step.FailsAlong Still (installSet index created) := by
  cases created with
  | none => exact .of_along (.throw _)
  | some created =>
      obtain ⟨typeIndex, set⟩ := created
      simp only [installSet]
      split
      · exact .of_along (.throw _)
      refine .bind .get fun loader => .bind (still_initSet set _) fun _ => .bind .get fun loader => ?_
      split
      · exact .of_along (.throw _)
      · -- The set that was built is kept without fail.
        rintro state left error ⟨⟩

/-! ### Loading a set -/

/-- From existing sets to existing sets, with nothing hung and no actor logged. -/
def Widens (before after : Loader Stock.catalog) : Prop :=
  before.SetsExist → after.SetsExist ∧ after.host.objects = before.host.objects ∧
    Quiet before.world after.world

instance : Std.Refl Widens := ⟨fun _ hsets => ⟨hsets, rfl, Std.Refl.refl _⟩⟩

instance : Trans Widens Widens Widens where
  trans hfirst hsecond hsets := by
    obtain ⟨hmid, hobjects, hquiet⟩ := hfirst hsets
    obtain ⟨hlast, hobjects', hquiet'⟩ := hsecond hmid
    exact ⟨hlast, hobjects'.trans hobjects, Trans.trans hquiet hquiet'⟩

theorem Still.widens (hstill : Still before after) : Widens before after :=
  fun hsets => ⟨hsets.still hstill, hstill.2.1, hstill.2.2⟩

theorem cached?_install {table changed : SetTable} {index : Nat} {set : SetHandle}
    (h : table.install index set = .ok changed) (other : Nat) {found : SetHandle}
    (hfound : changed.cached? other = some found) : found = set ∨ table.cached? other = some found := by
  rw [SetTable.install] at h
  split at h
  · cases h
    simp only [SetTable.cached?, List.getElem?_modify] at hfound
    split at hfound
    · cases hslot : table.slots[other]? with
      | none =>
          rw [hslot] at hfound
          cases hfound
      | some slot =>
          rw [hslot] at hfound
          cases hfound
          exact .inl rfl
    · simp only [id_map'] at hfound
      exact .inr hfound
  · cases h

/-- Forgetting the sets that were added since takes nothing down that hung there before. -/
theorem quiet_keepStages {before after : World Stock.catalog} (h : Quiet before after) :
    Quiet before (after.keepStages before.stages.size) := by
  obtain ⟨hattachments, hsize⟩ := h
  have hkept : (after.stages.take before.stages.size).size = before.stages.size := by
    rw [Array.take_eq_extract, Array.size_extract, Nat.min_eq_left hsize, Nat.sub_zero]
  refine ⟨?_, Nat.le_of_eq hkept.symm⟩
  funext set
  by_cases hset : set.index < before.stages.size
  · have hstage : (after.stages.take before.stages.size)[set.index]? = after.stages[set.index]? := by
      rw [Array.take_eq_extract, Array.getElem?_extract, Nat.min_eq_left hsize, Nat.sub_zero,
        if_pos hset, Nat.zero_add]
    rw [← hattachments, World.attachments, World.attachments, World.stage?, World.stage?,
      World.keepStages, hstage]
  · have hbeyond := Nat.le_of_not_lt hset
    rw [World.attachments_of_le hbeyond,
      World.attachments_of_le (Nat.le_trans (Nat.le_of_eq hkept) hbeyond)]

/-- Builds a set and keeps it, with no repair when that fails. -/
def assembleSet (title : Title Stock.catalog) (index : Nat) (chunk : UInt32) :
    LoadStep Stock.catalog SetHandle := do
  let saved ← onContainer Container.position
  let created ← (replaySet title chunk.toNat).closing (onContainer (Container.goto saved))
  installSet index created

theorem outcome_buildSet (title : Title Stock.catalog) (index : Nat) (chunk : UInt32)
    (loader : Loader Stock.catalog) :
    (buildSet title index chunk).outcome loader =
      ((assembleSet title index chunk).onFailure fun left =>
        { left with world := left.world.keepStages loader.world.stages.size }).outcome loader :=
  rfl

theorem still_replaySet_closing (title : Title Stock.catalog) (tocIndex saved : Nat) :
    Step.Along Still ((replaySet title tocIndex).closing (onContainer (Container.goto saved))) :=
  (still_replaySet title tocIndex).closing (still_onContainer _)

theorem failsStill_assembleSet (title : Title Stock.catalog) (index : Nat) (chunk : UInt32) :
    Step.FailsAlong Still (assembleSet title index chunk) :=
  .bind (still_onContainer _) fun saved =>
    .bind (still_replaySet_closing title _ saved) fun created => failsStill_installSet index created

theorem assembleSet_ok {title : Title Stock.catalog} {index : Nat} {chunk : UInt32} {set : SetHandle}
    (h : (assembleSet title index chunk).outcome loader = (.ok set, after)) :
    Widens loader after ∧ set.index < after.world.stages.size := by
  obtain ⟨saved, mid, hsaved, h⟩ := Step.outcome_bind_eq_ok_iff.mp h
  obtain ⟨created, left, hcreated, h⟩ := Step.outcome_bind_eq_ok_iff.mp h
  obtain ⟨inner, hinner, hclose⟩ := Step.outcome_closing_ok hcreated
  have hposition := (still_onContainer Container.position).of_outcome hsaved
  have hreplay := (still_replaySet_closing title chunk.toNat saved).of_outcome hcreated
  have hclosed := (still_onContainer (Container.goto saved)).of_outcome hclose
  obtain ⟨rfl, last, sets, hlast, hinstall, rfl⟩ := installSet_ok h
  have hset : set.index < last.world.stages.size :=
    Nat.lt_of_lt_of_le (created_of_replaySet hinner _ _ rfl)
      (Nat.le_trans hclosed.2.2.2 hlast.2.2.2)
  refine ⟨fun hsets => ?_, hset⟩
  have hstill : Still loader last := Trans.trans hposition (Trans.trans hreplay hlast)
  refine ⟨fun other found hfound => ?_, hstill.2.1, hstill.2.2⟩
  rcases cached?_install hinstall other hfound with rfl | hold
  · exact hset
  · have hfound := hsets.still (Trans.trans hposition hreplay) other found hold
    exact Nat.lt_of_lt_of_le hfound hlast.2.2.2

/-- A set that was built is kept in the table, and a build that failed leaves the table as it was. -/
theorem buildSet_spec {title : Title Stock.catalog} {index : Nat} {chunk : UInt32}
    {answer : Except LoadError SetHandle}
    (h : (buildSet title index chunk).outcome loader = (answer, after)) :
    Widens loader after ∧ ∀ set, answer = .ok set → set.index < after.world.stages.size := by
  rw [outcome_buildSet] at h
  rcases hbody : (assembleSet title index chunk).outcome loader with ⟨error | set, left⟩
  · rw [Step.outcome_onFailure_error hbody] at h
    cases h
    obtain ⟨hsets, hobjects, hquiet⟩ :=
      failsStill_assembleSet title index chunk _ _ _ hbody
    have hstill : Still loader { left with world := left.world.keepStages loader.world.stages.size } :=
      ⟨hsets, hobjects, quiet_keepStages hquiet⟩
    exact ⟨hstill.widens, fun _ h => nomatch h⟩
  · rw [Step.outcome_onFailure_ok hbody] at h
    cases h
    obtain ⟨hwidens, hset⟩ := assembleSet_ok hbody
    refine ⟨hwidens, ?_⟩
    rintro _ ⟨⟩
    exact hset

/-- A set that is answered exists, and nothing but the set table has changed beside it. -/
theorem loadSet_spec {title : Title Stock.catalog} {index : Nat} {answer : Except LoadError SetHandle}
    (h : (loadSet title index).outcome loader = (answer, after)) (hsets : loader.SetsExist) :
    Widens loader after ∧ ∀ set, answer = .ok set → set.index < after.world.stages.size := by
  rw [loadSet, Step.outcome_bind_ok (Step.outcome_get _)] at h
  dsimp only at h
  split at h
  · cases h
    exact ⟨Std.Refl.refl _, fun _ h => nomatch h⟩
  · rename_i slot set hslot hcached
    cases h
    refine ⟨Std.Refl.refl _, ?_⟩
    rintro _ ⟨⟩
    exact hsets index set hcached
  · exact buildSet_spec h

end Loader

end Playprint
