import Playprint.Proofs.Loader.Sets
import Playprint.Proofs.Replay.Cast

/-!
Replays of stock groups as casts. Every instruction is a step of the cast, and the last call hangs what
is left over, so that what holds of runs of casts holds of the replays. An instruction that failed
leaves the slots, the log and what hangs on the sets as they were.
-/

namespace Playprint.Replay

open World (Quiet)
open Loader (Widens groupHost)

variable {title : Title Stock.catalog} {declared : Nat}
  {before after replay : Replay Stock.catalog Desk}

/-- All of a replay that attaching depends on. -/
def cast (replay : Replay Stock.catalog Desk) : Cast where
  slots := replay.standings
  nextId := replay.session.host.objects.nextId
  hung := replay.session.world.attachments
  stages := replay.session.world.stages.size

/-- The cast is sound, and the sets that were built exist. -/
structure Ready (replay : Replay Stock.catalog Desk) : Prop where
  sound : replay.cast.Sound
  sets : Loader.SetsExist replay.session

/-- The slots stay, and at most sets are added. -/
def StaysPut (before after : Replay Stock.catalog Desk) : Prop :=
  after.standings = before.standings ∧ Widens before.session after.session

instance : Std.Refl StaysPut := ⟨fun _ => ⟨rfl, Std.Refl.refl _⟩⟩

instance : Trans StaysPut StaysPut StaysPut where
  trans hfirst hsecond := ⟨hsecond.1.trans hfirst.1, Trans.trans hfirst.2 hsecond.2⟩

theorem StaysPut.step (h : StaysPut before after) (hsets : Loader.SetsExist before.session) :
    Cast.Step before.cast none after.cast ∧ Loader.SetsExist after.session := by
  obtain ⟨hslots, hwidens⟩ := h
  obtain ⟨hafter, hobjects, hattachments, hsize⟩ := hwidens hsets
  have hcast : after.cast = { before.cast with stages := after.session.world.stages.size } := by
    rw [cast, hslots, hobjects, hattachments]
    rfl
  rw [hcast]
  exact ⟨.still hsize, hafter⟩

theorem StaysPut.ready (h : StaysPut before after) (hready : before.Ready) : after.Ready := by
  obtain ⟨hstep, hsets⟩ := h.step hready.sets
  exact ⟨hready.sound.step hstep, hsets⟩

theorem standings_getElem? (replay : Replay Stock.catalog Desk) (index : Nat) :
    replay.standings[index]? = replay.slots[index]?.map Slot.standing := by
  rw [standings, List.getElem?_map, Array.getElem?_toList]

theorem slot_cast {index : Nat} {slot : Slot Stock.catalog} (hslot : replay.slots[index]? = some slot) :
    replay.cast.slots[index]? = some slot.standing := by
  change replay.standings[index]? = some slot.standing
  rw [standings_getElem?, hslot, Option.map_some]

theorem exists_slot {index : Nat} {standing : Standing} (h : replay.cast.slots[index]? = some standing) :
    ∃ slot, replay.slots[index]? = some slot ∧ slot.standing = standing := by
  change replay.standings[index]? = some standing at h
  rw [standings_getElem?] at h
  exact Option.map_eq_some_iff.mp h

/-! ### Steps that leave the slots as they are -/

theorem staysPut_setRegisters (f : Registers → Registers) :
    Step.Along StaysPut (setRegisters f : ReplayStep Stock.catalog Desk Unit) :=
  fun _ => ⟨rfl, Std.Refl.refl _⟩

theorem staysPut_inWorld {world : World Stock.catalog} (hquiet : Quiet replay.session.world world) :
    StaysPut replay (replay.inWorld world) := by
  refine ⟨rfl, fun hsets => ⟨fun index set hset => ?_, rfl, hquiet⟩⟩
  exact Nat.lt_of_lt_of_le (hsets index set hset) hquiet.2

theorem staysPut_onWorld {ε α : Type} (tell : ε → LoadError) {step : WorldStep ε Stock.catalog α}
    (h : Step.Along Quiet step) :
    Step.Along StaysPut (onWorld tell step : ReplayStep Stock.catalog Desk α) :=
  fun replay => staysPut_inWorld (h replay.session.world)

theorem staysPut_loadSet (title : Title Stock.catalog) (index : Nat) :
    Step.Along StaysPut (onSession (Loader.loadSet title index)) :=
  fun _ => ⟨rfl, fun hsets => (Loader.loadSet_spec rfl hsets).1 hsets⟩

theorem staysPut_setActor (index : Nat) (state : Object Stock.Actor) :
    Step.Along StaysPut (setSlot index fun slot =>
      { slot with record := { slot.record with actor := state } }) := by
  intro replay
  have hsettled := along_setActor (K := Stock.catalog) (σ := Desk) index state replay
  exact ⟨congrArg Prod.fst hsettled, Std.Refl.refl _⟩

theorem staysPut_assign (title : Title Stock.catalog) (declared : Nat) (value : Assignment) :
    Step.Along StaysPut (assign (.group title declared) value) := by
  unfold assign
  refine Step.Along.get.bind fun replay => ?_
  cases replay.registers.property with
  | none => exact .throw _
  | some name =>
      change Step.Along StaysPut (assignToActor name value)
      unfold assignToActor
      refine Step.Along.get.bind fun replay => ?_
      dsimp only
      cases replay.slots.back? with
      | none => exact .throw _
      | some slot =>
          exact (staysPut_onWorld _ (World.quiet_onJournal _)).bind fun state =>
            staysPut_setActor _ _

/-! ### Creating, binding and hanging -/

theorem step_of_createActor {typeIndex : Nat} (hready : before.Ready)
    (h : (createActor (.group title declared) (groupHost title) typeIndex).outcome before =
      (.ok (), after)) :
    Cast.Step before.cast none after.cast ∧ Loader.SetsExist after.session := by
  obtain ⟨_, actor, world, hactor, rfl⟩ := createActor_ok h
  have hquiet := title.quiet_newActor typeIndex before.session.world
  rw [show (Script.group title declared).title = title from rfl] at hactor
  rw [hactor] at hquiet
  obtain ⟨hattachments, hsize⟩ := hquiet
  have hcast : (before.withActor (groupHost title) typeIndex actor world).cast =
      { before.cast with
        slots := before.cast.slots ++ [⟨⟨before.cast.nextId⟩, none, none, false⟩]
        nextId := before.cast.nextId + 1
        stages := world.stages.size } := by
    simp only [cast, standings, withActor, groupHost, ObjectLog.register, Array.toList_push,
      List.map_append, List.map_cons, List.map_nil, hattachments]
    rfl
  rw [hcast]
  refine ⟨.create hsize, fun index set hset => ?_⟩
  exact Nat.lt_of_lt_of_le (hready.sets index set hset) hsize

theorem step_of_bindRole {typeIndex : Nat} (hready : before.Ready)
    (h : (bindRole (.group title declared) (groupHost title) typeIndex).outcome before =
      (.ok (), after)) :
    Cast.Step before.cast none after.cast ∧ Loader.SetsExist after.session := by
  obtain ⟨index, setIndex, set, loaded, slot, role, world, _, hload, hslot, hrole, rfl⟩ :=
    bindRole_ok h
  obtain ⟨hwidens, hset⟩ := Loader.loadSet_spec hload hready.sets
  obtain ⟨hsets, hobjects, hattachments, hsize⟩ := hwidens hready.sets
  have hquiet := title.quiet_newRole typeIndex ⟨slot.record.id, slot.record.typeIndex, index⟩ set
    loaded.world
  have hactor : role.actor.id = slot.record.id := by rw [Title.actor_of_newRole hrole]
  rw [show (Script.group title declared).title = title from rfl] at hrole
  rw [hrole] at hquiet
  obtain ⟨hattachments', hsize'⟩ := hquiet
  have hcast : (before.withRole index role ⟨setIndex, set⟩ ⟨loaded.host, world⟩).cast =
      { before.cast with
        slots := before.cast.slots.set index
          { slot.standing with role := some slot.standing.id, set := some set }
        stages := world.stages.size } := by
    have hslots := map_slots_modify Slot.standing (Slot.bound role ⟨setIndex, set⟩) hslot
    have hbound : (Slot.bound role ⟨setIndex, set⟩ slot).standing =
        { slot.standing with role := some slot.standing.id, set := some set } := by
      simp only [Slot.standing, Slot.bound, Option.map_some, hactor]
    rw [hbound] at hslots
    simp only [cast, standings, withRole, hobjects] at hslots ⊢
    rw [hslots, hattachments', hattachments]
  rw [hcast]
  refine ⟨.bind (Nat.le_trans hsize hsize') (slot_cast hslot)
    (Nat.lt_of_lt_of_le (hset set rfl) hsize'), fun other found hfound => ?_⟩
  exact Nat.lt_of_lt_of_le (hsets other found hfound) hsize'

/-- A role that was hung on the set of its slot is hung there in the cast. -/
theorem cast_withAttached {index : Nat} {slot : Slot Stock.catalog} {role : Role Stock.catalog}
    {binding : SetBinding} {parent : Option ObjectId} {world : World Stock.catalog}
    (hready : before.Ready) (hslot : before.slots[index]? = some slot)
    (hrole : slot.record.role = some role)
    (hset : slot.record.binding.map SetBinding.handle = some binding.handle)
    (h : (hanging binding.handle parent role.actor.id).outcome before.session.world =
      (.ok (), world)) :
    (∀ entry ∈ before.cast.hung binding.handle, entry.child ≠ slot.standing.id) ∧
      (before.withAttached index world).cast =
        before.cast.hang index slot.standing binding.handle parent ∧
      Loader.SetsExist (before.withAttached index world).session := by
  have hmem := List.mem_of_getElem? (slot_cast hslot)
  have hexists := hready.sound.set slot.standing hmem binding.handle hset
  have hown := hready.sound.role slot.standing hmem
  have hactor : role.actor.id = slot.record.id := by
    simp only [Slot.standing, hrole, hset, Option.map_some] at hown
    exact Option.some.inj hown
  obtain ⟨hfresh, hattachments, hsize⟩ := Stock.attachments_of_attach hexists h
  rw [hactor] at hfresh hattachments
  refine ⟨hfresh, ?_, fun other found hfound => ?_⟩
  · have hslots := map_slots_modify Slot.standing (fun slot => { slot with attached := true }) hslot
    simp only [cast, Cast.hang, standings, withAttached, inWorld] at hslots ⊢
    rw [hslots, hattachments, hsize]
    rfl
  · have hfound := hready.sets other found hfound
    change found.index < world.stages.size
    rw [hsize]
    exact hfound

theorem step_of_childRole {child : Nat} (hready : before.Ready)
    (h : (perform (.group title declared) (groupHost title) (.childRole child)).outcome before =
      (.ok (), after)) :
    Cast.Step before.cast (before.registers.parent.map (·, child)) after.cast ∧
      Loader.SetsExist after.session := by
  obtain ⟨parent, mid, hregister, hattach, rfl⟩ := childRole_ok h
  obtain ⟨upper, lower, binding, upperRole, lowerRole, world, hupper, hlower, hne, hfree, hbinding,
    hsame, hupperRole, hlowerRole, hhang, rfl⟩ := attachChild_ok hattach
  obtain ⟨hfresh, hcast, hsets⟩ := cast_withAttached hready hlower hlowerRole hsame hhang
  have hset : upper.standing.set = some binding.handle := by
    rw [Slot.standing, hbinding, Option.map_some]
  have hown := hready.sound.role upper.standing (List.mem_of_getElem? (slot_cast hupper))
  have hactor : upperRole.actor.id = upper.standing.id := by
    rw [hset, Slot.standing, hupperRole, Option.map_some, Option.map_some] at hown
    exact Option.some.inj hown
  refine ⟨?_, hsets⟩
  rw [hregister, Option.map_some]
  have hstep := Cast.Step.under hne (slot_cast hupper) (slot_cast hlower) hfree hset hsame hfresh
  rw [hactor] at hcast
  rw [← hcast] at hstep
  exact hstep

/-! ### Instructions -/

/-- An instruction that creates, binds or hangs. -/
def Moves : Instruction → Prop
  | .createActor _ | .bindRole _ | .childRole _ => True
  | _ => False

/-- The slots of the role that an instruction hangs under another one. -/
def tieOf (replay : Replay Stock.catalog Desk) : Instruction → Option (Nat × Nat)
  | .childRole child => replay.registers.parent.map (·, child)
  | _ => none

/-- The other instructions leave the slots as they are, whether they succeed or not. -/
theorem staysPut_perform (title : Title Stock.catalog) (declared : Nat) {instruction : Instruction}
    (hmoves : ¬Moves instruction) :
    Step.Along StaysPut (perform (.group title declared) (groupHost title) instruction) := by
  cases instruction with
  | createActor typeIndex | bindRole typeIndex | childRole child => exact absurd trivial hmoves
  | setSet index | parentRole index | setPropertyLength index => exact staysPut_setRegisters _
  | setPropertyOffset index =>
      simp only [perform]
      split
      · exact Step.Along.throw _
      · exact staysPut_setRegisters _
  | copyProperty data | copyDynamicProperty data | copyMediaRef index =>
      exact staysPut_assign title declared _
  | copyArrayProperty count data =>
      exact Step.Along.get.bind fun _ => staysPut_assign title declared _
  | createSet typeIndex =>
      exact (staysPut_onWorld _ (Stock.quiet_newSet title typeIndex)).bind fun _ => fun _ =>
        ⟨rfl, Std.Refl.refl _⟩
  | endActorGroup | endSet => exact .pure _

theorem tieOf_of_not_moves {instruction : Instruction} (hmoves : ¬Moves instruction) :
    replay.tieOf instruction = none := by
  cases instruction with
  | createActor typeIndex | bindRole typeIndex | childRole child => exact absurd trivial hmoves
  | _ => rfl

/-- An instruction that is executed is a step of the cast. -/
theorem step_of_execute {instruction : Instruction} (hready : before.Ready)
    (h : (execute (.group title declared) (groupHost title) instruction).outcome before =
      (.ok (), after)) :
    Cast.Step before.cast (before.tieOf instruction) after.cast ∧ Loader.SetsExist after.session := by
  obtain ⟨_, h⟩ := execute_eq_ok_iff.mp h
  by_cases hmoves : Moves instruction
  · cases instruction with
    | createActor typeIndex => exact step_of_createActor hready h
    | bindRole typeIndex => exact step_of_bindRole hready h
    | childRole child => exact step_of_childRole hready h
    | _ => cases hmoves
  · have hput := (staysPut_perform title declared hmoves).of_outcome h
    rw [tieOf_of_not_moves hmoves]
    exact hput.step hready.sets

/-! ### Failures -/

theorem failsPut_createActor (title : Title Stock.catalog) (declared typeIndex : Nat) :
    Step.FailsAlong StaysPut (createActor (.group title declared) (groupHost title) typeIndex) := by
  unfold createActor
  refine .bind .get fun replay => ?_
  split
  · exact .of_along (.throw _)
  · refine .bind (staysPut_onWorld _ (title.quiet_newActor typeIndex)) fun actor => ?_
    -- An actor that was built is logged and kept without fail.
    rintro state left error ⟨⟩

theorem failsPut_bindRole (title : Title Stock.catalog) (declared typeIndex : Nat) :
    Step.FailsAlong StaysPut (bindRole (.group title declared) (groupHost title) typeIndex) := by
  unfold bindRole
  refine .bind .get fun replay => ?_
  split
  · exact .of_along (.throw _)
  · exact .bind (staysPut_loadSet title _) fun set => .bind (along_slotAt _) fun slot =>
      .bind (staysPut_onWorld _ (title.quiet_newRole typeIndex _ set)) fun role => .modify _

theorem failsPut_hang (set : SetHandle) (parent : Option ObjectId) (child : ObjectId) :
    Step.FailsAlong StaysPut (hang set parent child : ReplayStep Stock.catalog Desk Unit) := by
  intro before after error h
  have hfails := World.failsQuiet_onStage (K := Stock.catalog) set (fun className stage =>
    Stock.catalog.stages.attach className parent child stage) before.session.world
  rw [hang, onWorld, Step.outcome_on, Step.outcome_mapError, Prod.mk.injEq] at h
  obtain ⟨hanswer, rfl⟩ := h
  rcases hworld : (World.onStage set fun className stage =>
    Stock.catalog.stages.attach className parent child stage).outcome before.session.world with
    ⟨cause | _, world⟩
  · exact staysPut_inWorld (hfails world cause hworld)
  · rw [hworld] at hanswer
    cases hanswer

/-- Hanging the role of a slot fails before the slot is attached. -/
theorem failsPut_hangSlot (set : SetHandle) (parent : Option ObjectId) (child : ObjectId)
    (index : Nat) :
    Step.FailsAlong StaysPut (do
      hang set parent child
      setSlot index fun slot => { slot with attached := true } :
        ReplayStep Stock.catalog Desk Unit) :=
  (failsPut_hang set parent child).followed fun _ _ => ⟨_, _, rfl⟩

theorem failsPut_attachChild (parent child : Nat) :
    Step.FailsAlong StaysPut (attachChild parent child : ReplayStep Stock.catalog Desk Unit) := by
  unfold attachChild
  refine .bind (along_slotAt _) fun upper => .bind (along_slotAt _) fun lower => ?_
  simp only [refuse_bind]
  split
  · exact .of_along (.throw _)
  split
  · exact .of_along (.throw _)
  split
  · exact .of_along (.throw _)
  split
  · exact .of_along (.throw _)
  · exact .bind (along_roleOf _ _) fun upperRole => .bind (along_roleOf _ _) fun lowerRole =>
      failsPut_hangSlot _ _ _ _

theorem failsPut_attachRest (index : Nat) :
    Step.FailsAlong StaysPut (attachRest index : ReplayStep Stock.catalog Desk Unit) := by
  refine .bind .get fun replay => ?_
  split
  · exact failsPut_hangSlot _ _ _ _
  · exact .pure _

/-- An instruction that fails leaves the slots as they were. -/
theorem failsPut_execute (title : Title Stock.catalog) (declared : Nat) (instruction : Instruction) :
    Step.FailsAlong StaysPut (execute (.group title declared) (groupHost title) instruction) := by
  refine .bind .get fun replay => ?_
  split
  · exact .of_along (.throw _)
  by_cases hmoves : Moves instruction
  · cases instruction with
    | createActor typeIndex => exact failsPut_createActor title declared typeIndex
    | bindRole typeIndex => exact failsPut_bindRole title declared typeIndex
    | childRole child =>
        refine .bind .get fun replay => ?_
        split
        · exact .of_along (.throw _)
        · exact (failsPut_attachChild _ child).followed fun _ _ => ⟨_, _, rfl⟩
    | _ => cases hmoves
  · exact .of_along (staysPut_perform title declared hmoves)

end Playprint.Replay
