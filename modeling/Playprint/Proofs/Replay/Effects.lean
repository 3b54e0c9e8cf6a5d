import Playprint.Proofs.ByteCode.Reading
import Playprint.Replay.Execution

/-!
What an instruction has done when it was executed without failure: for each kind of instruction the state
it leaves, and what must have held before.
-/

namespace Playprint

/-- The slot with a role in a set. -/
def Slot.bound {K : Catalog} (role : Role K) (binding : SetBinding) (slot : Slot K) : Slot K :=
  { slot with record := { slot.record with role := some role, binding := some binding } }

/-- What a slot is beside the state of its actor. -/
structure Standing where
  id : ObjectId
  /-- The actor that the role was built for. -/
  role : Option ObjectId
  set : Option SetHandle
  attached : Bool

/-- What a slot is beside the state of its actor. -/
def Slot.standing {K : Catalog} (slot : Slot K) : Standing :=
  ⟨slot.record.id, slot.record.role.map (·.actor.id), slot.record.binding.map SetBinding.handle,
    slot.attached⟩

namespace Replay

variable {K : Catalog} {σ α β : Type} {script : Script K} {host : Host K σ}
  {replay after : Replay K σ}

@[simp] theorem outcome_refuse (error : FormatError) (replay : Replay K σ) :
    (refuse error : ReplayStep K σ α).outcome replay = (.error (.format error), replay) := rfl

@[simp] theorem refuse_bind (error : FormatError) (next : α → ReplayStep K σ β) :
    (refuse error >>= next) = refuse error := rfl

@[simp] theorem outcome_setRegisters (f : Registers → Registers) (replay : Replay K σ) :
    (setRegisters f).outcome replay =
      (.ok ⟨⟩, { replay with registers := f replay.registers }) := rfl

@[simp] theorem outcome_setSlot (index : Nat) (f : Slot K → Slot K) (replay : Replay K σ) :
    (setSlot index f).outcome replay =
      (.ok ⟨⟩, { replay with slots := replay.slots.modify index f }) := rfl

@[simp] theorem outcome_onSession (step : SessionStep K σ α) (replay : Replay K σ) :
    (onSession step).outcome replay =
      ((step.outcome replay.session).1, { replay with session := (step.outcome replay.session).2 }) :=
  rfl

/-- The state with another world. -/
def inWorld (world : World K) (replay : Replay K σ) : Replay K σ :=
  { replay with session := { replay.session with world } }

theorem onWorld_eq_ok_iff {ε : Type} {tell : ε → LoadError} {step : WorldStep ε K α} {a : α} :
    (onWorld tell step).outcome replay = (.ok a, after) ↔
      ∃ world, step.outcome replay.session.world = (.ok a, world) ∧ after = replay.inWorld world := by
  simp only [onWorld, Step.outcome_on, Step.outcome_mapError, Prod.mk.injEq,
    Step.mapError_eq_ok_iff, inWorld]
  constructor
  · rintro ⟨hanswer, rfl⟩
    exact ⟨_, Prod.ext hanswer rfl, rfl⟩
  · rintro ⟨world, hstep, rfl⟩
    rw [hstep]
    exact ⟨rfl, rfl⟩

theorem slotAt_eq_ok_iff {index : Nat} {slot : Slot K} :
    (slotAt index).outcome replay = (.ok slot, after) ↔
      replay.slots[index]? = some slot ∧ after = replay := by
  simp only [slotAt, Step.outcome_bind, Step.outcome_get]
  cases replay.slots[index]? with
  | none => simp
  | some found => simp [eq_comm]

theorem roleOf_eq_ok_iff {index : Nat} {slot : Slot K} {role : Role K} :
    (roleOf index slot).outcome replay = (.ok role, after) ↔
      slot.record.role = some role ∧ after = replay := by
  rw [roleOf]
  cases slot.record.role with
  | none => simp
  | some found => simp [eq_comm]

/-- Looking at a slot changes nothing. -/
theorem along_slotAt {R : Replay K σ → Replay K σ → Prop} [Std.Refl R] [Trans R R R] (index : Nat) :
    Step.Along R (slotAt index : ReplayStep K σ (Slot K)) := by
  refine Step.Along.get.bind fun replay => ?_
  dsimp only
  split
  · exact .pure _
  · exact .throw _

theorem along_roleOf {R : Replay K σ → Replay K σ → Prop} [Std.Refl R] (index : Nat) (slot : Slot K) :
    Step.Along R (roleOf index slot : ReplayStep K σ (Role K)) := by
  unfold roleOf
  split
  · exact .pure _
  · exact .throw _

/-- Changing a slot changes what is seen of it, and of no other one. -/
theorem map_slots_modify {index : Nat} {slot : Slot K} (view : Slot K → α) (f : Slot K → Slot K)
    (hslot : replay.slots[index]? = some slot) :
    (replay.slots.modify index f).toList.map view = (replay.slots.toList.map view).set index (view (f slot)) := by
  apply List.ext_getElem?
  intro other
  rw [List.getElem?_map, Array.toList_modify, List.getElem?_modify, List.getElem?_set, List.getElem?_map,
    Array.getElem?_toList]
  by_cases hother : index = other
  · subst hother
    obtain ⟨hlt, _⟩ := Array.getElem?_eq_some_iff.mp hslot
    rw [if_pos rfl, List.length_map, Array.length_toList, if_pos hlt, hslot]
    simp only [if_true, Option.map_eq_map, Option.map_some]
  · rw [if_neg hother]
    simp only [if_neg hother, id_map']

/-- A change that is not seen of a slot is not seen of any. -/
theorem map_slots_modify_of_same (index : Nat) {view : Slot K → α} {f : Slot K → Slot K}
    (hview : ∀ slot, view (f slot) = view slot) :
    (replay.slots.modify index f).toList.map view = replay.slots.toList.map view := by
  apply List.ext_getElem?
  intro other
  rw [List.getElem?_map, Array.toList_modify, List.getElem?_modify, List.getElem?_map]
  cases replay.slots.toList[other]? with
  | none => rfl
  | some slot =>
      by_cases hother : index = other
      · simp only [hother, if_true, Option.map_eq_map, Option.map_some, hview]
      · simp only [hother, if_false, Option.map_eq_map, Option.map_some]

theorem execute_eq_ok_iff {instruction : Instruction} :
    (execute script host instruction).outcome replay = (.ok (), after) ↔
      permit script instruction.opcode replay = .ok () ∧
        (perform script host instruction).outcome replay = (.ok (), after) := by
  simp only [execute, Step.outcome_bind, Step.outcome_get]
  cases permit script instruction.opcode replay with
  | error error => simp
  | ok _ => simp

/-! ### Actors and roles -/

/-- The state after an actor was created in a new slot and logged by the host. -/
def withActor (host : Host K σ) (typeIndex : Nat) (actor : Object K.Actor) (world : World K)
    (replay : Replay K σ) : Replay K σ :=
  let (id, changed) := host.register typeIndex actor.className replay.session.host
  { replay with
    slots := replay.slots.push ⟨⟨id, typeIndex, actor, none, none⟩, false⟩
    registers := { replay.registers with pendingSet := none, parent := none }
    session := ⟨changed, world⟩ }

theorem createActor_ok {typeIndex : Nat}
    (h : (createActor script host typeIndex).outcome replay = (.ok (), after)) :
    replay.slots.size < script.declared ∧ ∃ actor world,
      (script.title.newActor typeIndex).outcome replay.session.world = (.ok actor, world) ∧
        after = replay.withActor host typeIndex actor world := by
  simp only [createActor, refuse_bind, Step.outcome_bind_eq_ok_iff] at h
  obtain ⟨_, _, ⟨⟩, h⟩ := h
  split at h
  · cases h
  rename_i hroom
  simp only [Step.outcome_bind_eq_ok_iff] at h
  obtain ⟨actor, mid, hactor, id, logged, hlog, h⟩ := h
  obtain ⟨world, hworld, rfl⟩ := onWorld_eq_ok_iff.mp hactor
  refine ⟨Nat.lt_of_not_le hroom, actor, world, hworld, ?_⟩
  cases hlog
  obtain ⟨_, _, ⟨⟩, ⟨⟩⟩ := h
  rfl

/-- The state after the role of an actor was bound to a set by a loaded session. -/
def withRole (index : Nat) (role : Role K) (binding : SetBinding) (session : Session K σ)
    (replay : Replay K σ) : Replay K σ :=
  { replay with slots := replay.slots.modify index (Slot.bound role binding), session }

theorem bindRole_ok {typeIndex : Nat}
    (h : (bindRole script host typeIndex).outcome replay = (.ok (), after)) :
    ∃ index setIndex set loaded slot role world,
      replay.roleTarget = .ok (index, setIndex) ∧
        (host.loadSet setIndex).outcome replay.session = (.ok set, loaded) ∧
        replay.slots[index]? = some slot ∧
        (script.title.newRole typeIndex ⟨slot.record.id, slot.record.typeIndex, index⟩ set).outcome
          loaded.world = (.ok role, world) ∧
        after = replay.withRole index role ⟨setIndex, set⟩ ⟨loaded.host, world⟩ := by
  simp only [bindRole, Step.outcome_bind_eq_ok_iff] at h
  obtain ⟨_, _, ⟨⟩, h⟩ := h
  split at h
  · cases h
  rename_i index setIndex htarget
  simp only [Step.outcome_bind_eq_ok_iff] at h
  obtain ⟨set, mid, hload, slot, _, hslot, role, _, hrole, h⟩ := h
  obtain ⟨hfound, rfl⟩ := slotAt_eq_ok_iff.mp hslot
  obtain ⟨world, hworld, rfl⟩ := onWorld_eq_ok_iff.mp hrole
  rw [outcome_onSession, Prod.mk.injEq] at hload
  obtain ⟨hanswer, rfl⟩ := hload
  cases h
  exact ⟨index, setIndex, set, _, slot, role, world, htarget, Prod.ext hanswer rfl, hfound, hworld, rfl⟩

/-- The state after a role was hung on a set, which has made another world. -/
def withAttached (index : Nat) (world : World K) (replay : Replay K σ) : Replay K σ :=
  { replay.inWorld world with
    slots := replay.slots.modify index fun slot => { slot with attached := true } }

/-- What hanging a role does to the world. -/
def hanging (set : SetHandle) (parent : Option ObjectId) (child : ObjectId) :
    WorldStep AttachError K Unit :=
  World.onStage set fun className stage => K.stages.attach className parent child stage

/-- An attached child was not attached before, and is bound to the set of its parent. -/
theorem attachChild_ok {parent child : Nat}
    (h : (attachChild parent child : ReplayStep K σ Unit).outcome replay = (.ok (), after)) :
    ∃ parentSlot childSlot binding parentRole childRole world,
      replay.slots[parent]? = some parentSlot ∧ replay.slots[child]? = some childSlot ∧
        parent ≠ child ∧ childSlot.attached = false ∧ parentSlot.record.binding = some binding ∧
        childSlot.record.binding.map SetBinding.handle = some binding.handle ∧
        parentSlot.record.role = some parentRole ∧ childSlot.record.role = some childRole ∧
        (hanging binding.handle (some parentRole.actor.id) childRole.actor.id).outcome
          replay.session.world = (.ok (), world) ∧
        after = replay.withAttached child world := by
  simp only [attachChild, refuse_bind, Step.outcome_bind_eq_ok_iff] at h
  obtain ⟨parentSlot, _, hparent, childSlot, _, hchild, h⟩ := h
  obtain ⟨hparent, rfl⟩ := slotAt_eq_ok_iff.mp hparent
  obtain ⟨hchild, rfl⟩ := slotAt_eq_ok_iff.mp hchild
  split at h
  · cases h
  rename_i hne
  split at h
  · cases h
  rename_i hfree
  split at h
  · cases h
  rename_i binding hbinding
  split at h
  · cases h
  rename_i hsame
  simp only [Step.outcome_bind_eq_ok_iff] at h
  obtain ⟨parentRole, _, hofParent, childRole, _, hofChild, _, _, hhang, h⟩ := h
  obtain ⟨hparentRole, rfl⟩ := roleOf_eq_ok_iff.mp hofParent
  obtain ⟨hchildRole, rfl⟩ := roleOf_eq_ok_iff.mp hofChild
  obtain ⟨world, hworld, rfl⟩ := onWorld_eq_ok_iff.mp hhang
  cases h
  exact ⟨parentSlot, childSlot, binding, parentRole, childRole, world, hparent, hchild, hne,
    Bool.eq_false_iff.mpr hfree, hbinding, Decidable.not_not.mp hsame, hparentRole, hchildRole, hworld, rfl⟩

theorem childRole_ok {child : Nat}
    (h : (perform script host (.childRole child)).outcome replay = (.ok (), after)) :
    ∃ parent mid, replay.registers.parent = some parent ∧
      (attachChild parent child).outcome replay = (.ok (), mid) ∧
      after = { mid with registers := { mid.registers with parent := none } } := by
  simp only [perform, Step.outcome_bind_eq_ok_iff] at h
  obtain ⟨_, _, ⟨⟩, h⟩ := h
  split at h
  · cases h
  rename_i parent hparent
  simp only [Step.outcome_bind_eq_ok_iff] at h
  obtain ⟨_, mid, hattach, ⟨⟩⟩ := h
  exact ⟨parent, mid, hparent, hattach, rfl⟩

/-- The state after the role of a slot was hung on its set, if the last call found one to hang. -/
theorem attachRest_ok {index : Nat}
    (h : (attachRest index : ReplayStep K σ Unit).outcome replay = (.ok (), after)) :
    (∃ slot role binding world, replay.slots[index]? = some slot ∧ slot.attached = false ∧
      slot.record.role = some role ∧ slot.record.binding = some binding ∧
      (hanging binding.handle none role.actor.id).outcome replay.session.world = (.ok (), world) ∧
      after = replay.withAttached index world) ∨
    (after = replay ∧ ∀ slot role binding, replay.slots[index]? = some slot →
      slot.record.role = some role → slot.record.binding = some binding → slot.attached = true) := by
  simp only [attachRest, Step.outcome_bind_eq_ok_iff] at h
  obtain ⟨_, _, ⟨⟩, h⟩ := h
  split at h
  · rename_i id typeIndex actor role binding hslot
    simp only [Step.outcome_bind_eq_ok_iff] at h
    obtain ⟨_, _, hhang, h⟩ := h
    obtain ⟨world, hworld, rfl⟩ := onWorld_eq_ok_iff.mp hhang
    cases h
    exact .inl ⟨_, role, binding, world, hslot, rfl, rfl, rfl, hworld, rfl⟩
  · rename_i hother
    cases h
    refine .inr ⟨rfl, fun slot role binding hslot hrole hbinding => ?_⟩
    obtain ⟨⟨id, typeIndex, actor, _, _⟩, attached⟩ := slot
    cases attached with
    | true => rfl
    | false =>
        cases hrole
        cases hbinding
        exact absurd hslot (hother id typeIndex actor role binding)

/-! ### Assignments -/

/-- What the slots of a replay are beside the states of their actors. -/
def standings (replay : Replay K σ) : List Standing :=
  replay.slots.toList.map Slot.standing

/-- All of a replay that assignments leave alone, the sets of its world apart. -/
def settled (replay : Replay K σ) : List Standing × Registers × Option (Nat × SetHandle) × σ :=
  (replay.standings, replay.registers, replay.created, replay.session.host)

theorem along_onWorld {ε : Type} (tell : ε → LoadError) (step : WorldStep ε K α) :
    Step.Along (Step.Alike (settled (K := K) (σ := σ))) (onWorld tell step) :=
  fun _ => rfl

theorem along_setActor (index : Nat) (state : Object K.Actor) :
    Step.Along (Step.Alike (settled (K := K) (σ := σ))) (setSlot index fun slot =>
      { slot with record := { slot.record with actor := state } }) := by
  intro replay
  simp only [Step.Alike, outcome_setSlot, settled, standings, Prod.mk.injEq, and_true]
  exact map_slots_modify_of_same index fun _ => rfl

theorem along_assignToActor (name : String) (value : Assignment) :
    Step.Along (Step.Alike (settled (K := K) (σ := σ))) (assignToActor name value) := by
  unfold assignToActor
  refine Step.Along.get.bind fun replay => ?_
  dsimp only
  cases replay.slots.back? with
  | none => exact .throw _
  | some slot => exact (along_onWorld _ _).bind fun state => along_setActor _ _

theorem along_assignToSet (name : String) (value : Assignment) :
    Step.Along (Step.Alike (settled (K := K) (σ := σ))) (assignToSet name value) := by
  unfold assignToSet
  refine Step.Along.get.bind fun replay => ?_
  split
  · exact .throw _
  · exact along_onWorld _ _

/-- An assignment changes at most the state of an actor or of a set. -/
theorem along_assign (script : Script K) (value : Assignment) :
    Step.Along (Step.Alike (settled (K := K) (σ := σ))) (assign script value) := by
  unfold assign
  refine Step.Along.get.bind fun replay => ?_
  split
  · exact .throw _
  · split
    · exact along_assignToActor _ value
    · exact along_assignToSet _ value

theorem settled_assign {value : Assignment}
    (h : (assign script value).outcome replay = (.ok (), after)) : after.settled = replay.settled := by
  have hsettled := along_assign script value replay
  rwa [h] at hsettled

/-! ### The property length -/

theorem length_attachChild {parent child : Nat}
    (h : (attachChild parent child : ReplayStep K σ Unit).outcome replay = (.ok (), after)) :
    after.registers.length = replay.registers.length := by
  obtain ⟨_, _, _, _, _, _, _, _, _, _, _, _, _, _, _, rfl⟩ := attachChild_ok h
  rfl

theorem length_assign {value : Assignment}
    (h : (assign script value).outcome replay = (.ok (), after)) :
    after.registers.length = replay.registers.length :=
  congrArg (fun settled => settled.2.1.length) (settled_assign h)

/-- An instruction leaves the property length that it has in the list of instructions. -/
theorem length_execute {instruction : Instruction}
    (h : (execute script host instruction).outcome replay = (.ok (), after)) :
    after.registers.length = instruction.lengthAfter replay.registers.length := by
  obtain ⟨_, h⟩ := execute_eq_ok_iff.mp h
  cases instruction with
  | createActor typeIndex =>
      obtain ⟨_, _, _, _, rfl⟩ := createActor_ok h
      rfl
  | bindRole typeIndex =>
      obtain ⟨_, _, _, _, _, _, _, _, _, _, _, rfl⟩ := bindRole_ok h
      rfl
  | childRole child =>
      obtain ⟨_, mid, _, hattach, rfl⟩ := childRole_ok h
      have hlength : mid.registers.length = replay.registers.length := length_attachChild hattach
      exact hlength
  | setSet index | parentRole index | setPropertyLength index =>
      cases h
      rfl
  | setPropertyOffset index =>
      simp only [perform] at h
      split at h
      · cases h
      · cases h
        rfl
  | copyProperty data | copyDynamicProperty data | copyMediaRef index => exact length_assign h
  | copyArrayProperty count data =>
      simp only [perform, Step.outcome_bind, Step.outcome_get] at h
      exact length_assign h
  | createSet typeIndex =>
      simp only [perform, Step.outcome_bind_eq_ok_iff] at h
      obtain ⟨_, _, hset, h⟩ := h
      obtain ⟨world, _, rfl⟩ := onWorld_eq_ok_iff.mp hset
      cases h
      rfl
  | endActorGroup | endSet =>
      cases h
      rfl

end Replay

end Playprint
