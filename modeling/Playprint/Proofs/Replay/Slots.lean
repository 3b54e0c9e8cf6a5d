import Playprint.Proofs.Replay.Course
import Playprint.Proofs.Replay.Effects

/-!
The slots of a replay. An instruction does one thing to them at most: it adds a slot, changes the newest one or
attaches one; the last call attaches. A step that fails has left them alone. So the slots stay in order, and a
slot behind which there is another one keeps its record for good. Main statement: `slots_settle`.
-/

namespace Playprint

/-- A slot has a role exactly when it is bound to a set, and nothing but a role is attached. -/
structure Slot.Tidy {K : Catalog} (slot : Slot K) : Prop where
  role_iff : slot.record.role.isSome ↔ slot.record.binding.isSome
  attached : slot.attached → slot.record.role.isSome

namespace Replay

variable {K : Catalog} {σ : Type} {script : Script K} {host : Host K σ} {declared : Nat}
  {before mid after : Replay K σ}

/-! ### What is done to slots -/

/-- What one step of a replay can do to the slots. -/
inductive SlotChange (declared : Nat) (slots : Array (Slot K)) : Array (Slot K) → Prop
  | none : SlotChange declared slots slots
  | create (id : ObjectId) (typeIndex : Nat) (actor : Object K.Actor) (hroom : slots.size < declared) :
      SlotChange declared slots (slots.push ⟨⟨id, typeIndex, actor, .none, .none⟩, false⟩)
  | bind (role : Role K) (binding : SetBinding) :
      SlotChange declared slots (slots.modify (slots.size - 1) (Slot.bound role binding))
  | assign (actor : Object K.Actor) :
      SlotChange declared slots (slots.modify (slots.size - 1) fun slot =>
        { slot with record := { slot.record with actor } })
  | attach {index : Nat} {slot : Slot K} {role : Role K} (hslot : slots[index]? = some slot)
      (hrole : slot.record.role = some role) :
      SlotChange declared slots (slots.modify index fun slot => { slot with attached := true })

/-- One change of the slots leads from the first state to the second. -/
def Reslotted (declared : Nat) (before after : Replay K σ) : Prop :=
  SlotChange declared before.slots after.slots

theorem Reslotted.of_alike (h : Step.Alike Replay.slots before after) : Reslotted declared before after := by
  rw [Reslotted, show after.slots = before.slots from h]
  exact .none

/-! ### Steps that leave the slots alone -/

theorem alike_onWorld {ε α : Type} (tell : ε → LoadError) (step : WorldStep ε K α) :
    Step.Along (Step.Alike (Replay.slots (K := K) (σ := σ))) (onWorld tell step) :=
  fun _ => rfl

theorem alike_onSession {α : Type} (step : SessionStep K σ α) :
    Step.Along (Step.Alike (Replay.slots (K := K) (σ := σ))) (onSession step) :=
  fun _ => rfl

theorem alike_assignToSet (name : String) (value : Assignment) :
    Step.Along (Step.Alike (Replay.slots (K := K) (σ := σ))) (assignToSet name value) := by
  refine Step.Along.get.bind fun replay => ?_
  split
  · exact .throw _
  · exact alike_onWorld _ _

/-! ### Failures -/

theorem failsAlike_createActor (script : Script K) (host : Host K σ) (typeIndex : Nat) :
    Step.FailsAlong (Step.Alike Replay.slots) (createActor script host typeIndex) := by
  refine .bind .get fun replay => ?_
  split
  · exact .of_along (.throw _)
  · refine .bind (alike_onWorld _ _) fun actor => .bind (alike_onSession _) fun id => ?_
    -- The new slot comes last, and nothing can fail after it.
    rintro state left error ⟨⟩

theorem failsAlike_bindRole (script : Script K) (host : Host K σ) (typeIndex : Nat) :
    Step.FailsAlong (Step.Alike Replay.slots) (bindRole script host typeIndex) := by
  refine .bind .get fun replay => ?_
  split
  · exact .of_along (.throw _)
  · exact .bind (alike_onSession _) fun set => .bind (along_slotAt _) fun slot =>
      .bind (alike_onWorld _ _) fun role => .modify _

theorem failsAlike_attachChild (parent child : Nat) :
    Step.FailsAlong (Step.Alike (Replay.slots (K := K) (σ := σ))) (attachChild parent child) := by
  unfold attachChild
  refine .bind (along_slotAt _) fun upper => .bind (along_slotAt _) fun lower => ?_
  simp only [refuse_bind]
  split
  · exact .of_along (.throw _)
  split
  · exact .of_along (.throw _)
  split
  · exact .of_along (.throw _)
  split
  · exact .of_along (.throw _)
  · exact .bind (along_roleOf _ _) fun upperRole => .bind (along_roleOf _ _) fun lowerRole =>
      .bind (alike_onWorld _ _) fun _ => .modify _

theorem failsAlike_assign (script : Script K) (value : Assignment) :
    Step.FailsAlong (Step.Alike (Replay.slots (K := K) (σ := σ))) (assign script value) := by
  refine .bind .get fun replay => ?_
  split
  · exact .of_along (.throw _)
  split
  · refine .bind .get fun replay => ?_
    dsimp only
    split
    · exact .of_along (.throw _)
    · exact .bind (alike_onWorld _ _) fun state => .modify _
  · exact .of_along (alike_assignToSet _ value)

theorem failsAlike_perform (script : Script K) (host : Host K σ) (instruction : Instruction) :
    Step.FailsAlong (Step.Alike Replay.slots) (perform script host instruction) := by
  cases instruction with
  | createActor typeIndex => exact failsAlike_createActor script host typeIndex
  | bindRole typeIndex => exact failsAlike_bindRole script host typeIndex
  | childRole child =>
      refine .bind .get fun replay => ?_
      split
      · exact .of_along (.throw _)
      · exact (failsAlike_attachChild _ child).followed fun _ _ => ⟨_, _, rfl⟩
  | setSet index | parentRole index | setPropertyLength index => exact .modify _
  | setPropertyOffset index =>
      simp only [perform]
      split
      · exact .of_along (.throw _)
      · exact .modify _
  | copyProperty data | copyDynamicProperty data | copyMediaRef index => exact failsAlike_assign script _
  | copyArrayProperty count data => exact .bind .get fun replay => failsAlike_assign script _
  | createSet typeIndex => exact .bind (alike_onWorld _ _) fun set => .modify _
  | endActorGroup | endSet => exact .pure ()

/-- An instruction that fails has left the slots as they were. -/
theorem failsAlike_execute (script : Script K) (host : Host K σ) (instruction : Instruction) :
    Step.FailsAlong (Step.Alike Replay.slots) (execute script host instruction) := by
  refine .bind .get fun replay => ?_
  split
  · exact .of_along (.throw _)
  · exact failsAlike_perform script host instruction

theorem failsAlike_attachRest (index : Nat) :
    Step.FailsAlong (Step.Alike (Replay.slots (K := K) (σ := σ))) (attachRest index) := by
  refine .bind .get fun replay => ?_
  split
  · exact .bind (alike_onWorld _ _) fun _ => .modify _
  · exact .pure ()

/-! ### Successes -/

theorem reslotted_assign {value : Assignment} (h : (assign script value).outcome before = (.ok (), after)) :
    Reslotted declared before after := by
  simp only [assign, Step.outcome_bind_eq_ok_iff] at h
  obtain ⟨_, _, ⟨⟩, h⟩ := h
  split at h
  · cases h
  split at h
  · simp only [assignToActor, Step.outcome_bind_eq_ok_iff] at h
    obtain ⟨_, _, ⟨⟩, h⟩ := h
    split at h
    · cases h
    simp only [Step.outcome_bind_eq_ok_iff] at h
    obtain ⟨state, mid, hstate, h⟩ := h
    obtain ⟨world, _, rfl⟩ := onWorld_eq_ok_iff.mp hstate
    cases h
    exact .assign _
  · rename_i name _ _ _
    exact .of_alike ((alike_assignToSet name value).of_outcome h)

theorem reslotted_attachChild {parent child : Nat}
    (h : (attachChild parent child).outcome before = (.ok (), after)) : Reslotted declared before after := by
  obtain ⟨_, _, _, _, role, _, _, hslot, _, _, _, _, _, hrole, _, rfl⟩ := attachChild_ok h
  exact .attach hslot hrole

theorem reslotted_perform {instruction : Instruction}
    (h : (perform script host instruction).outcome before = (.ok (), after)) :
    Reslotted script.declared before after := by
  cases instruction with
  | createActor typeIndex =>
      obtain ⟨hroom, _, _, _, rfl⟩ := createActor_ok h
      exact .create _ _ _ hroom
  | bindRole typeIndex =>
      obtain ⟨index, setIndex, _, _, _, role, _, htarget, _, _, _, rfl⟩ := bindRole_ok h
      obtain rfl : index = before.slots.size - 1 := by
        rw [roleTarget] at htarget
        split at htarget
        · cases htarget
        split at htarget <;> cases htarget
        rfl
      exact .bind role _
  | childRole child =>
      obtain ⟨_, mid, _, hattach, rfl⟩ := childRole_ok h
      have hmid : Reslotted script.declared before mid := reslotted_attachChild hattach
      exact hmid
  | setSet index | parentRole index | setPropertyLength index =>
      cases h
      exact .none
  | setPropertyOffset index =>
      simp only [perform] at h
      split at h <;> cases h
      exact .none
  | copyProperty data | copyDynamicProperty data | copyMediaRef index => exact reslotted_assign h
  | copyArrayProperty count data =>
      simp only [perform, Step.outcome_bind, Step.outcome_get] at h
      exact reslotted_assign h
  | createSet typeIndex =>
      simp only [perform, Step.outcome_bind_eq_ok_iff] at h
      obtain ⟨_, _, hset, h⟩ := h
      obtain ⟨_, _, rfl⟩ := onWorld_eq_ok_iff.mp hset
      cases h
      exact .none
  | endActorGroup | endSet =>
      cases h
      exact .none

/-- Every instruction changes the slots once at most, whether it succeeds or not. -/
theorem along_reslotted_execute (script : Script K) (host : Host K σ) (instruction : Instruction) :
    Step.Along (Reslotted script.declared) (execute script host instruction) := by
  intro before
  rcases hrun : (execute script host instruction).outcome before with ⟨error | _, after⟩
  · exact .of_alike (failsAlike_execute script host instruction before after error hrun)
  · exact reslotted_perform (execute_eq_ok_iff.mp hrun).2

theorem along_reslotted_attachRest (index : Nat) :
    Step.Along (Reslotted (K := K) (σ := σ) declared) (attachRest index) := by
  intro before
  rcases hrun : (attachRest index).outcome before with ⟨error | _, after⟩
  · exact .of_alike (failsAlike_attachRest index before after error hrun)
  · obtain ⟨slot, role, _, _, hslot, _, hrole, _, _, rfl⟩ | ⟨rfl, _⟩ := attachRest_ok hrun
    · exact .attach hslot hrole
    · exact .none

/-! ### What all changes keep -/

/-- There are no more slots than were declared, and every one is tidy. -/
structure Tidy (declared : Nat) (replay : Replay K σ) : Prop where
  slots : ∀ slot ∈ replay.slots, slot.Tidy
  size_le : replay.slots.size ≤ declared

/-- No slot is lost, and a slot behind which a further actor was created keeps its record; at most it has been
attached. -/
structure Follows (before after : Replay K σ) : Prop where
  grown : before.slots.size ≤ after.slots.size
  settled : ∀ index slot, index + 1 < before.slots.size → before.slots[index]? = some slot →
    ∃ attached, after.slots[index]? = some { slot with attached } ∧ (slot.attached → attached)

theorem Follows.of_slots_eq (h : after.slots = before.slots) : Follows before after :=
  ⟨Nat.le_of_eq (congrArg Array.size h.symm), fun _ slot _ hslot => ⟨slot.attached, h ▸ hslot, id⟩⟩

instance : Std.Refl (Follows (K := K) (σ := σ)) := ⟨fun _ => .of_slots_eq rfl⟩

theorem Follows.trans (first : Follows before mid) (second : Follows mid after) : Follows before after := by
  refine ⟨Nat.le_trans first.grown second.grown, fun index slot hindex hslot => ?_⟩
  obtain ⟨_, hmid, hkept⟩ := first.settled index slot hindex hslot
  obtain ⟨attached, hafter, hkept'⟩ :=
    second.settled index _ (Nat.lt_of_lt_of_le hindex first.grown) hmid
  exact ⟨attached, hafter, hkept' ∘ hkept⟩

namespace SlotChange

variable {slots changed : Array (Slot K)}

theorem forall_mem_modify {P : Slot K → Prop} {index : Nat} {f : Slot K → Slot K}
    (hslots : ∀ slot ∈ slots, P slot) (hf : ∀ slot, slots[index]? = some slot → P slot → P (f slot)) :
    ∀ slot ∈ slots.modify index f, P slot := by
  intro other hother
  obtain ⟨place, hplace⟩ := Array.mem_iff_getElem?.mp hother
  rw [Array.getElem?_modify] at hplace
  split at hplace
  · rename_i heq
    subst heq
    obtain ⟨slot, hslot, rfl⟩ := Option.map_eq_some_iff.mp hplace
    exact hf slot hslot (hslots slot (Array.mem_iff_getElem?.mpr ⟨index, hslot⟩))
  · exact hslots other (Array.mem_iff_getElem?.mpr ⟨place, hplace⟩)

theorem tidy (h : SlotChange declared slots changed) (hslots : ∀ slot ∈ slots, slot.Tidy) :
    ∀ slot ∈ changed, slot.Tidy := by
  cases h with
  | none => exact hslots
  | create id typeIndex actor hroom =>
      intro slot hslot
      rcases Array.mem_push.mp hslot with hold | rfl
      · exact hslots slot hold
      · exact ⟨Iff.rfl, nofun⟩
  | bind role binding => exact forall_mem_modify hslots fun _ _ _ => ⟨Iff.rfl, fun _ => rfl⟩
  | assign actor => exact forall_mem_modify hslots fun _ _ hslot => ⟨hslot.role_iff, hslot.attached⟩
  | attach hslot hrole =>
      refine forall_mem_modify hslots fun other hother htidy => ⟨htidy.role_iff, fun _ => ?_⟩
      obtain rfl := Option.some.inj (hslot.symm.trans hother)
      exact Option.isSome_of_eq_some hrole

theorem size_le (h : SlotChange declared slots changed) : slots.size ≤ changed.size := by
  cases h with
  | none => exact Nat.le_refl _
  | create id typeIndex actor hroom => exact Array.size_push _ ▸ Nat.le_succ _
  | bind | assign | attach => exact Nat.le_of_eq Array.size_modify.symm

theorem le_declared (h : SlotChange declared slots changed) (hsize : slots.size ≤ declared) :
    changed.size ≤ declared := by
  cases h with
  | none => exact hsize
  | create id typeIndex actor hroom => rwa [Array.size_push]
  | bind | assign | attach => rwa [Array.size_modify]

/-- A change of the newest slot is not seen of those before it. -/
theorem getElem?_modify_newest {index : Nat} (f : Slot K → Slot K) (hindex : index + 1 < slots.size) :
    (slots.modify (slots.size - 1) f)[index]? = slots[index]? := by
  rw [Array.getElem?_modify, if_neg (by omega)]

theorem settled (h : SlotChange declared slots changed) {index : Nat} {slot : Slot K}
    (hindex : index + 1 < slots.size) (hslot : slots[index]? = some slot) :
    ∃ attached, changed[index]? = some { slot with attached } ∧ (slot.attached → attached) := by
  cases h with
  | none => exact ⟨slot.attached, hslot, id⟩
  | create =>
      refine ⟨slot.attached, ?_, id⟩
      rw [Array.getElem?_push, if_neg (by omega)]
      exact hslot
  | bind | assign =>
      refine ⟨slot.attached, ?_, id⟩
      rw [getElem?_modify_newest _ hindex]
      exact hslot
  | attach =>
      rw [Array.getElem?_modify, hslot]
      split
      · exact ⟨true, rfl, fun _ => rfl⟩
      · exact ⟨slot.attached, rfl, id⟩

end SlotChange

theorem Reslotted.tidy (h : Reslotted declared before after) (hbefore : before.Tidy declared) :
    after.Tidy declared :=
  ⟨SlotChange.tidy h hbefore.slots, SlotChange.le_declared h hbefore.size_le⟩

theorem Reslotted.follows (h : Reslotted declared before after) : Follows before after :=
  ⟨SlotChange.size_le h, fun _ _ => SlotChange.settled h⟩

/-! ### Runs -/

/-- A later state of a run: tidy if the earlier one was, and following it. -/
structure Later (declared : Nat) (before after : Replay K σ) : Prop where
  tidy : before.Tidy declared → after.Tidy declared
  follows : Follows before after

instance : Std.Refl (Later (K := K) (σ := σ) declared) := ⟨fun _ => ⟨id, Std.Refl.refl _⟩⟩

instance : Trans (Later (K := K) (σ := σ) declared) (Later declared) (Later declared) where
  trans first second := ⟨second.tidy ∘ first.tidy, first.follows.trans second.follows⟩

theorem Reslotted.later (h : Reslotted declared before after) : Later declared before after :=
  ⟨h.tidy, h.follows⟩

theorem tidy_start (declared : Nat) (session : Session K σ) : (start session).Tidy declared :=
  ⟨fun slot hslot => absurd hslot (Array.not_mem_empty slot), Nat.zero_le _⟩

/-- States of a replay in the order in which it went through them. -/
structure KeepsSlots (declared : Nat) (states : List (Replay K σ)) : Prop where
  tidy : ∀ replay ∈ states, replay.Tidy declared
  follows : states.Pairwise Follows

/-- Whatever the byte code is, and whether the replay succeeds or stops with an error: from its start to where
it stops every slot is tidy, there are no more slots than were declared, and what was settled stays. -/
theorem slots_settle (script : Script K) (host : Host K σ) (code : Cursor) (session : Session K σ) :
    let states := (course script host code (start session)).map Prod.snd
    states.head? = some (start session) ∧
      states.getLast? = some ((run script host).outcome (code, start session)).2.2 ∧
      KeepsSlots script.declared states := by
  have hlater := pairwise_course (R := Later script.declared)
    (fun instruction => (along_reslotted_execute script host instruction).mono fun _ _ => Reslotted.later)
    (fun index => (along_reslotted_attachRest index).mono fun _ _ => Reslotted.later) code (start session)
  refine ⟨?_, ?_, fun replay hreplay => ?_, hlater.imp Later.follows⟩
  · rw [List.head?_map, head?_course]
    rfl
  · rw [List.getLast?_map, getLast?_course]
    rfl
  · rw [course, List.map_cons] at hlater hreplay
    rcases List.mem_cons.mp hreplay with rfl | hreplay
    · exact tidy_start _ session
    · exact (List.rel_of_pairwise_cons hlater hreplay).tidy (tidy_start _ session)

end Replay

end Playprint
