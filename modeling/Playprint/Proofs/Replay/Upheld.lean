import Playprint.Proofs.ByteCode.Fitting
import Playprint.Proofs.Keeps
import Playprint.Proofs.Property.Arrays
import Playprint.Proofs.Replay.Course
import Playprint.Proofs.Replay.Effects
import Playprint.Proofs.World

/-!
Properties that actors and sets keep while byte code runs. The byte code does nothing to them but what their classes
do, and it gives them no array that is not well formed. So a property that the classes uphold for such arrays holds
of all actors and sets, wherever the run has come to and whether it has failed there or not.
-/

namespace Playprint

open Step (Keeps)

/-- The value that an instruction assigns when `length` is the property length in force. -/
def Instruction.assignment? (length : Nat) : Instruction → Option Assignment
  | copyProperty data | copyDynamicProperty data => some (.single (.unknown data))
  | copyArrayProperty count data => some (.array ⟨length, count.toNat, data⟩)
  | copyMediaRef media => some (.single (.mediaRef media))
  | _ => none

/-- Actors and sets are built with a property, and whatever is done to them keeps it, as long as the arrays that
they are given are well formed. -/
structure Catalog.Upholds (K : Catalog) (A : K.Actor → Prop) (S : K.Stage → Prop) : Prop where
  buildActor : ∀ key build, K.actors.build? key = some build → ∀ name journal, A ((build name).run journal).1
  setActorProperty : ∀ className name value actor, A actor →
    Keeps (fun _ => True) A (K.actors.setProperty className name value actor)
  setActorArray : ∀ className name (value : PropertyArray) actor, value.WellFormed → A actor →
    Keeps (fun _ => True) A (K.actors.setArray className name value actor)
  initActor : ∀ className context actor, A actor →
    Keeps (fun _ => True) A (K.actors.init className context actor)
  buildStage : ∀ key build, K.stages.build? key = some build → ∀ name journal, S ((build name).run journal).1
  setStageProperty : ∀ className name value stage, S stage →
    Keeps (fun _ => True) S (K.stages.setProperty className name value stage)
  setStageArray : ∀ className name (value : PropertyArray) stage, value.WellFormed → S stage →
    Keeps (fun _ => True) S (K.stages.setArray className name value stage)
  attach : ∀ className parent child stage, S stage →
    Keeps (fun _ => True) S (K.stages.attach className parent child stage)
  initStage : ∀ className context stage, S stage →
    Keeps (fun _ => True) S (K.stages.init className context stage)

variable {K : Catalog} {A : K.Actor → Prop} {S : K.Stage → Prop} {ε α σ : Type}

namespace World

variable {P : α → Prop}

/-- All sets have a property. -/
def Every (S : K.Stage → Prop) (world : World K) : Prop :=
  ∀ stage ∈ world.stages, S stage.state

theorem keeps_onJournal {step : Step ε K.Journal α} (h : Keeps (fun _ => True) P step) :
    Keeps (Every S) P (onJournal step) :=
  h.on (fun _ _ => trivial) fun _ _ _ hworld => hworld

theorem keeps_noted {action : StateM K.Journal α} (h : ∀ journal, P (action.run journal).1) :
    Keeps (Every S) P (noted action : WorldStep ε K α) := by
  refine keeps_onJournal fun journal _ => ⟨trivial, ?_⟩
  rintro _ ⟨⟩
  exact h journal

theorem keeps_addStage {stage : Object K.Stage} (h : S stage.state) :
    Keeps (Every S) (fun _ => True) (addStage stage : WorldStep ε K SetHandle) :=
  fun _ hworld => ⟨Array.forall_mem_push.mpr ⟨h, hworld⟩, fun _ _ => trivial⟩

theorem keeps_onStage {action : String → K.Stage → Step ε K.Journal K.Stage} (set : SetHandle)
    (haction : ∀ className stage, S stage → Keeps (fun _ => True) S (action className stage)) :
    Keeps (Every S) (fun _ => True) (onStage set action) := by
  refine Keeps.get.bind fun world hworld => ?_
  split
  · exact .pure trivial
  · next stage hstage =>
    refine (keeps_onJournal (haction _ _ (hworld stage (Array.mem_of_getElem? hstage)))).bind fun state hstate => ?_
    refine .modify fun other hother later hlater => ?_
    rw [Array.set!_eq_setIfInBounds] at hlater
    rcases Array.mem_or_eq_of_mem_setIfInBounds hlater with hbefore | rfl
    · exact hother later hbefore
    · exact hstate

theorem Every.keepStages {world : World K} (h : world.Every S) (count : Nat) : (world.keepStages count).Every S := by
  intro stage hstage
  rw [World.keepStages, Array.take_eq_extract, Array.mem_extract_iff_getElem] at hstage
  obtain ⟨place, hplace, rfl⟩ := hstage
  exact h _ (Array.getElem_mem _)

end World

namespace Title

variable (title : Title K)

theorem keeps_newActor (h : K.Upholds A S) (index : Nat) :
    Keeps (World.Every S) (fun actor => A actor.state) (title.newActor index) := by
  refine Keeps.bind (A := fun found => ∃ key, K.actors.build? key = some found.2)
    (.ofExcept fun found hfound => (resolve_ok hfound).2) ?_
  rintro ⟨name, build⟩ ⟨key, hbuild⟩
  exact (World.keeps_noted (h.buildActor key build hbuild name)).bind fun state hstate => .pure hstate

theorem keeps_newSet (h : K.Upholds A S) (index : Nat) :
    Keeps (World.Every S) (fun _ => True) (title.newSet index) := by
  refine Keeps.bind (A := fun found => ∃ key, K.stages.build? key = some found.2)
    (.ofExcept fun found hfound => (resolve_ok hfound).2) ?_
  rintro ⟨name, build⟩ ⟨key, hbuild⟩
  exact (World.keeps_noted (h.buildStage key build hbuild name)).bind fun state hstate =>
    World.keeps_addStage hstate

theorem keeps_newGroup (index : Nat) :
    Keeps (World.Every S) (fun group => group.members = []) (title.newGroup index) :=
  (Keeps.ofExcept (A := fun _ => True) fun _ _ => trivial).bind fun _ _ =>
    (World.keeps_onJournal (.trivially _)).bind fun _ _ => .pure rfl

theorem keeps_newScene (index : Nat) :
    Keeps (World.Every S) (fun scene => scene.groups = []) (title.newScene index) :=
  (Keeps.ofExcept (A := fun _ => True) fun _ _ => trivial).bind fun _ _ =>
    (World.keeps_onJournal (.trivially _)).bind fun _ _ => .pure rfl

theorem keeps_newMediaRef (index : Nat) :
    Keeps (World.Every S) (fun _ => True) (title.newMediaRef index) :=
  (Keeps.ofExcept (A := fun _ => True) fun _ _ => trivial).bind fun _ _ =>
    (World.keeps_onJournal (.trivially _)).bind fun _ _ => .pure trivial

theorem keeps_newRole (index : Nat) (actor : ActorRef) (set : SetHandle) :
    Keeps (World.Every S) (fun _ => True) (title.newRole index actor set) :=
  (Keeps.ofExcept (A := fun _ => True) fun _ _ => trivial).bind fun _ _ => Keeps.get.bind fun _ _ =>
    (World.keeps_onJournal (.trivially _)).bind fun _ _ => .pure trivial

end Title

/-- All sets in the world of a session have a property. -/
def Session.Every (S : K.Stage → Prop) (session : Session K σ) : Prop :=
  session.world.Every S

/-- Whatever set a host is asked for, all sets keep the property. -/
def Host.Upholds (host : Host K σ) (S : K.Stage → Prop) : Prop :=
  ∀ index, Keeps (Session.Every S) (fun _ => True) (host.loadSet index)

/-- All states that a sequence goes through have the invariant that each of its steps keeps. -/
theorem Step.Keeps.statesAfter {ε σ β : Type} {I : σ → Prop} {P : Unit → Prop} {step : β → Step ε σ Unit}
    (h : ∀ item, Keeps I P (step item)) (items : List β) {state : σ} (hstate : I state) :
    ∀ left ∈ Step.statesAfter step items state, I left := by
  induction items generalizing state with
  | nil => exact fun _ hleft => absurd hleft List.not_mem_nil
  | cons item rest ih =>
    have hitem := (h item state hstate).1
    rw [Step.statesAfter]
    rcases hleft : (step item).outcome state with ⟨e | _, left⟩ <;> rw [hleft] at hitem
    · exact List.forall_mem_singleton.mpr hitem
    · exact List.forall_mem_cons.mpr ⟨hitem, ih hitem⟩

namespace Replay

variable {script : Script K} {host : Host K σ} {replay after : Replay K σ} {P : α → Prop}

/-- All actors and sets of a replay have their properties, and its property length is an index. -/
structure Every (A : K.Actor → Prop) (S : K.Stage → Prop) (replay : Replay K σ) : Prop where
  actors : ∀ slot ∈ replay.slots, A slot.record.actor.state
  stages : replay.session.world.Every S
  length : replay.registers.length ≤ Cursor.maxIndex

theorem keeps_refuse (error : FormatError) : Keeps (Every A S) P (refuse error : ReplayStep K σ α) :=
  .throw _

theorem keeps_onWorld {step : WorldStep ε K α} {tell : ε → LoadError} (h : Keeps (World.Every S) P step) :
    Keeps (Every A S) P (onWorld tell step : ReplayStep K σ α) :=
  (h.mapError tell).on (fun _ hreplay => hreplay.stages) fun _ _ hworld hreplay =>
    ⟨hreplay.actors, hworld, hreplay.length⟩

theorem keeps_onSession {step : SessionStep K σ α} (h : Keeps (Session.Every S) P step) :
    Keeps (Every A S) P (onSession step) :=
  h.on (fun _ hreplay => hreplay.stages) fun _ _ hsession hreplay => ⟨hreplay.actors, hsession, hreplay.length⟩

theorem keeps_setRegisters {f : Registers → Registers}
    (h : ∀ registers, registers.length ≤ Cursor.maxIndex → (f registers).length ≤ Cursor.maxIndex) :
    Keeps (Every A S) (fun _ => True) (setRegisters f : ReplayStep K σ Unit) :=
  .modify fun _ hreplay => ⟨hreplay.actors, hreplay.stages, h _ hreplay.length⟩

theorem keeps_setSlot (index : Nat) {f : Slot K → Slot K}
    (h : ∀ slot, A slot.record.actor.state → A (f slot).record.actor.state) :
    Keeps (Every A S) (fun _ => True) (setSlot index f : ReplayStep K σ Unit) := by
  refine .modify fun replay hreplay => ⟨fun slot hslot => ?_, hreplay.stages, hreplay.length⟩
  obtain ⟨other, hother⟩ := Array.mem_iff_getElem?.mp hslot
  rw [Array.getElem?_modify] at hother
  split at hother
  · obtain ⟨old, hold, rfl⟩ := Option.map_eq_some_iff.mp hother
    exact h old (hreplay.actors old (Array.mem_of_getElem? hold))
  · exact hreplay.actors slot (Array.mem_of_getElem? hother)

theorem keeps_slotAt (index : Nat) :
    Keeps (Every A S) (fun slot => A slot.record.actor.state) (slotAt index : ReplayStep K σ (Slot K)) := by
  refine Keeps.get.bind fun replay hreplay => ?_
  dsimp only
  split
  · next slot hslot => exact .pure (hreplay.actors slot (Array.mem_of_getElem? hslot))
  · exact .throw _

theorem keeps_roleOf (index : Nat) (slot : Slot K) :
    Keeps (Every A S) (fun _ => True) (roleOf index slot : ReplayStep K σ (Role K)) := by
  unfold roleOf
  split
  · exact .pure trivial
  · exact .throw _

theorem keeps_createActor (h : K.Upholds A S) (typeIndex : Nat) :
    Keeps (Every A S) (fun _ => True) (createActor script host typeIndex) := by
  simp only [createActor, refuse_bind]
  refine Keeps.get.bind fun replay hreplay => ?_
  split
  · exact .throw _
  refine (keeps_onWorld (script.title.keeps_newActor h typeIndex)).bind fun actor hactor => ?_
  -- The host logs the actor, which nothing is asked of, and leaves the world as it is.
  refine Keeps.bind (A := fun _ => True) (keeps_onSession fun session hsession => ⟨hsession, fun _ _ => trivial⟩)
    fun id _ => ?_
  refine Keeps.bind (.modify fun other hother => ?_) fun _ _ => keeps_setRegisters fun _ hlength => hlength
  exact ⟨Array.forall_mem_push.mpr ⟨hactor, hother.actors⟩, hother.stages, hother.length⟩

theorem keeps_bindRole (hhost : host.Upholds S) (typeIndex : Nat) :
    Keeps (Every A S) (fun _ => True) (bindRole script host typeIndex) := by
  unfold bindRole
  refine Keeps.get.bind fun replay _ => ?_
  split
  · exact keeps_refuse _
  refine (keeps_onSession (hhost _)).bind fun set _ => (keeps_slotAt _).bind fun slot _ => ?_
  exact (keeps_onWorld (script.title.keeps_newRole _ _ _)).bind fun role _ => keeps_setSlot _ fun _ hactor => hactor

theorem keeps_hang (h : K.Upholds A S) (set : SetHandle) (parent : Option ObjectId) (child : ObjectId) :
    Keeps (Every A S) (fun _ => True) (hang set parent child : ReplayStep K σ Unit) :=
  keeps_onWorld (World.keeps_onStage set fun className => h.attach className parent child)

theorem keeps_attachChild (h : K.Upholds A S) (parent child : Nat) :
    Keeps (Every A S) (fun _ => True) (attachChild parent child : ReplayStep K σ Unit) := by
  simp only [attachChild, refuse_bind]
  refine (keeps_slotAt _).bind fun parentSlot _ => (keeps_slotAt _).bind fun childSlot _ => ?_
  split
  · exact keeps_refuse _
  split
  · exact keeps_refuse _
  split
  · exact keeps_refuse _
  split
  · exact keeps_refuse _
  refine (keeps_roleOf _ _).bind fun parentRole _ => (keeps_roleOf _ _).bind fun childRole _ => ?_
  exact (keeps_hang h _ _ _).bind fun _ _ => keeps_setSlot _ fun _ hactor => hactor

theorem keeps_childRole (h : K.Upholds A S) (child : Nat) :
    Keeps (Every A S) (fun _ => True) (perform script host (.childRole child)) := by
  refine Keeps.get.bind fun replay _ => ?_
  split
  · exact keeps_refuse _
  · exact (keeps_attachChild h _ _).bind fun _ _ => keeps_setRegisters fun _ hlength => hlength

theorem keeps_createSet (h : K.Upholds A S) (typeIndex : Nat) :
    Keeps (Every A S) (fun _ => True) (perform script host (.createSet typeIndex)) := by
  refine (keeps_onWorld (script.title.keeps_newSet h typeIndex)).bind fun set _ => ?_
  exact .modify fun _ hreplay => ⟨hreplay.actors, hreplay.stages, hreplay.length⟩

theorem keeps_attachRest (h : K.Upholds A S) (index : Nat) :
    Keeps (Every A S) (fun _ => True) (attachRest index : ReplayStep K σ Unit) := by
  unfold attachRest
  refine Keeps.get.bind fun replay _ => ?_
  split
  · exact (keeps_hang h _ _ _).bind fun _ _ => keeps_setSlot _ fun _ hactor => hactor
  · exact .pure trivial

theorem keeps_assignToActor (h : K.Upholds A S) (name : String) {value : Assignment}
    (hvalue : ∀ array, value = .array array → array.WellFormed) :
    Keeps (Every A S) (fun _ => True) (assignToActor name value : ReplayStep K σ Unit) := by
  unfold assignToActor
  refine Keeps.get.bind fun replay hreplay => ?_
  dsimp only
  split
  · exact keeps_refuse _
  · next slot hslot =>
    have hactor := hreplay.actors slot (Array.mem_of_back? hslot)
    refine Keeps.bind (A := A) (keeps_onWorld (World.keeps_onJournal ?_)) fun state hstate =>
      keeps_setSlot _ fun _ _ => hstate
    cases value with
    | single value => exact h.setActorProperty _ _ _ _ hactor
    | array value => exact h.setActorArray _ _ _ _ (hvalue value rfl) hactor

theorem keeps_assignToSet (h : K.Upholds A S) (name : String) {value : Assignment}
    (hvalue : ∀ array, value = .array array → array.WellFormed) :
    Keeps (Every A S) (fun _ => True) (assignToSet name value : ReplayStep K σ Unit) := by
  unfold assignToSet
  refine Keeps.get.bind fun replay _ => ?_
  split
  · exact keeps_refuse _
  · refine keeps_onWorld (World.keeps_onStage _ fun className stage hstage => ?_)
    cases value with
    | single value => exact h.setStageProperty _ _ _ _ hstage
    | array value => exact h.setStageArray _ _ _ _ (hvalue value rfl) hstage

theorem keeps_assign (h : K.Upholds A S) {value : Assignment}
    (hvalue : ∀ array, value = .array array → array.WellFormed) :
    Keeps (Every A S) (fun _ => True) (assign script value : ReplayStep K σ Unit) := by
  unfold assign
  refine Keeps.get.bind fun replay _ => ?_
  split
  · exact keeps_refuse _
  · split
    · exact keeps_assignToActor h _ hvalue
    · exact keeps_assignToSet h _ hvalue

/-! ### Instructions -/

/-- Such an instruction does nothing else than to assign the value. -/
theorem outcome_perform_assignment {instruction : Instruction} {value : Assignment}
    (h : instruction.assignment? replay.registers.length = some value) :
    (perform script host instruction).outcome replay = (assign script value).outcome replay := by
  cases instruction with
  | copyProperty data | copyDynamicProperty data | copyMediaRef index =>
    cases h
    rfl
  | copyArrayProperty count data =>
    cases h
    rw [perform, Step.outcome_bind_ok (Step.outcome_get _)]
  | _ => cases h

/-- The array that an instruction assigns is well formed, if the instruction fits. -/
theorem wellFormed_of_assignment {instruction : Instruction} {length : Nat} {array : PropertyArray}
    (hlength : length ≤ Cursor.maxIndex) (hfits : instruction.Fits length)
    (h : instruction.assignment? length = some (.array array)) : array.WellFormed := by
  cases instruction with
  | copyArrayProperty count data =>
    cases h
    have hmax : Cursor.maxIndex < UInt32.size := by decide
    exact .of_fields (Nat.lt_of_le_of_lt hlength hmax) count.toNat_lt hfits.1
  | _ => cases h

/-- What is read with the property length of a replay keeps all properties. -/
theorem every_perform (h : K.Upholds A S) (hhost : host.Upholds S) {instruction : Instruction}
    (hfits : instruction.Fits replay.registers.length) (hreplay : replay.Every A S) :
    ((perform script host instruction).outcome replay).2.Every A S := by
  cases instruction with
  | createActor typeIndex => exact (keeps_createActor h typeIndex replay hreplay).1
  | bindRole typeIndex => exact (keeps_bindRole hhost typeIndex replay hreplay).1
  | setSet index | parentRole index => exact ⟨hreplay.actors, hreplay.stages, hreplay.length⟩
  | setPropertyLength length => exact ⟨hreplay.actors, hreplay.stages, hfits⟩
  | childRole child => exact (keeps_childRole h child replay hreplay).1
  | setPropertyOffset index =>
    simp only [perform]
    split
    · exact hreplay
    · exact ⟨hreplay.actors, hreplay.stages, hreplay.length⟩
  | copyProperty data | copyDynamicProperty data | copyMediaRef index | copyArrayProperty count data =>
    -- Here alone it matters which arrays there are: what fits assigns none but well-formed ones.
    rw [outcome_perform_assignment rfl]
    refine (keeps_assign h (fun array harray => ?_) replay hreplay).1
    exact wellFormed_of_assignment hreplay.length hfits (congrArg some harray)
  | createSet typeIndex => exact (keeps_createSet h typeIndex replay hreplay).1
  | endActorGroup | endSet => exact hreplay

theorem every_execute (h : K.Upholds A S) (hhost : host.Upholds S) (hreplay : replay.Every A S)
    {instruction : Instruction} (hfits : instruction.Fits replay.registers.length) {answer : Except LoadError Unit}
    (hexecute : (execute script host instruction).outcome replay = (answer, after)) : after.Every A S := by
  rw [execute, Step.outcome_bind_ok (Step.outcome_get _)] at hexecute
  split at hexecute
  · cases hexecute
    exact hreplay
  · have hleft : ((perform script host instruction).outcome replay).2.Every A S := every_perform h hhost hfits hreplay
    rwa [hexecute] at hleft

/-! ### Runs -/

/-- What is read fits the property length of the replay. -/
theorem fits_of_fetch {cursor left : Cursor} {instruction : Instruction}
    (h : (fetch script replay).outcome cursor = (.ok instruction, left)) :
    instruction.Fits replay.registers.length := by
  obtain ⟨_, op, _, _, _, hoperands⟩ := fetch_ok h
  exact op.fits_of_readOperands hoperands

theorem every_start {session : Session K σ} (h : session.Every S) : (start session).Every A S :=
  ⟨fun _ hslot => absurd hslot (Array.not_mem_empty _), h, Nat.zero_le _⟩

theorem every_endStates (h : K.Upholds A S) (hreplay : replay.Every A S) :
    ∀ here ∈ endStates script replay, here.Every A S := by
  unfold endStates
  split
  · exact Keeps.statesAfter (keeps_attachRest h) _ hreplay
  · exact fun _ hhere => absurd hhere List.not_mem_nil

/-- All actors and sets have their properties in every state of a course, the one that a failure leaves among them. -/
theorem every_course (h : K.Upholds A S) (hhost : host.Upholds S) {cursor : Cursor} (hreplay : replay.Every A S) :
    ∀ here ∈ course script host cursor replay, here.2.Every A S := by
  induction cursor, replay using rounds_induction script host with
  | exhausted cursor replay hcursor =>
    rw [course_exhausted hcursor, List.forall_mem_map, List.forall_mem_cons]
    exact ⟨hreplay, every_endStates h hreplay⟩
  | unread cursor replay error left hcursor hfetch =>
    rw [course_fetch_error hcursor hfetch, List.forall_mem_cons, List.forall_mem_singleton]
    exact ⟨hreplay, hreplay⟩
  | failed cursor replay instruction left error after hfetch hexecute =>
    have hafter := every_execute h hhost hreplay (fits_of_fetch hfetch) hexecute
    rw [course_execute_error hfetch hexecute, List.forall_mem_cons, List.forall_mem_singleton]
    exact ⟨hreplay, hafter⟩
  | round cursor replay instruction left after hfetch hexecute ih =>
    have hafter := every_execute h hhost hreplay (fits_of_fetch hfetch) hexecute
    rw [course_round hfetch hexecute, List.forall_mem_cons]
    exact ⟨hreplay, ih hafter⟩

/-- Where a run stops, all actors and sets have their properties. -/
theorem every_run (h : K.Upholds A S) (hhost : host.Upholds S) (code : Cursor) {session : Session K σ}
    (hsession : session.Every S) : ((run script host).outcome (code, start session)).2.2.Every A S :=
  every_course h hhost (every_start hsession) _ (List.mem_of_getLast? (getLast?_course code session))

end Replay

end Playprint
