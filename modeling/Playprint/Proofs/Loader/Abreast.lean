import Playprint.Proofs.Loader.Failures
import Playprint.Proofs.Loader.Twin

/-!
The replay of a group chunk by two loaders of which the second has come a longer way. Round by round both
create the same actors, bind them under the same indices and hang the same roles, and neither ever finds a
role that cannot be hung.
-/

namespace Playprint

open Step (Matched Paired Same Blind)

/-! ### Records of two runs -/

/-- The same actor in a later run: its identity is raised, and its set has the same index. -/
structure ActorRecord.Raised {K : Catalog} (count : Nat) (record other : ActorRecord K) : Prop where
  id : other.id = record.id.raise count
  typeIndex : other.typeIndex = record.typeIndex
  actor : other.actor = record.actor
  role : other.role = record.role.map (Role.raise count)
  index : other.binding.map SetBinding.index = record.binding.map SetBinding.index

/-- Both actors are bound, under one index, or neither is. -/
theorem ActorRecord.Raised.binding_cases {K : Catalog} {count : Nat} {record other : ActorRecord K}
    (h : record.Raised count other) :
    (record.binding = none ∧ other.binding = none) ∨
    ∃ binding binding', record.binding = some binding ∧ other.binding = some binding' ∧
      binding'.index = binding.index := by
  have hindex := h.index
  cases hbinding : record.binding with
  | none =>
      rw [hbinding, Option.map_none, Option.map_eq_none_iff] at hindex
      exact .inl ⟨rfl, hindex⟩
  | some binding =>
      rw [hbinding, Option.map_some, Option.map_eq_some_iff] at hindex
      obtain ⟨binding', hbinding', hsame⟩ := hindex
      exact .inr ⟨binding, binding', rfl, hbinding', hsame⟩

/-- The set of the record is the one that the table keeps under its index. -/
def ActorRecord.BoundIn {K : Catalog} (table : SetTable) (record : ActorRecord K) : Prop :=
  ∀ binding, record.binding = some binding → table.cached? binding.index = some binding.handle

theorem ActorRecord.BoundIn.grown {K : Catalog} {before after : SetTable} {record : ActorRecord K}
    (h : record.BoundIn before) (hgrown : before.Grown after) : record.BoundIn after :=
  fun binding hbinding => hgrown _ _ (h binding hbinding)

/-- A record is bound to the set of an index when its index says so. -/
theorem ActorRecord.BoundIn.handle_iff {K : Catalog} {table : SetTable} {record : ActorRecord K}
    {binding : SetBinding} (h : record.BoundIn table)
    (hapart : ∀ i j set, table.cached? i = some set → table.cached? j = some set → i = j)
    (hbinding : table.cached? binding.index = some binding.handle) :
    record.binding.map SetBinding.handle = some binding.handle ↔
      record.binding.map SetBinding.index = some binding.index := by
  cases hown : record.binding with
  | none => exact iff_of_false (fun h => nomatch h) fun h => nomatch h
  | some own =>
      have hcached := h own hown
      simp only [Option.map_some, Option.some.injEq]
      constructor
      · intro hhandle
        exact hapart _ _ _ (hhandle ▸ hcached) hbinding
      · intro hindex
        rw [hindex, hbinding] at hcached
        exact (Option.some.inj hcached).symm

namespace World

variable {ε α : Type}

theorem blind_onJournal (step : Step ε Unit α) :
    Blind (onJournal step : WorldStep ε Stock.catalog α) :=
  (Blind.of_unit step).on fun _ => rfl

theorem blind_noted (action : StateM Unit α) : Blind (noted action : WorldStep ε Stock.catalog α) :=
  blind_onJournal _

end World

namespace Title

variable (title : Title Stock.catalog) (index : Nat)

theorem blind_newActor : Blind (title.newActor index) :=
  (Blind.ofExcept _).bind fun _ => (World.blind_noted _).bind fun _ => .pure _

theorem blind_newGroup : Blind (title.newGroup index) :=
  (Blind.ofExcept _).bind fun _ => (World.blind_noted _).bind fun _ => .pure _

theorem blind_newScene : Blind (title.newScene index) :=
  (Blind.ofExcept _).bind fun _ => (World.blind_noted _).bind fun _ => .pure _

theorem blind_newMediaRef : Blind (title.newMediaRef index) :=
  (Blind.ofExcept _).bind fun _ => (World.blind_noted _).bind fun _ => .pure _

/-- A stock role keeps the class of its set, and the actor that it was built for. -/
theorem outcome_newRole :
    (∃ error, ∀ actor set world, (title.newRole index actor set).outcome world = (.error error, world)) ∨
    ∃ name, ∀ actor set (world : World Stock.catalog), (title.newRole index actor set).outcome world =
      (.ok ⟨name, actor, ⟨(world.className? set).getD ""⟩⟩, world) := by
  cases hresolve : resolve .role title.manifest.roleClasses Stock.catalog.roles.build? index with
  | error error =>
      refine .inl ⟨error, fun actor set world => ?_⟩
      rw [newRole, hresolve]
      rfl
  | ok found =>
      obtain ⟨name, build⟩ := found
      obtain ⟨_, key, hbuild⟩ := resolve_ok hresolve
      obtain rfl := Stock.eq_of_onlyKey hbuild
      refine .inr ⟨name, fun actor set world => ?_⟩
      rw [newRole, hresolve]
      rfl

end Title

namespace Replay

open Loader (Frame Twin groupHost)

variable {frame : Frame} {declared : Nat} {first second : Replay Stock.catalog Desk}

/-- The same slot in a later run, each bound in the table of its loader. -/
structure Counterpart (count : Nat) (table table' : SetTable) (slot other : Slot Stock.catalog) : Prop where
  raised : slot.record.Raised count other.record
  bound : slot.record.BoundIn table
  bound' : other.record.BoundIn table'
  attached : other.attached = slot.attached

/-- The second replay is where the first one is. -/
structure Abreast (frame : Frame) (first second : Replay Stock.catalog Desk) : Prop where
  twin : Twin frame first.session second.session
  size : second.slots.size = first.slots.size
  slot : ∀ (index : Nat) slot other, first.slots[index]? = some slot → second.slots[index]? = some other →
    Counterpart frame.raised first.session.host.sets second.session.host.sets slot other
  registers : second.registers = first.registers

theorem Abreast.lookup (h : Abreast frame first second) (index : Nat) :
    (first.slots[index]? = none ∧ second.slots[index]? = none) ∨
    ∃ slot other, first.slots[index]? = some slot ∧ second.slots[index]? = some other ∧
      Counterpart frame.raised first.session.host.sets second.session.host.sets slot other := by
  by_cases hindex : index < first.slots.size
  · have hindex' : index < second.slots.size := h.size ▸ hindex
    have hslot := Array.getElem?_eq_getElem hindex
    have hother := Array.getElem?_eq_getElem hindex'
    exact .inr ⟨_, _, hslot, hother, h.slot index _ _ hslot hother⟩
  · refine .inl ⟨Array.getElem?_eq_none (Nat.le_of_not_lt hindex), ?_⟩
    rw [Array.getElem?_eq_none_iff, h.size]
    exact Nat.le_of_not_lt hindex

theorem Abreast.roleTarget (h : Abreast frame first second) : second.roleTarget = first.roleTarget := by
  have hempty : second.slots.isEmpty = first.slots.isEmpty := by
    simp only [Array.isEmpty, h.size]
  simp only [Replay.roleTarget, hempty, h.registers, h.size]

theorem Abreast.permit {script : Script Stock.catalog} (h : Abreast frame first second) (op : Opcode) :
    permit script op second = permit script op first := by
  cases op with
  | bindRole => rw [Replay.permit, Replay.permit, h.roleTarget]
  | _ => rfl

/-! ### Registers and slots -/

theorem abreast_setRegisters (f : Registers → Registers) :
    Paired (Abreast frame) (fun _ _ => Abreast frame) (Abreast frame) (setRegisters f) (setRegisters f) := by
  intro first second h
  exact .ok ⟨h.twin, h.size, h.slot, congrArg f h.registers⟩

/-- The slots may be changed in the same way. -/
theorem Abreast.modify (h : Abreast frame first second) {index : Nat}
    {f g : Slot Stock.catalog → Slot Stock.catalog}
    (hslot : ∀ slot other, first.slots[index]? = some slot → second.slots[index]? = some other →
      Counterpart frame.raised first.session.host.sets second.session.host.sets (f slot) (g other)) :
    Abreast frame { first with slots := first.slots.modify index f }
      { second with slots := second.slots.modify index g } := by
  refine ⟨h.twin, by simp only [Array.size_modify, h.size], fun i slot other hfound hfound' => ?_, h.registers⟩
  simp only [Array.getElem?_modify] at hfound hfound'
  by_cases hi : index = i
  · subst hi
    rw [if_pos rfl, Option.map_eq_some_iff] at hfound hfound'
    obtain ⟨slot, hold, rfl⟩ := hfound
    obtain ⟨other, hold', rfl⟩ := hfound'
    exact hslot slot other hold hold'
  · rw [if_neg hi] at hfound hfound'
    exact h.slot i slot other hfound hfound'

/-- Loaders may go on, as long as they keep what is in their tables. -/
theorem Abreast.inSession (h : Abreast frame first second) {s t : Loader Stock.catalog}
    (htwin : Twin (frame.since first.session second.session) s t) :
    Abreast frame { first with session := s } { second with session := t } := by
  refine ⟨h.twin.of_since htwin, h.size, fun index slot other hslot hother => ?_, h.registers⟩
  obtain ⟨hraised, hbound, hbound', hattached⟩ := h.slot index slot other hslot hother
  exact ⟨hraised, hbound.grown htwin.grown.1, hbound'.grown htwin.grown.2, hattached⟩

/-! ### Actors, roles and properties -/

theorem blind_onWorld {ε α : Type} (tell : ε → LoadError) {step : WorldStep ε Stock.catalog α}
    (h : Blind step) : Blind (onWorld tell step : ReplayStep Stock.catalog Desk α) :=
  (h.mapError tell).on fun _ => rfl

theorem Abreast.withActor (h : Abreast frame first second) (typeIndex : Nat)
    (actor : Object Stock.Actor) :
    Abreast frame
      (first.withActor (groupHost frame.title) typeIndex actor first.session.world)
      (second.withActor (groupHost frame.title) typeIndex actor second.session.world) := by
  have hsize : (second.slots.push ⟨⟨⟨second.session.host.objects.nextId⟩, typeIndex, actor, none, none⟩,
      false⟩).size = (first.slots.push ⟨⟨⟨first.session.host.objects.nextId⟩, typeIndex, actor, none, none⟩,
      false⟩).size := by
    rw [Array.size_push, Array.size_push, h.size]
  refine ⟨h.twin.registered typeIndex actor.className, hsize, fun index slot other hslot hother => ?_,
    congrArg (fun registers => { registers with pendingSet := none, parent := none }) h.registers⟩
  change (first.slots.push _)[index]? = some slot at hslot
  change (second.slots.push _)[index]? = some other at hother
  rw [Array.getElem?_push] at hslot hother
  rw [h.size] at hother
  by_cases hindex : index = first.slots.size
  · rw [if_pos hindex, Option.some.injEq] at hslot hother
    subst hslot hother
    refine ⟨⟨?_, rfl, rfl, rfl, rfl⟩, fun _ h => (nomatch h), fun _ h => (nomatch h), rfl⟩
    exact congrArg ObjectId.mk h.twin.nextId
  · rw [if_neg hindex] at hslot hother
    exact h.slot index slot other hslot hother

theorem abreast_createActor (declared typeIndex : Nat) :
    Paired (Abreast frame) (fun _ _ => Abreast frame) (Abreast frame)
      (createActor (.group frame.title declared) (groupHost frame.title) typeIndex)
      (createActor (.group frame.title declared) (groupHost frame.title) typeIndex) := by
  simp only [createActor, refuse_bind]
  apply Paired.get_bind
  intro first second h
  rw [h.size]
  by_cases hfull : (Script.group frame.title declared).declared ≤ first.slots.size
  · rw [if_pos hfull]
    exact .error h
  · rw [if_neg hfull]
    have hactor := (blind_onWorld LoadError.construction (frame.title.blind_newActor typeIndex)).paired
      (R := Abreast frame) first second h
    refine hactor.bind ?_
    rintro actor _ first second ⟨rfl, h⟩
    -- An actor that was built is logged and kept without fail.
    exact .ok (h.withActor typeIndex actor)

theorem outcome_onWorld_error {ε α : Type} {tell : ε → LoadError} {step : WorldStep ε Stock.catalog α}
    {error : ε} (h : step.outcome first.session.world = (.error error, first.session.world)) :
    (onWorld tell step).outcome first = (.error (tell error), first) := by
  rw [onWorld, Step.outcome_on, Step.outcome_mapError, h]
  rfl

theorem Abreast.loadSet (h : Abreast frame first second) (index : Nat) :
    Matched (fun set set' s t => Abreast frame s t ∧ s.session.host.sets.cached? index = some set ∧
        t.session.host.sets.cached? index = some set')
      (Abreast frame) ((onSession ((groupHost frame.title).loadSet index)).outcome first)
      ((onSession ((groupHost frame.title).loadSet index)).outcome second) :=
  Paired.on (h.twin.loadSet index) (fun _ _ _ _ hleft => ⟨h.inSession hleft.1, hleft.2⟩)
    fun _ _ => h.inSession

theorem Abreast.slotAt (h : Abreast frame first second) (index : Nat) :
    Matched (fun slot other s t => s = first ∧ t = second ∧ first.slots[index]? = some slot ∧
        second.slots[index]? = some other ∧
        Counterpart frame.raised first.session.host.sets second.session.host.sets slot other)
      (Abreast frame) ((slotAt index).outcome first) ((slotAt index).outcome second) := by
  rcases h.lookup index with ⟨hnone, hnone'⟩ | ⟨slot, other, hslot, hother, hsame⟩
  · have hrefused (replay : Replay Stock.catalog Desk) (hnone : replay.slots[index]? = none) :
        (Replay.slotAt index).outcome replay =
          (.error (.format (.actorSlot index replay.slots.size)), replay) := by
      rw [Replay.slotAt, Step.outcome_bind_ok (Step.outcome_get _)]
      simp only [hnone]
      rfl
    rw [hrefused first hnone, hrefused second hnone', h.size]
    exact .error h
  · rw [slotAt_eq_ok_iff.mpr ⟨hslot, rfl⟩, slotAt_eq_ok_iff.mpr ⟨hother, rfl⟩]
    exact .ok ⟨rfl, rfl, hslot, hother, hsame⟩

theorem abreast_bindRole (declared typeIndex : Nat) :
    Paired (Abreast frame) (fun _ _ => Abreast frame) (Abreast frame)
      (bindRole (.group frame.title declared) (groupHost frame.title) typeIndex)
      (bindRole (.group frame.title declared) (groupHost frame.title) typeIndex) := by
  apply Paired.get_bind
  intro first second h
  rw [h.roleTarget]
  cases first.roleTarget with
  | error error => exact .error h
  | ok target =>
      obtain ⟨index, setIndex⟩ := target
      refine (h.loadSet setIndex).bind ?_
      rintro set set' _ _ ⟨h, hset, hset'⟩
      refine (h.slotAt index).bind ?_
      rintro slot other s t ⟨rfl, rfl, _, _, hsame⟩
      have hclass : t.session.world.className? set' = s.session.world.className? set := by
        rw [h.twin.kept.className? hset, h.twin.kept'.className? hset']
      dsimp only [Script.group]
      rcases frame.title.outcome_newRole typeIndex with ⟨error, hrole⟩ | ⟨name, hrole⟩
      · rw [Step.outcome_bind_error (outcome_onWorld_error (hrole _ set s.session.world)),
          Step.outcome_bind_error (outcome_onWorld_error (hrole _ set' t.session.world))]
        exact .error h
      · rw [Step.outcome_bind_ok (onWorld_eq_ok_iff.mpr ⟨_, hrole _ set s.session.world, rfl⟩),
          Step.outcome_bind_ok (onWorld_eq_ok_iff.mpr ⟨_, hrole _ set' t.session.world, rfl⟩)]
        refine .ok (h.modify fun found found' hfound hfound' => ?_)
        obtain ⟨⟨hid, htype, hactor, _, _⟩, _, _, hattached⟩ := h.slot _ _ _ hfound hfound'
        refine ⟨⟨hid, htype, hactor, ?_, rfl⟩, ?_, ?_, hattached⟩
        · show some _ = some _
          rw [hclass, hsame.raised.id, hsame.raised.typeIndex]
          rfl
        · rintro _ ⟨⟩
          exact hset
        · rintro _ ⟨⟩
          exact hset'

theorem abreast_assignToActor (name : String) (value : Assignment) :
    Paired (Abreast frame) (fun _ _ => Abreast frame) (Abreast frame)
      (assignToActor name value) (assignToActor name value) := by
  apply Paired.get_bind
  intro first second h
  dsimp only
  rw [Array.back?_eq_getElem?, Array.back?_eq_getElem?, h.size]
  rcases h.lookup (first.slots.size - 1) with ⟨hnone, hnone'⟩ | ⟨slot, other, hslot, hother, hsame⟩
  · rw [hnone, hnone']
    exact .error h
  · rw [hslot, hother]
    dsimp only
    rw [hsame.raised.actor]
    refine ((blind_onWorld _ (World.blind_onJournal _)).paired first second h).bind ?_
    rintro state _ s t ⟨rfl, h⟩
    refine .ok (h.modify fun slot other hslot hother => ?_)
    obtain ⟨⟨hid, htype, hactor, hrole, hindex⟩, hbound, hbound', hattached⟩ := h.slot _ _ _ hslot hother
    exact ⟨⟨hid, htype, rfl, hrole, hindex⟩, hbound, hbound', hattached⟩

theorem abreast_assign (declared : Nat) (value : Assignment) :
    Paired (Abreast frame) (fun _ _ => Abreast frame) (Abreast frame)
      (assign (.group frame.title declared) value) (assign (.group frame.title declared) value) := by
  apply Paired.get_bind
  intro first second h
  rw [h.registers]
  cases first.registers.property with
  | none => exact .error h
  | some name => exact abreast_assignToActor name value first second h

theorem abreast_createSet (host : Host Stock.catalog Desk) (declared typeIndex : Nat) :
    Paired (Abreast frame) (fun _ _ => Abreast frame) (Abreast frame)
      (perform (.group frame.title declared) host (.createSet typeIndex))
      (perform (.group frame.title declared) host (.createSet typeIndex)) := by
  intro first second h
  rcases outcome_createSet (.group frame.title declared) host typeIndex with
    ⟨error, hnew⟩ | ⟨name, _, hnew⟩
  · rw [hnew, hnew]
    exact .error h
  · rw [hnew, hnew]
    exact .ok ⟨h.twin.withFresh name, h.size, h.slot, h.registers⟩

/-- Instructions that hang nothing. -/
theorem abreast_perform (declared : Nat) {instruction : Instruction}
    (hchild : ∀ child, instruction ≠ .childRole child) :
    Paired (Abreast frame) (fun _ _ => Abreast frame) (Abreast frame)
      (perform (.group frame.title declared) (groupHost frame.title) instruction)
      (perform (.group frame.title declared) (groupHost frame.title) instruction) := by
  cases instruction with
  | createActor typeIndex => exact abreast_createActor declared typeIndex
  | bindRole typeIndex => exact abreast_bindRole declared typeIndex
  | childRole child => exact absurd rfl (hchild child)
  | setSet index | parentRole index | setPropertyLength index =>
      simp only [perform]
      exact abreast_setRegisters _
  | setPropertyOffset index =>
      simp only [perform]
      cases (Script.group frame.title declared).propertyName index with
      | error error => exact Paired.throw _ fun _ _ => id
      | ok name => exact abreast_setRegisters _
  | copyProperty data | copyDynamicProperty data | copyMediaRef index =>
      simp only [perform]
      exact abreast_assign declared _
  | copyArrayProperty count data =>
      apply Paired.get_bind
      intro first second h
      rw [h.registers]
      exact abreast_assign declared _ first second h
  | createSet typeIndex => exact abreast_createSet _ declared typeIndex
  | endActorGroup | endSet =>
      simp only [perform]
      exact Paired.pure fun _ _ => id

/-! ### Hanging roles -/

/-- Both replays are in order, and the second is where the first one is. -/
structure Playing (frame : Frame) (firstId secondId : Nat) (first second : Replay Stock.catalog Desk) :
    Prop where
  orderly : Orderly firstId first
  orderly' : Orderly secondId second
  abreast : Abreast frame first second

variable {firstId secondId : Nat}

/-- The role of a slot that is not attached is hung by both. -/
theorem Playing.hang (h : Playing frame firstId secondId first second) {index setIndex : Nat}
    {slot other : Slot Stock.catalog} {role : Role Stock.catalog} {set set' : SetHandle}
    (hslot : first.slots[index]? = some slot) (hother : second.slots[index]? = some other)
    (hfree : slot.attached = false) (hrole : slot.record.role = some role)
    (hbinding : slot.record.binding.map SetBinding.handle = some set)
    (hbinding' : other.record.binding.map SetBinding.handle = some set')
    (hset : first.session.host.sets.cached? setIndex = some set)
    (hset' : second.session.host.sets.cached? setIndex = some set') (parent : Option ObjectId) :
    Matched (fun _ _ => Abreast frame) (Abreast frame)
      ((do
        hang set parent role.actor.id
        setSlot index fun slot => { slot with attached := true } :
          ReplayStep Stock.catalog Desk Unit).outcome first)
      ((do
        hang set' (parent.map (ObjectId.raise frame.raised)) (role.raise frame.raised).actor.id
        setSlot index fun slot => { slot with attached := true } :
          ReplayStep Stock.catalog Desk Unit).outcome second) := by
  have hsame := h.abreast.slot index slot other hslot hother
  have hrole' : other.record.role = some (role.raise frame.raised) := by
    rw [hsame.raised.role, hrole, Option.map_some]
  obtain ⟨world, hworld⟩ := hanging_of_free parent h.orderly.ready h.orderly.fair hslot hfree hrole hbinding
  obtain ⟨world', hworld'⟩ := hanging_of_free (parent.map (ObjectId.raise frame.raised))
    h.orderly'.ready h.orderly'.fair hother (hsame.attached.trans hfree) hrole' hbinding'
  rw [Step.outcome_bind_ok (outcome_hang hworld), Step.outcome_bind_ok (outcome_hang hworld')]
  have htwin := h.abreast.twin.hang hset hset' hworld hworld'
  have hhung : Abreast frame (first.inWorld world) (second.inWorld world') :=
    ⟨htwin, h.abreast.size, h.abreast.slot, h.abreast.registers⟩
  refine .ok (hhung.modify fun found found' hfound hfound' => ?_)
  obtain ⟨hraised, hbound, hbound', _⟩ := hhung.slot _ _ _ hfound hfound'
  exact ⟨hraised, hbound, hbound', rfl⟩

/-- Two actors share a set in one run as soon as they do in the other: sets are told apart by indices. -/
theorem Abreast.shared_iff (h : Abreast frame first second) {upper upper' lower lower' : Slot Stock.catalog}
    (hupper : Counterpart frame.raised first.session.host.sets second.session.host.sets upper upper')
    (hlower : Counterpart frame.raised first.session.host.sets second.session.host.sets lower lower')
    {binding binding' : SetBinding} (hbinding : upper.record.binding = some binding)
    (hbinding' : upper'.record.binding = some binding') :
    lower'.record.binding.map SetBinding.handle = some binding'.handle ↔
      lower.record.binding.map SetBinding.handle = some binding.handle := by
  have hindex : binding'.index = binding.index := by
    simpa only [hbinding, hbinding', Option.map_some, Option.some.injEq] using hupper.raised.index
  rw [hlower.bound.handle_iff h.twin.kept.apart (hupper.bound binding hbinding),
    hlower.bound'.handle_iff h.twin.kept'.apart (hupper.bound' binding' hbinding'), hlower.raised.index,
    hindex]

theorem Playing.attachChild (h : Playing frame firstId secondId first second) (parent child : Nat) :
    Matched (fun _ _ => Abreast frame) (Abreast frame) ((attachChild parent child).outcome first)
      ((attachChild parent child).outcome second) := by
  simp only [Replay.attachChild, refuse_bind]
  refine (h.abreast.slotAt parent).bind ?_
  rintro upper upper' s t ⟨rfl, rfl, hupper, hupper', hsameUpper⟩
  refine (h.abreast.slotAt child).bind ?_
  rintro lower lower' s t ⟨rfl, rfl, hlower, hlower', hsame⟩
  rw [hsame.attached]
  by_cases hself : parent = child
  · rw [if_pos hself, if_pos hself]
    exact .error h.abreast
  rw [if_neg hself, if_neg hself]
  by_cases hfree : lower.attached = true
  · rw [if_pos hfree, if_pos hfree]
    exact .error h.abreast
  rw [if_neg hfree, if_neg hfree]
  rcases hsameUpper.raised.binding_cases with
    ⟨hbinding, hbinding'⟩ | ⟨binding, binding', hbinding, hbinding', hindex⟩
  · rw [hbinding, hbinding']
    exact .error h.abreast
  have hiff := h.abreast.shared_iff hsameUpper hsame hbinding hbinding'
  rw [hbinding, hbinding']
  dsimp only
  by_cases hshared : lower.record.binding.map SetBinding.handle = some binding.handle
  · have hshared' := hiff.mpr hshared
    rw [if_neg (not_not_intro hshared), if_neg (not_not_intro hshared')]
    -- What is bound has a role, in both runs.
    obtain ⟨upperRole, hupperRole⟩ :=
      role_of_binding h.orderly.ready hupper (by rw [hbinding, Option.map_some])
    obtain ⟨lowerRole, hlowerRole⟩ := role_of_binding h.orderly.ready hlower hshared
    have hupperRole' : upper'.record.role = some (upperRole.raise frame.raised) := by
      rw [hsameUpper.raised.role, hupperRole, Option.map_some]
    have hlowerRole' : lower'.record.role = some (lowerRole.raise frame.raised) := by
      rw [hsame.raised.role, hlowerRole, Option.map_some]
    rw [roleOf_eq hupperRole, roleOf_eq hlowerRole, roleOf_eq hupperRole', roleOf_eq hlowerRole',
      pure_bind, pure_bind, pure_bind, pure_bind]
    exact h.hang hlower hlower' (Bool.eq_false_iff.mpr hfree) hlowerRole hshared hshared'
      (hsameUpper.bound binding hbinding) (hindex ▸ hsameUpper.bound' binding' hbinding')
      (some upperRole.actor.id)
  · have hshared' := mt hiff.mp hshared
    rw [if_pos hshared, if_pos hshared']
    exact .error h.abreast

theorem Playing.attachRest (h : Playing frame firstId secondId first second) (index : Nat) :
    Matched (fun _ _ => Abreast frame) (Abreast frame) ((attachRest index).outcome first)
      ((attachRest index).outcome second) := by
  rw [Replay.attachRest, Step.outcome_bind_ok (Step.outcome_get _),
    Step.outcome_bind_ok (Step.outcome_get _)]
  rcases h.abreast.lookup index with ⟨hnone, hnone'⟩ | ⟨slot, other, hslot, hother, hsame⟩
  · rw [hnone, hnone']
    exact .ok h.abreast
  rw [hslot, hother]
  obtain ⟨hraised, hbound, hbound', hattached⟩ := hsame
  have hcases := hraised.binding_cases
  obtain ⟨⟨id, typeIndex, actor, role, binding⟩, attached⟩ := slot
  obtain ⟨⟨id', typeIndex', actor', role', binding'⟩, _⟩ := other
  obtain rfl : attached = _ := hattached.symm
  obtain rfl : role' = role.map (Role.raise frame.raised) := hraised.role
  cases role with
  | none => exact .ok h.abreast
  | some role =>
      rcases hcases with ⟨rfl, rfl⟩ | ⟨binding, binding', rfl, rfl, hindex⟩
      · exact .ok h.abreast
      cases attached with
      | true => exact .ok h.abreast
      | false =>
          exact h.hang hslot hother rfl rfl rfl rfl (hbound binding rfl) (hindex ▸ hbound' binding' rfl) none

/-- An instruction that was executed by one replay was executed by both. -/
theorem Playing.execute (declared : Nat) (instruction : Instruction) :
    Paired (Playing frame firstId secondId) (fun _ _ => Playing frame firstId secondId)
      (fun first second => Twin frame first.session second.session)
      (execute (.group frame.title declared) (groupHost frame.title) instruction)
      (execute (.group frame.title declared) (groupHost frame.title) instruction) := by
  intro first second h
  have hends : Matched (fun _ _ => Abreast frame) (Abreast frame)
      ((Replay.execute (.group frame.title declared) (groupHost frame.title) instruction).outcome first)
      ((Replay.execute (.group frame.title declared) (groupHost frame.title) instruction).outcome second) := by
    apply matched_execute (h.abreast.permit _) h.abreast
    intro _
    by_cases hchild : ∃ child, instruction = .childRole child
    · obtain ⟨child, rfl⟩ := hchild
      rw [perform, Step.outcome_bind_ok (Step.outcome_get _), Step.outcome_bind_ok (Step.outcome_get _),
        h.abreast.registers]
      cases first.registers.parent with
      | none => exact .error h.abreast
      | some parent => exact (h.attachChild parent child).bind fun _ _ => abreast_setRegisters _
    · exact abreast_perform declared (fun child heq => hchild ⟨child, heq⟩) first second h.abreast
  rcases hends.ends with ⟨_, _, s, t, hone, hother, habreast⟩ | ⟨error, s, t, hone, hother, habreast⟩
  · rw [hone, hother]
    exact .ok ⟨h.orderly.execute hone, h.orderly'.execute hother, habreast⟩
  · rw [hone, hother]
    exact .error habreast.twin

theorem Playing.lastCall :
    Paired (Playing frame firstId secondId) (fun _ _ => Playing frame firstId secondId)
      (fun first second => Twin frame first.session second.session) lastCall lastCall := by
  have hrest (index : Nat) : Paired (Playing frame firstId secondId)
      (fun _ _ => Playing frame firstId secondId)
      (fun first second => Twin frame first.session second.session)
      (Replay.attachRest index) (Replay.attachRest index) := by
    intro first second h
    rcases (h.attachRest index).ends with
      ⟨_, _, s, t, hone, hother, habreast⟩ | ⟨error, s, t, hone, hother, habreast⟩
    · rw [hone, hother]
      exact .ok ⟨h.orderly.attachRest hone, h.orderly'.attachRest hother, habreast⟩
    · rw [hone, hother]
      exact .error habreast.twin
  apply Paired.get_bind
  intro first second h
  rw [h.abreast.size]
  exact Paired.forEach (fun index => hrest index) first second h

end Replay

namespace Loader

open Replay (Playing)

variable {frame : Frame} {first second : Loader Stock.catalog}

/-- Both replay the same group, or fail for the same cause. -/
theorem Twin.replay (h : Twin frame first second) (hsound : first.Sound) (hsound' : second.Sound)
    (declared : Nat) (code : Cursor) :
    Matched (fun one other left left' =>
        Replay.Abreast frame one other ∧ left = one.session ∧ left' = other.session)
      (Twin frame)
      ((replay (.group frame.title declared) (groupHost frame.title) code).outcome first)
      ((replay (.group frame.title declared) (groupHost frame.title) code).outcome second) := by
  have hstart : Playing frame first.host.objects.nextId second.host.objects.nextId
      (.start first) (.start second) := by
    refine ⟨Replay.orderly_start hsound, Replay.orderly_start hsound', h, rfl, ?_, rfl⟩
    intro index slot other hslot
    cases hslot
  have hreplays := Replay.matched_replay
    (fun _ _ h => Replay.fetch_congr h.abreast.permit (congrArg Registers.length h.abreast.registers))
    (Playing.execute declared) (fun _ _ h => h.abreast.twin) Playing.lastCall code hstart
  refine hreplays.mono (fun one other left left' hdone => ⟨hdone.1.abreast, hdone.2⟩) ?_
  rintro _ _ ⟨one, other, htwin, rfl, rfl⟩
  exact htwin

end Loader

end Playprint
