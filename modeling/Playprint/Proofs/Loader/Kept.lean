import Playprint.Proofs.Loader.Alone

/-!
The set table of a loader. A slot that was filled keeps its set. The set was built by the chunk of the slot
and initialised once, and beside the roles that are hung on it nothing about it ever changes.
-/

namespace Playprint

open Container (Agree)

/-- The entry of the manifest that a slot was made from. -/
def SetSlot.entry (slot : SetSlot) : SetEntry := ⟨slot.name, slot.chunk⟩

namespace SetTable

variable {table before mid after : SetTable} {index : Nat} {set : SetHandle}

/-- Every slot that was filled has kept its set. -/
def Grown (before after : SetTable) : Prop :=
  ∀ index set, before.cached? index = some set → after.cached? index = some set

theorem Grown.refl (table : SetTable) : Grown table table := fun _ _ h => h

theorem Grown.trans (hfirst : Grown before mid) (hsecond : Grown mid after) : Grown before after :=
  fun index set h => hsecond index set (hfirst index set h)

theorem cached?_fill (hroom : index < table.size) (other : Nat) :
    (table.fill index set).cached? other = if other = index then some set else table.cached? other := by
  by_cases hother : other = index
  · subst hother
    have hslot : table.slots[other]? = some _ := List.getElem?_eq_getElem hroom
    simp only [cached?, fill, List.getElem?_modify, hslot, if_true]
    rfl
  · simp only [cached?, fill, List.getElem?_modify, if_neg (Ne.symm hother), if_neg hother, id_map']

theorem grown_fill (hroom : index < table.size) (hfree : table.cached? index = none) :
    Grown table (table.fill index set) := by
  intro other found hfound
  rw [cached?_fill hroom]
  by_cases hother : other = index
  · subst hother
    cases hfree.symm.trans hfound
  · rwa [if_neg hother]

theorem entries_fill : (table.fill index set).slots.map SetSlot.entry = table.slots.map SetSlot.entry := by
  apply List.ext_getElem?
  intro other
  simp only [fill, List.getElem?_map, List.getElem?_modify, Option.map_eq_map, Option.map_map]
  congr 1
  funext slot
  by_cases hother : index = other
  · simp only [if_pos hother, Function.comp_apply]
    rfl
  · simp only [if_neg hother, Function.comp_apply]

end SetTable

namespace Loader

variable {title : Title Stock.catalog} {container : Container} {loader : Loader Stock.catalog}
  {index : Nat} {set : SetHandle}

/-- The roles on the set under an index of the table. -/
def attachmentsAt (loader : Loader Stock.catalog) (index : Nat) : List Attachment :=
  match loader.host.sets.cached? index with
  | some set => loader.world.attachments set
  | none => []

theorem attachmentsAt_of_some (h : loader.host.sets.cached? index = some set) :
    loader.attachmentsAt index = loader.world.attachments set := by
  rw [attachmentsAt, h]

theorem attachmentsAt_of_none (h : loader.host.sets.cached? index = none) :
    loader.attachmentsAt index = [] := by
  rw [attachmentsAt, h]

/-! ### Sets in their slots -/

/-- The set that the manifest has under an index, as its chunk builds it in an empty world. -/
def ownSetAt (title : Title Stock.catalog) (container : Container) (index : Nat) :
    Except LoadError (SetHandle × World Stock.catalog) :=
  match title.manifest.sets[index]? with
  | none => .error (.format (.tableIndex .set index title.manifest.sets.length))
  | some entry => ownSet title container index entry.chunk

/-- The set that the chunk of an index builds, as it is when its byte code has ended. -/
def Own (title : Title Stock.catalog) (container : Container) (index : Nat)
    (own : Object Stock.Stage) : Prop :=
  ∃ set world, ownSetAt title container index = .ok (set, world) ∧ world.stage? set = some own

/-- A set of the class of an index that was initialised once and has the properties its chunk gave it. -/
structure Finished (title : Title Stock.catalog) (container : Container) (index : Nat)
    (stage : Object Stock.Stage) : Prop where
  className : title.manifest.setClasses[index]?.map ClassEntry.name = some stage.className
  initCount : stage.state.initCount = 1
  own : ∃ own, Own title container index own ∧ own.state.properties = stage.state.properties

theorem Own.unique {own other : Object Stock.Stage} (h : Own title container index own)
    (hother : Own title container index other) : own = other := by
  obtain ⟨set, world, hset, hown⟩ := h
  obtain ⟨_, _, hset', hown'⟩ := hother
  cases hset.symm.trans hset'
  exact Option.some.inj (hown.symm.trans hown')

/-- The same up to the roles on them. -/
def Alike (stage other : Object Stock.Stage) : Prop :=
  other.className = stage.className ∧ other.state.properties = stage.state.properties ∧
    other.state.initCount = stage.state.initCount

theorem Finished.alike {stage other : Object Stock.Stage} (h : Finished title container index stage)
    (halike : Alike stage other) : Finished title container index other := by
  obtain ⟨hclass, hproperties, hcount⟩ := halike
  refine ⟨hclass ▸ h.className, hcount ▸ h.initCount, ?_⟩
  rw [hproperties]
  exact h.own

/-- Sets of one index have the same class and the same properties. -/
theorem Finished.same {stage other : Object Stock.Stage} (h : Finished title container index stage)
    (hother : Finished title container index other) : Alike stage other := by
  obtain ⟨own, hown, hproperties⟩ := h.own
  obtain ⟨own', hown', hproperties'⟩ := hother.own
  obtain rfl := hown.unique hown'
  exact ⟨Option.some.inj (hother.className.symm.trans h.className), hproperties'.symm.trans hproperties,
    hother.initCount.trans h.initCount.symm⟩

/-- What holds of the tables of a loader over a container. -/
structure Kept (title : Title Stock.catalog) (container : Container) (loader : Loader Stock.catalog) :
    Prop where
  agree : Agree container loader.host.container
  entries : loader.host.sets.slots.map SetSlot.entry = title.manifest.sets
  apart : ∀ i j set, loader.host.sets.cached? i = some set → loader.host.sets.cached? j = some set → i = j
  finished : ∀ i set, loader.host.sets.cached? i = some set →
    ∃ stage, loader.world.stage? set = some stage ∧ Finished title container i stage
  counted : loader.host.objects.nextId = loader.host.objects.objects.size

theorem Kept.withContainer (h : Kept title container loader) {other : Container}
    (hother : Agree loader.host.container other) : Kept title container (loader.withContainer other) :=
  ⟨h.agree.trans hother, h.entries, h.apart, h.finished, h.counted⟩

/-- Sets may be added, and roles may be hung. -/
theorem Kept.inWorld (h : Kept title container loader) {world : World Stock.catalog}
    (hworld : ∀ set stage, loader.world.stage? set = some stage →
      ∃ later, world.stage? set = some later ∧ Alike stage later) :
    Kept title container { loader with world } := by
  refine ⟨h.agree, h.entries, h.apart, fun i set hset => ?_, h.counted⟩
  obtain ⟨stage, hstage, hfinished⟩ := h.finished i set hset
  obtain ⟨later, hlater, halike⟩ := hworld set stage hstage
  exact ⟨later, hlater, hfinished.alike halike⟩

theorem Kept.lt (h : Kept title container loader) (hset : loader.host.sets.cached? index = some set) :
    set.index < loader.world.stages.size := by
  obtain ⟨stage, hstage, _⟩ := h.finished index set hset
  exact (Array.getElem?_eq_some_iff.mp hstage).1

theorem Kept.slots_getElem? (h : Kept title container loader) (index : Nat) :
    loader.host.sets.slots[index]?.map SetSlot.entry = title.manifest.sets[index]? := by
  rw [← h.entries, List.getElem?_map]

theorem Kept.size (h : Kept title container loader) :
    loader.host.sets.size = title.manifest.sets.length := by
  rw [← h.entries, List.length_map, SetTable.size]

theorem Kept.className? (h : Kept title container loader)
    (hset : loader.host.sets.cached? index = some set) :
    loader.world.className? set = title.manifest.setClasses[index]?.map ClassEntry.name := by
  obtain ⟨stage, hstage, hfinished⟩ := h.finished index set hset
  rw [World.className?, hstage, hfinished.className, Option.map_some]

theorem Kept.own_of_cached (h : Kept title container loader)
    (hset : loader.host.sets.cached? index = some set) :
    ∃ own, ownSetAt title container index = .ok own := by
  obtain ⟨_, _, hfinished⟩ := h.finished index set hset
  obtain ⟨_, ⟨own, world, hown, _⟩, _⟩ := hfinished.own
  exact ⟨(own, world), hown⟩

/-! ### Loading sets -/

/-- A set that is not in the table yet, as its own chunk builds it. -/
structure Buildable (title : Title Stock.catalog) (container : Container) (loader : Loader Stock.catalog)
    (index : Nat) (set : SetHandle) (world : World Stock.catalog) (own : Object Stock.Stage) : Prop where
  built : ownSetAt title container index = .ok (set, world)
  free : loader.host.sets.cached? index = none
  room : index < loader.host.sets.size
  stage : world.stage? set = some own
  newborn : Replay.Newborn title index own

/-- The loader after it has built a set and filled its slot. -/
def filled (index : Nat) (set : SetHandle) (world : World Stock.catalog) (own : Object Stock.Stage)
    (loader : Loader Stock.catalog) : Loader Stock.catalog :=
  loader.withSet index (set.behind loader.world.stages.size) (world.replaced set (initialised own) ())

variable {world : World Stock.catalog} {own : Object Stock.Stage}

theorem stage?_filled_of_lt {other : SetHandle} (h : other.index < loader.world.stages.size) :
    (loader.filled index set world own).world.stage? other = loader.world.stage? other :=
  World.stage?_behind_of_lt h

theorem Buildable.stage?_filled (h : Buildable title container loader index set world own) :
    (loader.filled index set world own).world.stage? (set.behind loader.world.stages.size) =
      some (initialised own) :=
  World.stage?_behind.trans ((World.stage?_replaced h.stage set).trans (if_pos rfl))

theorem Buildable.cached?_filled (h : Buildable title container loader index set world own)
    (other : Nat) :
    (loader.filled index set world own).host.sets.cached? other =
      if other = index then some (set.behind loader.world.stages.size)
      else loader.host.sets.cached? other :=
  SetTable.cached?_fill h.room other

theorem Buildable.grown (h : Buildable title container loader index set world own) :
    loader.host.sets.Grown (loader.filled index set world own).host.sets :=
  SetTable.grown_fill h.room h.free

/-- The roles under every index are as before: the set that was filled in has none. -/
theorem Buildable.attachmentsAt (h : Buildable title container loader index set world own)
    (hkept : Kept title container loader) :
    (loader.filled index set world own).attachmentsAt = loader.attachmentsAt := by
  funext other
  have hcached := h.cached?_filled other
  by_cases hother : other = index
  · subst hother
    rw [if_pos rfl] at hcached
    rw [attachmentsAt_of_none h.free, attachmentsAt_of_some hcached,
      Stock.attachments_of_stage? h.stage?_filled]
    exact h.newborn.attachments
  · rw [if_neg hother] at hcached
    cases hset : loader.host.sets.cached? other with
    | none => rw [attachmentsAt_of_none hset, attachmentsAt_of_none (hcached.trans hset)]
    | some found =>
        rw [attachmentsAt_of_some hset, attachmentsAt_of_some (hcached.trans hset), World.attachments,
          World.attachments, stage?_filled_of_lt (hkept.lt hset)]

theorem Kept.filled (hkept : Kept title container loader)
    (h : Buildable title container loader index set world own) :
    Kept title container (loader.filled index set world own) := by
  refine ⟨hkept.agree, SetTable.entries_fill.trans hkept.entries, fun i j found hi hj => ?apart,
    fun i found hfound => ?finished, hkept.counted⟩
  case apart =>
    -- Sets that were in the table before stand before the new one.
    have hbefore (k : Nat) (hk : loader.host.sets.cached? k = some found) :
        found ≠ set.behind loader.world.stages.size := by
      rintro rfl
      have hlt := hkept.lt hk
      simp only [SetHandle.behind] at hlt
      omega
    rw [h.cached?_filled] at hi hj
    split at hi <;> rename_i hi' <;> split at hj <;> rename_i hj'
    · exact hi'.trans hj'.symm
    · exact absurd (Option.some.inj hi).symm (hbefore j hj)
    · exact absurd (Option.some.inj hj).symm (hbefore i hi)
    · exact hkept.apart i j found hi hj
  case finished =>
    rw [h.cached?_filled] at hfound
    split at hfound
    · rename_i hi
      subst hi
      cases hfound
      refine ⟨initialised own, h.stage?_filled, h.newborn.className, ?_, own,
        ⟨set, world, h.built, h.stage⟩, rfl⟩
      show own.state.initCount + 1 = 1
      rw [h.newborn.initCount]
    · rw [stage?_filled_of_lt (hkept.lt hfound)]
      exact hkept.finished i found hfound

/-- What loading a set comes to, with the state that it leaves. -/
inductive SetLoad (title : Title Stock.catalog) (container : Container) (loader : Loader Stock.catalog)
    (index : Nat) : Except LoadError SetHandle × Loader Stock.catalog → Prop
  | cached {set : SetHandle} (h : loader.host.sets.cached? index = some set) :
      SetLoad title container loader index (.ok set, loader)
  | failed {error : LoadError} (hfree : loader.host.sets.cached? index = none)
      (hown : ownSetAt title container index = .error error) :
      SetLoad title container loader index (.error error, loader)
  | built {set : SetHandle} {world : World Stock.catalog} {own : Object Stock.Stage}
      (h : Buildable title container loader index set world own) :
      SetLoad title container loader index
        (.ok (set.behind loader.world.stages.size), loader.filled index set world own)

theorem Kept.setLoad (hkept : Kept title container loader) (index : Nat) :
    SetLoad title container loader index ((loadSet title index).outcome loader) := by
  have hentry := hkept.slots_getElem? index
  rw [loadSet, Step.outcome_bind_ok (Step.outcome_get _)]
  cases hslot : loader.host.sets.slots[index]? with
  | none =>
      rw [hslot] at hentry
      have hfree : loader.host.sets.cached? index = none := by rw [SetTable.cached?, hslot, Option.bind_none]
      have hown : ownSetAt title container index =
          .error (.format (.tableIndex .set index title.manifest.sets.length)) := by
        rw [ownSetAt, ← hentry, Option.map_none]
      simp only [SetTable.slot, hslot, SetTable.outOfRange, hkept.size]
      exact .failed hfree hown
  | some slot =>
      rw [hslot] at hentry
      have hroom : index < loader.host.sets.size := (List.getElem?_eq_some_iff.mp hslot).1
      have hown : ownSetAt title container index = ownSet title container index slot.chunk := by
        rw [ownSetAt, ← hentry, Option.map_some]
        rfl
      simp only [SetTable.slot, hslot]
      cases hcached : loader.host.sets.cached? index with
      | some set => exact .cached hcached
      | none =>
          rcases buildSet_own hkept.agree hroom title slot.chunk with
            ⟨error, hset, hbuild⟩ | ⟨set, world, own, hset, hstage, hnewborn, hbuild⟩
          · rw [hbuild]
            exact .failed hcached (hown.trans hset)
          · rw [hbuild]
            exact .built ⟨hown.trans hset, hcached, hroom, hstage, hnewborn⟩

/-- A set that is in the table is answered at once. -/
theorem Kept.outcome_loadSet (hkept : Kept title container loader)
    (hset : loader.host.sets.cached? index = some set) :
    (loadSet title index).outcome loader = (.ok set, loader) := by
  have hload := hkept.setLoad index
  generalize (loadSet title index).outcome loader = result at hload ⊢
  cases hload with
  | cached hset' =>
      cases hset.symm.trans hset'
      rfl
  | failed hfree _ => cases hfree.symm.trans hset
  | built h => cases h.free.symm.trans hset

end Loader

end Playprint
