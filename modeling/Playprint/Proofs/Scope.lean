import Playprint.Scope

/-!
Scopes that are left in another order than they were entered. Scopes of one kind are left in reverse order, but
those of sets and of scenes have nothing to do with each other. A guard knows nothing but what it displaced, so
the guards that are alive are looked at as two stacks, one of each kind: what is around is what the guard on top
put there, what this guard displaced is what the next one put there, and so on down to what was around at first
(`Stacked`). Main statement: `scopes_restore`.
-/

namespace Playprint

variable {σ κ α : Type}

/-- What a scope is entered with. -/
inductive Entrance (σ κ : Type)
  | set (value : Option σ)
  | scene (value : Option κ)

/-- Enters the scope of a set or of a scene. -/
def Surroundings.enter (around : Surroundings σ κ) : Entrance σ κ → Scope σ κ × Surroundings σ κ
  | .set value => around.enterSet value
  | .scene value => around.enterScene value

/-- A guard that is alive: what its scope was entered with, and the scope, which is left when it is dropped. -/
structure Guard (σ κ : Type) where
  entrance : Entrance σ κ
  scope : Scope σ κ

namespace Guard

/-- The set that the guard put there, if it is the guard of a set. -/
def set? (guard : Guard σ κ) : Option (Option σ) :=
  match guard.entrance with
  | .set value => some value
  | .scene _ => none

/-- The scene that the guard put there, if it is the guard of a scene. -/
def scene? (guard : Guard σ κ) : Option (Option κ) :=
  match guard.entrance with
  | .set _ => none
  | .scene value => some value

/-- Both guards are of sets, or both of scenes. -/
def sameKind (first second : Guard σ κ) : Bool :=
  first.set?.isSome == second.set?.isSome

end Guard

/-- What is done to scopes. -/
inductive Move (σ κ : Type)
  | enter (entrance : Entrance σ κ)
  /-- Drops a guard that is alive, the newest one being at place zero. -/
  | drop (place : Nat)

/-- Scopes that were entered, around whatever comes next. -/
structure Nest (σ κ : Type) where
  around : Surroundings σ κ
  /-- The guards that are alive, the newest one first. -/
  guards : List (Guard σ κ)

namespace Nest

/-- Nothing was entered yet. -/
def start (initial : Surroundings σ κ) : Nest σ κ := ⟨initial, []⟩

/-- The nest after a move. A guard is dropped only if it is alive and no newer guard of its kind is. -/
def move (nest : Nest σ κ) : Move σ κ → Option (Nest σ κ)
  | .enter entrance =>
    let (scope, around) := nest.around.enter entrance
    some ⟨around, ⟨entrance, scope⟩ :: nest.guards⟩
  | .drop place =>
    match nest.guards[place]? with
    | none => none
    | some guard =>
      if (nest.guards.take place).any (·.sameKind guard) then none
      else some ⟨nest.around.leave guard.scope, nest.guards.eraseIdx place⟩

/-- The nest after several moves. -/
def run (nest : Nest σ κ) (moves : List (Move σ κ)) : Option (Nest σ κ) :=
  moves.foldlM move nest

end Nest

/-! ### Guards of one kind -/

/-- Guards by what they put there and what they displaced, the newest one first: the first put there what is there
now, and each one displaced what the next one had put there, the last one what was there at first. -/
def Stacked (initial : Option α) : Option α → List (Option α × Option α) → Prop
  | current, [] => current = initial
  | current, (given, displaced) :: older => current = given ∧ Stacked initial displaced older

theorem Stacked.current {initial current : Option α} {pairs : List (Option α × Option α)}
    (h : Stacked initial current pairs) : current = (pairs.head?.map Prod.fst).getD initial := by
  cases pairs with
  | nil => exact h
  | cons pair older => exact h.1

namespace Guard

/-- What the guard of a set put there and what it displaced. -/
def setPair? : Guard σ κ → Option (Option σ × Option σ)
  | ⟨.set given, .set displaced⟩ => some (given, displaced)
  | _ => none

/-- What the guard of a scene put there and what it displaced. -/
def scenePair? : Guard σ κ → Option (Option κ × Option κ)
  | ⟨.scene given, .scene displaced⟩ => some (given, displaced)
  | _ => none

/-- The guard leaves what it entered: a set, or a scene. -/
inductive Matched : Guard σ κ → Prop
  | set (given displaced : Option σ) : Matched ⟨.set given, .set displaced⟩
  | scene (given displaced : Option κ) : Matched ⟨.scene given, .scene displaced⟩

theorem Matched.set?_eq {guard : Guard σ κ} (h : guard.Matched) : guard.set? = guard.setPair?.map Prod.fst := by
  cases h <;> rfl

theorem Matched.scene?_eq {guard : Guard σ κ} (h : guard.Matched) : guard.scene? = guard.scenePair?.map Prod.fst := by
  cases h <;> rfl

/-- What the innermost guard of one kind put there is on top of the stack of that kind. -/
theorem findSome?_eq_head? {value? : Guard σ κ → Option α} {pair? : Guard σ κ → Option (α × α)}
    {guards : List (Guard σ κ)} (h : ∀ guard ∈ guards, value? guard = (pair? guard).map Prod.fst) :
    guards.findSome? value? = (guards.filterMap pair?).head?.map Prod.fst := by
  induction guards with
  | nil => rfl
  | cons guard older ih =>
    obtain ⟨hguard, holder⟩ := List.forall_mem_cons.mp h
    rw [List.findSome?_cons, List.filterMap_cons, hguard, ih holder]
    cases pair? guard <;> rfl

end Guard

namespace Nest

/-- All guards leave what they entered, and those of each kind are stacked. -/
structure Sound (initial : Surroundings σ κ) (nest : Nest σ κ) : Prop where
  matched : ∀ guard ∈ nest.guards, guard.Matched
  sets : Stacked initial.set nest.around.set (nest.guards.filterMap Guard.setPair?)
  scenes : Stacked initial.scene nest.around.scene (nest.guards.filterMap Guard.scenePair?)

variable {initial : Surroundings σ κ} {nest next last : Nest σ κ} {newer older : List (Guard σ κ)}
  {guard : Guard σ κ}

theorem sound_start (initial : Surroundings σ κ) : (start initial).Sound initial :=
  ⟨fun _ hguard => absurd hguard List.not_mem_nil, rfl, rfl⟩

theorem Sound.enter (h : nest.Sound initial) (entrance : Entrance σ κ) :
    Sound initial ⟨(nest.around.enter entrance).2, ⟨entrance, (nest.around.enter entrance).1⟩ :: nest.guards⟩ := by
  cases entrance with
  | set value => exact ⟨List.forall_mem_cons.mpr ⟨.set _ _, h.matched⟩, ⟨rfl, h.sets⟩, h.scenes⟩
  | scene value => exact ⟨List.forall_mem_cons.mpr ⟨.scene _ _, h.matched⟩, h.sets, ⟨rfl, h.scenes⟩⟩

/-- The guard that is dropped is on top of the stack of its kind, and not in the other one. -/
theorem Sound.drop {around : Surroundings σ κ} (h : Sound initial ⟨around, newer ++ guard :: older⟩)
    (hnewer : ∀ other ∈ newer, ¬other.sameKind guard) :
    Sound initial ⟨around.leave guard.scope, newer ++ older⟩ := by
  have hmatched : ∀ other ∈ newer ++ older, other.Matched := fun other hother =>
    h.matched other (List.mem_append.mpr ((List.mem_append.mp hother).imp id (List.mem_cons_of_mem guard)))
  have hsets := h.sets
  have hscenes := h.scenes
  simp only [List.filterMap_append, List.filterMap_cons] at hsets hscenes
  cases h.matched guard (List.mem_append_right newer List.mem_cons_self) with
  | set given displaced =>
      -- All newer guards are of scenes, so what this one displaced is what the next set guard put there.
      have hnone : newer.filterMap Guard.setPair? = [] := by
        rw [List.filterMap_eq_nil_iff]
        intro other hother
        have hkind := hnewer other hother
        cases h.matched other (List.mem_append_left _ hother) with
        | set => exact absurd rfl hkind
        | scene => rfl
      rw [hnone] at hsets
      refine ⟨hmatched, ?_, ?_⟩
      · rw [List.filterMap_append, hnone]
        exact hsets.2
      · rw [List.filterMap_append]
        exact hscenes
  | scene given displaced =>
      have hnone : newer.filterMap Guard.scenePair? = [] := by
        rw [List.filterMap_eq_nil_iff]
        intro other hother
        have hkind := hnewer other hother
        cases h.matched other (List.mem_append_left _ hother) with
        | set => rfl
        | scene => exact absurd rfl hkind
      rw [hnone] at hscenes
      refine ⟨hmatched, ?_, ?_⟩
      · rw [List.filterMap_append]
        exact hsets
      · rw [List.filterMap_append, hnone]
        exact hscenes.2

/-- The guards that are alive when one of them is dropped: only the older ones may be of its kind. -/
theorem move_drop_cases {place : Nat} (hmove : nest.move (.drop place) = some next) :
    ∃ newer guard older, nest.guards = newer ++ guard :: older ∧ (∀ other ∈ newer, ¬other.sameKind guard) ∧
      next = ⟨nest.around.leave guard.scope, newer ++ older⟩ := by
  simp only [Nest.move] at hmove
  split at hmove
  · cases hmove
  · next guard hguard =>
    split at hmove
    · cases hmove
    · next hnewer =>
      obtain ⟨hplace, rfl⟩ := List.getElem?_eq_some_iff.mp hguard
      refine ⟨nest.guards.take place, nest.guards[place], nest.guards.drop (place + 1), ?_, ?_, ?_⟩
      · rw [← List.drop_eq_getElem_cons hplace, List.take_append_drop]
      · intro other hother hkind
        exact hnewer (List.any_eq_true.mpr ⟨other, hother, hkind⟩)
      · rw [← List.eraseIdx_eq_take_drop_succ]
        exact (Option.some.inj hmove).symm

theorem Sound.move {step : Move σ κ} (h : nest.Sound initial) (hmove : nest.move step = some next) :
    next.Sound initial := by
  cases step with
  | enter entrance =>
    cases hmove
    exact h.enter entrance
  | drop place =>
    obtain ⟨newer, guard, older, hguards, hnewer, rfl⟩ := move_drop_cases hmove
    have hsplit : nest = ⟨nest.around, newer ++ guard :: older⟩ := by rw [← hguards]
    rw [hsplit] at h
    exact h.drop hnewer

theorem Sound.run {moves : List (Move σ κ)} (h : nest.Sound initial) (hrun : nest.run moves = some last) :
    last.Sound initial := by
  induction moves generalizing nest with
  | nil =>
    cases hrun
    exact h
  | cons step moves ih =>
    rw [Nest.run, List.foldlM_cons, Option.bind_eq_bind, Option.bind_eq_some_iff] at hrun
    obtain ⟨next, hmove, hrest⟩ := hrun
    exact ih (h.move hmove) hrest

/-- All guards can be dropped, the newest one first. -/
theorem exists_run_drops (around : Surroundings σ κ) (guards : List (Guard σ κ)) :
    ∃ left, (⟨around, guards⟩ : Nest σ κ).run (List.replicate guards.length (.drop 0)) = some ⟨left, []⟩ := by
  induction guards generalizing around with
  | nil => exact ⟨around, rfl⟩
  | cons guard older ih => exact ih (around.leave guard.scope)

/-- What is around, by the guards that are alive. -/
structure Restores (initial : Surroundings σ κ) (nest : Nest σ κ) : Prop where
  /-- The set is the one that the innermost guard of a set put there. -/
  set : nest.around.set = (nest.guards.findSome? Guard.set?).getD initial.set
  /-- The scene is the one that the innermost guard of a scene put there. -/
  scene : nest.around.scene = (nest.guards.findSome? Guard.scene?).getD initial.scene
  /-- With no guard alive, all is as it was at first. -/
  unguarded : nest.guards = [] → nest.around = initial
  /-- Dropping all guards, the newest one first, leaves all as it was at first. -/
  unwound : nest.run (List.replicate nest.guards.length (.drop 0)) = some (start initial)

theorem Sound.unguarded {around : Surroundings σ κ} (h : Sound initial ⟨around, []⟩) : around = initial := by
  obtain ⟨set, scene⟩ := around
  obtain ⟨rfl, rfl⟩ : set = initial.set ∧ scene = initial.scene := ⟨h.sets, h.scenes⟩
  rfl

theorem Sound.restores (h : nest.Sound initial) : nest.Restores initial where
  set := by
    rw [Guard.findSome?_eq_head? fun guard hguard => (h.matched guard hguard).set?_eq]
    exact h.sets.current
  scene := by
    rw [Guard.findSome?_eq_head? fun guard hguard => (h.matched guard hguard).scene?_eq]
    exact h.scenes.current
  unguarded hguards := by
    obtain ⟨around, guards⟩ := nest
    cases hguards
    exact h.unguarded
  unwound := by
    obtain ⟨left, hdrops⟩ := exists_run_drops nest.around nest.guards
    obtain rfl := (h.run hdrops).unguarded
    exact hdrops

/-- Whatever scopes are entered and left, those of one kind in reverse order, after every move the set and the
scene around are those that the innermost guards alive put there, or those at first; and once all guards are
dropped, all is as it was at first. -/
theorem scopes_restore {moves : List (Move σ κ)} (h : (start initial).run moves = some last) :
    ∀ done, done <+: moves → ∃ nest, (start initial).run done = some nest ∧ nest.Restores initial := by
  rintro done ⟨rest, rfl⟩
  rw [Nest.run, List.foldlM_append, Option.bind_eq_bind, Option.bind_eq_some_iff] at h
  obtain ⟨nest, hdone, -⟩ := h
  exact ⟨nest, hdone, ((sound_start initial).run hdone).restores⟩

/-- The scopes of a scene and of a set that overlap. -/
def crossed : List (Move Nat Nat) :=
  [.enter (.set (some 1)), .enter (.scene (some 2)), .enter (.set (some 3)), .drop 1, .enter (.scene none), .drop 1]

theorem scopes_restore_crossed :
    (start ⟨none, some 7⟩).run crossed =
        some ⟨⟨some 1, none⟩, [⟨.scene none, .scene (some 7)⟩, ⟨.set (some 1), .set none⟩]⟩ ∧
      ∀ done, done <+: crossed →
        ∃ nest, (start ⟨none, some 7⟩).run done = some nest ∧ nest.Restores ⟨none, some 7⟩ :=
  ⟨rfl, scopes_restore rfl⟩

/-- The guard of a set is not dropped while a newer one is alive. -/
example : (start (⟨none, none⟩ : Surroundings Nat Nat)).run
    [.enter (.set (some 1)), .enter (.set (some 2)), .drop 1] = none := rfl

end Nest

end Playprint
