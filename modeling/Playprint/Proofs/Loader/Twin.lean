import Playprint.Proofs.Loader.Kept

/-!
Two loaders over one container, of which the second has come a longer way. It has logged more actors, its
sets may stand elsewhere and hold more roles, and its table is fuller. What it is asked for next, it does
like the first one: the identities are raised by the actors that were logged before, and every set grows by
the same roles.
-/

namespace Playprint

open Step (Matched)
open Container (Agree)

/-! ### Raised identities -/

/-- The identity after so many others. -/
def ObjectId.raise (count : Nat) (id : ObjectId) : ObjectId := ⟨count + id.value⟩

/-- The attachment with its identities raised. -/
def Attachment.raise (count : Nat) (entry : Attachment) : Attachment :=
  ⟨entry.parent.map (ObjectId.raise count), entry.child.raise count⟩

/-- The role with the identity of its actor raised. -/
def Role.raise {K : Catalog} (count : Nat) (role : Role K) : Role K :=
  { role with actor := { role.actor with id := role.actor.id.raise count } }

namespace Loader

/-- What two loaders are compared against. -/
structure Frame where
  title : Title Stock.catalog
  container : Container
  /-- How many actors the second loader had logged. -/
  raised : Nat
  /-- What hung on the sets of the second loader. -/
  hung : Nat → List Attachment
  /-- The class of the scene around both. -/
  scene : Option String
  /-- A set table that the first loader had, and one that the second had. -/
  seen : SetTable × SetTable

/-- The second loader does what the first one does. -/
structure Twin (frame : Frame) (first second : Loader Stock.catalog) : Prop where
  kept : Kept frame.title frame.container first
  kept' : Kept frame.title frame.container second
  fuller : ∀ index, (first.host.sets.cached? index).isSome → (second.host.sets.cached? index).isSome
  attachments : ∀ index, second.attachmentsAt index =
    frame.hung index ++ (first.attachmentsAt index).map (Attachment.raise frame.raised)
  nextId : second.host.objects.nextId = frame.raised + first.host.objects.nextId
  around : first.host.around = ⟨none, frame.scene⟩ ∧ second.host.around = ⟨none, frame.scene⟩
  grown : frame.seen.1.Grown first.host.sets ∧ frame.seen.2.Grown second.host.sets

variable {frame : Frame} {first second s t : Loader Stock.catalog} {index : Nat} {set set' : SetHandle}
  {world world' : World Stock.catalog} {own : Object Stock.Stage}

/-- The frame with the tables of two loaders. -/
def Frame.since (frame : Frame) (first second : Loader Stock.catalog) : Frame :=
  { frame with seen := (first.host.sets, second.host.sets) }

theorem Twin.since (h : Twin frame first second) : Twin (frame.since first second) first second :=
  { h with grown := ⟨.refl _, .refl _⟩ }

theorem Twin.of_since (h : Twin frame first second) (hlater : Twin (frame.since first second) s t) :
    Twin frame s t :=
  { hlater with grown := ⟨h.grown.1.trans hlater.grown.1, h.grown.2.trans hlater.grown.2⟩ }

theorem Twin.agree (h : Twin frame first second) :
    Agree first.host.container second.host.container :=
  h.kept.agree.symm.trans h.kept'.agree

theorem Twin.withContainer (h : Twin frame first second) {one other : Container}
    (hone : Agree first.host.container one) (hother : Agree second.host.container other) :
    Twin frame (first.withContainer one) (second.withContainer other) :=
  ⟨h.kept.withContainer hone, h.kept'.withContainer hother, h.fuller, h.attachments, h.nextId, h.around,
    h.grown⟩

/-- The sets under one index differ in the roles on them only. -/
theorem Twin.alike (h : Twin frame first second) (hset : first.host.sets.cached? index = some set)
    (hset' : second.host.sets.cached? index = some set') :
    ∃ stage stage', first.world.stage? set = some stage ∧ second.world.stage? set' = some stage' ∧
      Alike stage stage' := by
  obtain ⟨stage, hstage, hfinished⟩ := h.kept.finished index set hset
  obtain ⟨stage', hstage', hfinished'⟩ := h.kept'.finished index set' hset'
  exact ⟨stage, stage', hstage, hstage', hfinished.same hfinished'⟩

/-! ### Loading sets -/

theorem Twin.fillFirst (h : Twin frame first second)
    (hbuild : Buildable frame.title frame.container first index set world own)
    (hsecond : second.host.sets.cached? index = some set') :
    Twin frame (first.filled index set world own) second := by
  refine ⟨h.kept.filled hbuild, h.kept', fun other hother => ?_, ?_, h.nextId, h.around,
    h.grown.1.trans hbuild.grown, h.grown.2⟩
  · rw [hbuild.cached?_filled] at hother
    by_cases heq : other = index
    · rw [heq, hsecond, Option.isSome_some]
    · rw [if_neg heq] at hother
      exact h.fuller other hother
  · rw [hbuild.attachmentsAt h.kept]
    exact h.attachments

theorem Twin.fillSecond (h : Twin frame first second)
    (hbuild : Buildable frame.title frame.container second index set world own) :
    Twin frame first (second.filled index set world own) := by
  refine ⟨h.kept, h.kept'.filled hbuild, fun other hother => ?_, ?_, h.nextId, h.around,
    h.grown.1, h.grown.2.trans hbuild.grown⟩
  · obtain ⟨found, hfound⟩ := Option.isSome_iff_exists.mp (h.fuller other hother)
    rw [hbuild.grown other found hfound, Option.isSome_some]
  · rw [hbuild.attachmentsAt h.kept']
    exact h.attachments

/-- A set that both lack is built by both, or by neither. -/
theorem Twin.loads (h : Twin frame first second) (hfree : first.host.sets.cached? index = none)
    (hfree' : second.host.sets.cached? index = none)
    {result result' : Except LoadError SetHandle × Loader Stock.catalog}
    (hload : SetLoad frame.title frame.container first index result)
    (hload' : SetLoad frame.title frame.container second index result') :
    Matched (fun set set' s t => Twin (frame.since first second) s t ∧
        s.host.sets.cached? index = some set ∧ t.host.sets.cached? index = some set')
      (Twin (frame.since first second)) result result' := by
  cases hload with
  | cached hset => cases hfree.symm.trans hset
  | failed _ hown =>
      cases hload' with
      | cached hset' => cases hfree'.symm.trans hset'
      | failed _ hown' =>
          cases hown.symm.trans hown'
          exact .error h.since
      | built hbuild' => cases hown.symm.trans hbuild'.built
  | built hbuild =>
      cases hload' with
      | cached hset' => cases hfree'.symm.trans hset'
      | failed _ hown' => cases hown'.symm.trans hbuild.built
      | built hbuild' =>
          have hcached' := hbuild'.cached?_filled index
          rw [if_pos rfl] at hcached'
          refine .ok ⟨(h.since.fillSecond hbuild').fillFirst hbuild hcached', ?_, hcached'⟩
          rw [hbuild.cached?_filled, if_pos rfl]

/-- Both load a set, each from its table or from the chunk of the set, or neither can. -/
theorem Twin.loadSet (h : Twin frame first second) (index : Nat) :
    Matched (fun set set' s t => Twin (frame.since first second) s t ∧
        s.host.sets.cached? index = some set ∧ t.host.sets.cached? index = some set')
      (Twin (frame.since first second)) ((loadSet frame.title index).outcome first)
      ((loadSet frame.title index).outcome second) := by
  have hload := h.kept.setLoad index
  have hload' := h.kept'.setLoad index
  cases hcached : first.host.sets.cached? index with
  | some set =>
      obtain ⟨set', hcached'⟩ := Option.isSome_iff_exists.mp (h.fuller index (by rw [hcached]; rfl))
      rw [h.kept.outcome_loadSet hcached, h.kept'.outcome_loadSet hcached']
      exact .ok ⟨h.since, hcached, hcached'⟩
  | none =>
      cases hcached' : second.host.sets.cached? index with
      | some set' =>
          obtain ⟨own, hown⟩ := h.kept'.own_of_cached hcached'
          rw [h.kept'.outcome_loadSet hcached']
          generalize (Loader.loadSet frame.title index).outcome first = result at hload ⊢
          cases hload with
          | cached hset => cases hcached.symm.trans hset
          | failed _ hown' => cases hown'.symm.trans hown
          | built hbuild =>
              refine .ok ⟨h.since.fillFirst hbuild hcached', ?_, hcached'⟩
              rw [hbuild.cached?_filled, if_pos rfl]
      | none =>
          generalize (Loader.loadSet frame.title index).outcome first = result at hload ⊢
          generalize (Loader.loadSet frame.title index).outcome second = result' at hload' ⊢
          exact h.loads hcached hcached' hload hload'

/-! ### Logging actors, and worlds that age -/

/-- The loader with one more actor in its log. -/
def registered (typeIndex : Nat) (className : String) (loader : Loader Stock.catalog) :
    Loader Stock.catalog :=
  { loader with host := { loader.host with
      objects := (loader.host.objects.register typeIndex className).2 } }

theorem Kept.registered {title : Title Stock.catalog} {container : Container}
    (h : Kept title container first) (typeIndex : Nat) (className : String) :
    Kept title container (first.registered typeIndex className) := by
  refine ⟨h.agree, h.entries, h.apart, h.finished, ?_⟩
  show first.host.objects.nextId + 1 = (first.host.objects.objects.push _).size
  rw [Array.size_push, h.counted]

theorem Twin.registered (h : Twin frame first second) (typeIndex : Nat) (className : String) :
    Twin frame (first.registered typeIndex className) (second.registered typeIndex className) :=
  ⟨h.kept.registered typeIndex className, h.kept'.registered typeIndex className, h.fuller, h.attachments,
    congrArg (· + 1) h.nextId, h.around, h.grown⟩

/-- No set was lost, and at most roles were hung on those that were there. -/
def Ages (before after : World Stock.catalog) : Prop :=
  ∀ set stage, before.stage? set = some stage → ∃ later, after.stage? set = some later ∧ Alike stage later

theorem Ages.refl (world : World Stock.catalog) : Ages world world :=
  fun _ stage hstage => ⟨stage, hstage, rfl, rfl, rfl⟩

theorem ages_withFresh (world : World Stock.catalog) (name : String) :
    Ages world (Stock.withFresh world name) := by
  intro set stage hstage
  have hlt : set.index < world.stages.size := (Array.getElem?_eq_some_iff.mp hstage).1
  refine ⟨stage, ?_, rfl, rfl, rfl⟩
  show (world.stages.push ⟨name, Stock.Stage.fresh⟩)[set.index]? = some stage
  rw [Array.getElem?_push, if_neg (Nat.ne_of_lt hlt)]
  exact hstage

theorem ages_hanging {parent : Option ObjectId} {child : ObjectId}
    (h : (Replay.hanging set parent child).outcome world = (.ok (), world')) : Ages world world' := by
  rcases World.onStage_ok h with ⟨_, rfl⟩ | ⟨stage, state, journal, hstage, hattach, rfl⟩
  · exact .refl _
  change (Step.ofExcept (stage.state.attach parent child)).outcome world.journal = _ at hattach
  rw [Step.outcome_ofExcept] at hattach
  unfold Stock.Stage.attach at hattach
  split at hattach
  · cases hattach
  cases hattach
  intro other found hfound
  by_cases hother : other = set
  · subst hother
    obtain rfl := Option.some.inj (hstage.symm.trans hfound)
    exact ⟨_, (World.stage?_replaced hstage other).trans (if_pos rfl), rfl, rfl, rfl⟩
  · exact ⟨found, ((World.stage?_replaced hstage other).trans (if_neg hother)).trans hfound, rfl, rfl, rfl⟩

theorem Twin.inWorlds (h : Twin frame first second) (hages : Ages first.world world)
    (hages' : Ages second.world world')
    (hattachments : ∀ index, attachmentsAt { second with world := world' } index =
      frame.hung index ++ (attachmentsAt { first with world } index).map (Attachment.raise frame.raised)) :
    Twin frame { first with world } { second with world := world' } :=
  ⟨h.kept.inWorld hages, h.kept'.inWorld hages', h.fuller, hattachments, h.nextId, h.around, h.grown⟩

/-- Both build a set of a class that no table entry asked for. -/
theorem Twin.withFresh (h : Twin frame first second) (name : String) :
    Twin frame { first with world := Stock.withFresh first.world name }
      { second with world := Stock.withFresh second.world name } := by
  have hquiet (loader : Loader Stock.catalog) :
      attachmentsAt { loader with world := Stock.withFresh loader.world name } = loader.attachmentsAt := by
    funext index
    unfold attachmentsAt
    rw [(Stock.quiet_withFresh loader.world name).1]
  apply h.inWorlds (ages_withFresh _ _) (ages_withFresh _ _)
  rw [hquiet, hquiet]
  exact h.attachments

/-- Hanging a role on the set of an index adds it to the end there, and nowhere else. -/
theorem Kept.attachmentsAt_hanging {title : Title Stock.catalog} {container : Container}
    (hkept : Kept title container first) {parent : Option ObjectId} {child : ObjectId}
    (hset : first.host.sets.cached? index = some set)
    (h : (Replay.hanging set parent child).outcome first.world = (.ok (), world)) (other : Nat) :
    attachmentsAt { first with world } other =
      first.attachmentsAt other ++ if other = index then [⟨parent, child⟩] else [] := by
  obtain ⟨_, hattachments, _⟩ := Stock.attachments_of_attach (hkept.lt hset) h
  cases hcached : first.host.sets.cached? other with
  | none =>
      have hafter : attachmentsAt { first with world } other = [] := attachmentsAt_of_none hcached
      have hother : other ≠ index := by
        rintro rfl
        cases hset.symm.trans hcached
      rw [hafter, attachmentsAt_of_none hcached, if_neg hother, List.append_nil]
  | some found =>
      have hafter : attachmentsAt { first with world } other = world.attachments found :=
        attachmentsAt_of_some hcached
      rw [hafter, attachmentsAt_of_some hcached]
      by_cases hother : other = index
      · subst hother
        obtain rfl := Option.some.inj (hset.symm.trans hcached)
        rw [hattachments, Function.update_self, if_pos rfl]
      · have hne : found ≠ set := fun heq => hother (hkept.apart other index set (heq ▸ hcached) hset)
        rw [hattachments, Function.update_of_ne hne, if_neg hother, List.append_nil]

/-- Both hang the same role on the set of one index. -/
theorem Twin.hang (h : Twin frame first second) {parent : Option ObjectId} {child : ObjectId}
    (hset : first.host.sets.cached? index = some set)
    (hset' : second.host.sets.cached? index = some set')
    (hhang : (Replay.hanging set parent child).outcome first.world = (.ok (), world))
    (hhang' : (Replay.hanging set' (parent.map (ObjectId.raise frame.raised))
      (child.raise frame.raised)).outcome second.world = (.ok (), world')) :
    Twin frame { first with world } { second with world := world' } := by
  apply h.inWorlds (ages_hanging hhang) (ages_hanging hhang')
  intro other
  rw [h.kept.attachmentsAt_hanging hset hhang, h.kept'.attachmentsAt_hanging hset' hhang',
    h.attachments, List.map_append, List.append_assoc]
  by_cases hother : other = index
  · rw [if_pos hother, if_pos hother]
    rfl
  · rw [if_neg hother, if_neg hother, List.map_nil]

end Loader

end Playprint
