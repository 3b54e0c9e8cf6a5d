import Playprint.Proofs.Loader.Reachable
import Playprint.Proofs.Replay.Assembled
import Playprint.Proofs.Replay.Completeness
import Playprint.Proofs.Replay.Forest

/-!
Where the roles of a group have come to hang. The checks on hanging one role under another look at one
moment only: that the two slots differ, that they are bound to one set and that the child was not hung
before. Whether every role ends on the set it is bound to, and whether the roles are a forest, is decided by
what happens around these moments, and can go either way. All of this is about sound loaders, and so about
every loader that can be reached.
-/

namespace Playprint

open Relation (TransGen)
open Attachment (Under Rooted)

/-- The set that an actor is bound to. -/
def ActorRecord.set? {K : Catalog} (record : ActorRecord K) : Option SetHandle :=
  record.binding.map SetBinding.handle

namespace Replay

open Loader (groupHost)

variable {title : Title Stock.catalog} {declared : Nat} {code : Cursor}
  {loader left : Loader Stock.catalog} {replay ended : Replay Stock.catalog Desk}

/-- The set that the actor of a slot is bound to. -/
def boundSet (replay : Replay Stock.catalog Desk) (index : Nat) : Option SetHandle :=
  replay.slots[index]?.bind fun slot => slot.record.set?

/-- Every actor with a role hangs on the set it is bound to, and under an actor of that set if under any. -/
def AttachedWhereBound (records : List (ActorRecord Stock.catalog)) (world : World Stock.catalog) : Prop :=
  ∀ record ∈ records, record.role.isSome → ∃ set ∈ record.set?,
    ∃ entry ∈ world.attachments set, entry.child = record.id ∧
      ∀ parent ∈ entry.parent, ∃ owner ∈ records, owner.id = parent ∧ owner.set? = some set

instance (records : List (ActorRecord Stock.catalog)) (world : World Stock.catalog) :
    Decidable (AttachedWhereBound records world) :=
  inferInstanceAs (Decidable (∀ record ∈ records, record.role.isSome → ∃ set ∈ record.set?,
    ∃ entry ∈ world.attachments set, entry.child = record.id ∧
      ∀ parent ∈ entry.parent, ∃ owner ∈ records, owner.id = parent ∧ owner.set? = some set))

theorem setOf_cast (replay : Replay Stock.catalog Desk) (index : Nat) :
    replay.cast.setOf index = replay.boundSet index := by
  change replay.standings[index]?.bind Standing.set = _
  rw [standings_getElem?, boundSet]
  cases replay.slots[index]? <;> rfl

theorem mem_cast {standing : Standing} :
    standing ∈ replay.cast.slots ↔ ∃ slot ∈ replay.slots.toList, slot.standing = standing :=
  List.mem_map

theorem mem_records {record : ActorRecord Stock.catalog} :
    record ∈ replay.records ↔ ∃ slot ∈ replay.slots.toList, slot.record = record :=
  List.mem_map

theorem complete_cast (hsound : replay.cast.Sound) :
    replay.cast.Complete ↔ AttachedWhereBound replay.records replay.session.world := by
  constructor
  · intro hcomplete record hrecord hrole
    obtain ⟨slot, hslot, rfl⟩ := mem_records.mp hrecord
    have hmem : slot.standing ∈ replay.cast.slots := mem_cast.mpr ⟨slot, hslot, rfl⟩
    have hown := hsound.role slot.standing hmem
    obtain ⟨role, hrole⟩ := Option.isSome_iff_exists.mp hrole
    rw [Slot.standing, hrole, Option.map_some] at hown
    obtain ⟨set, hset, _⟩ := Option.map_eq_some_iff.mp hown.symm
    obtain ⟨entry, hentry, hchild, hparent⟩ := hcomplete slot.standing hmem set hset
    refine ⟨set, hset, entry, hentry, hchild, fun parent habove => ?_⟩
    obtain ⟨owner, howner, hid, hbound⟩ := hparent parent habove
    obtain ⟨upper, hupper, rfl⟩ := mem_cast.mp howner
    exact ⟨upper.record, mem_records.mpr ⟨upper, hupper, rfl⟩, hid, hbound⟩
  · intro hattached standing hstanding set hset
    obtain ⟨slot, hslot, rfl⟩ := mem_cast.mp hstanding
    have hown := hsound.role slot.standing hstanding
    rw [hset] at hown
    have hrole : slot.record.role.isSome := by
      obtain ⟨role, hrole, _⟩ := Option.map_eq_some_iff.mp hown
      rw [hrole]
      rfl
    obtain ⟨other, hother, entry, hentry, hchild, hparent⟩ :=
      hattached slot.record (mem_records.mpr ⟨slot, hslot, rfl⟩) hrole
    obtain rfl : set = other := Option.some.inj (hset.symm.trans hother)
    refine ⟨entry, hentry, hchild, fun parent habove => ?_⟩
    obtain ⟨owner, howner, hid, hbound⟩ := hparent parent habove
    obtain ⟨upper, hupper, rfl⟩ := mem_records.mp howner
    exact ⟨upper.standing, mem_cast.mpr ⟨upper, hupper, rfl⟩, hid, hbound⟩

/-! ### Two actors on two sets -/

/-- A title with a stage and an overlay. -/
def stagedTitle : Title Stock.catalog where
  manifest := ⟨[⟨"PropertyBagActor", none⟩], [⟨"StockRole", none⟩], [⟨"StageSet", none⟩], [], [], [], [],
    [], [⟨"stage", 0⟩, ⟨"overlay", 1⟩], none⟩

/-- Its loader, after both sets were built. -/
def stagedLoader : Loader Stock.catalog where
  host := {
    container := ⟨.big, ⟨[], 0⟩, none, none, none, none, none, none⟩
    sets := ⟨[⟨"stage", 0, some ⟨0⟩⟩, ⟨"overlay", 1, some ⟨1⟩⟩]⟩
    objects := .empty
    around := .none }
  world := ⟨#[⟨"StageSet", Stock.Stage.fresh⟩, ⟨"StageSet", Stock.Stage.fresh⟩], ()⟩

/-- Binds two actors to the stage and hangs the second one under the first one. -/
def tiedPair (rest : List Instruction) : List Instruction :=
  [.createActor 0, .setSet 0, .bindRole 0, .createActor 0, .setSet 0, .bindRole 0, .parentRole 0,
    .childRole 1] ++ rest ++ [.endActorGroup]

/-- The bytes of such a group. -/
def stagedCode (rest : List Instruction) : Cursor :=
  ⟨.big, 0, Instruction.encodeAll .big (tiedPair rest)⟩

/-- Its replay at the end. -/
def staged (rest : List Instruction) : Replay Stock.catalog Desk :=
  ((follow (.group stagedTitle 2) (groupHost stagedTitle) (tiedPair rest)).outcome
    (.start stagedLoader)).2

theorem sound_stagedLoader : stagedLoader.Sound where
  sets index set h := by
    change Option.bind [_, _][index]? _ = some set at h
    match index with
    | 0 =>
        cases h
        decide
    | 1 =>
        cases h
        decide
    | index + 2 => cases h
  child set entry h := by
    have hnone : stagedLoader.world.attachments set = [] := by
      obtain ⟨index⟩ := set
      match index with
      | 0 | 1 => rfl
      | index + 2 => rfl
    rw [hnone] at h
    cases h

theorem outcome_staged (rest : List Instruction) (hfits : Instruction.FitAll 0 (tiedPair rest))
    (hok : ((follow (.group stagedTitle 2) (groupHost stagedTitle) (tiedPair rest)).outcome
      (.start stagedLoader)).1.toOption = some ()) :
    (Loader.replay (.group stagedTitle 2) (groupHost stagedTitle) (stagedCode rest)).outcome
      stagedLoader = (.ok (staged rest), (staged rest).session) := by
  have hlast : ¬Instruction.EndInIndex (tiedPair rest) := by
    rintro ⟨last, hlast, hindex⟩
    rw [tiedPair, List.getLast?_concat] at hlast
    cases hlast
    exact hindex
  rw [stagedCode, Loader.replay_encodeAll _ _ hfits hlast, Loader.follow, Step.outcome_of, staged]
  generalize (follow (.group stagedTitle 2) (groupHost stagedTitle) (tiedPair rest)).outcome
    (.start stagedLoader) = result at hok ⊢
  obtain ⟨error | _, ended⟩ := result
  · cases hok
  · rfl

/-- All roles end up on the sets that they are bound to exactly when no actor is bound to another set after
its role was hung under another one or another one under it. -/
theorem attached_where_bound_iff (hsound : loader.Sound)
    (h : (Loader.replay (.group title declared) (groupHost title) code).outcome loader =
      (.ok ended, left)) :
    AttachedWhereBound ended.records left.world ↔
      ∀ mid parent child,
        Ties (.group title declared) (groupHost title) (code, start loader) mid parent child →
        ended.boundSet parent = mid.boundSet parent ∧ ended.boundSet child = mid.boundSet child := by
  obtain ⟨rfl, moments, last, hrun, hrests, hattached, hmoments⟩ := casting_of_replay hsound h
  have hstart := (ready_start hsound).sound
  have hfair := ((hstart.fair rfl).run hrun).rests hrests
  rw [← complete_cast hfair.sound, Cast.complete_iff hstart rfl hrun hrests hattached]
  constructor
  · intro hkeeps mid parent child hties
    have hkept := hkeeps ⟨mid.cast, parent, child⟩ ((hmoments _).mpr ⟨mid, rfl, hties⟩)
    rw [Cast.Keeps, setOf_cast, setOf_cast, setOf_cast, setOf_cast] at hkept
    exact hkept
  · intro hkept moment hmoment
    obtain ⟨mid, hcast, hties⟩ := (hmoments moment).mp hmoment
    rw [Cast.Keeps, ← hcast, setOf_cast, setOf_cast, setOf_cast, setOf_cast]
    exact hkept mid _ _ hties

/-- A child under its parent, on the stage that both are bound to. -/
theorem tied_attached :
    stagedLoader.Sound ∧
      (Loader.replay (.group stagedTitle 2) (groupHost stagedTitle) (stagedCode [])).outcome
        stagedLoader = (.ok (staged []), (staged []).session) ∧
      AttachedWhereBound (staged []).records (staged []).session.world ∧
      ∀ mid parent child,
        Ties (.group stagedTitle 2) (groupHost stagedTitle) (stagedCode [], start stagedLoader)
          mid parent child →
        (staged []).boundSet parent = mid.boundSet parent ∧
          (staged []).boundSet child = mid.boundSet child := by
  have hrun := outcome_staged [] (by decide) (by decide +kernel)
  have hattached : AttachedWhereBound (staged []).records (staged []).session.world := by
    decide +kernel
  exact ⟨sound_stagedLoader, hrun, hattached,
    (attached_where_bound_iff sound_stagedLoader hrun).mp hattached⟩

/-- An actor that is bound to the overlay after its role was hung on the stage hangs on the stage only. -/
theorem rebound_not_attached :
    (Loader.replay (.group stagedTitle 2) (groupHost stagedTitle)
      (stagedCode [.setSet 1, .bindRole 0])).outcome stagedLoader =
        (.ok (staged [.setSet 1, .bindRole 0]), (staged [.setSet 1, .bindRole 0]).session) ∧
      ¬AttachedWhereBound (staged [.setSet 1, .bindRole 0]).records
        (staged [.setSet 1, .bindRole 0]).session.world := by
  refine ⟨outcome_staged _ (by decide) (by decide +kernel), ?_⟩
  decide +kernel

/-! ### Hierarchy -/

/-- Following parents leads from every role of these actors to one that hangs directly on the set, and no
role has come to be above itself. -/
def Hierarchical (records : List (ActorRecord Stock.catalog)) (before after : World Stock.catalog) : Prop :=
  ∀ set,
    (∀ record ∈ records, ∀ entry ∈ after.attachments set, entry.child = record.id →
      Rooted (after.attachments set) record.id) ∧
    ∀ id, TransGen (Under (after.attachments set)) id id →
      TransGen (Under (before.attachments set)) id id

theorem forest_cast (loader : Loader Stock.catalog) :
    Cast.Forest (start loader).cast replay.cast ↔
      Hierarchical replay.records loader.world replay.session.world := by
  apply forall_congr'
  intro set
  apply and_congr_left'
  constructor
  · intro hrooted record hrecord
    obtain ⟨slot, hslot, rfl⟩ := mem_records.mp hrecord
    exact hrooted slot.standing (mem_cast.mpr ⟨slot, hslot, rfl⟩)
  · intro hrooted standing hstanding
    obtain ⟨slot, hslot, rfl⟩ := mem_cast.mp hstanding
    exact hrooted slot.record (mem_records.mpr ⟨slot, hslot, rfl⟩)

/-- The roles are a forest exactly when no role is hung under one that is already below it, and every role
that another one is hung under has come to hang on the same set itself. -/
theorem hierarchical_iff (hsound : loader.Sound)
    (h : (Loader.replay (.group title declared) (groupHost title) code).outcome loader =
      (.ok ended, left)) :
    Hierarchical ended.records loader.world left.world ↔
      ∀ mid parent child,
        Ties (.group title declared) (groupHost title) (code, start loader) mid parent child →
        ∀ upper lower set, mid.slots[parent]? = some upper → mid.slots[child]? = some lower →
          upper.record.set? = some set →
          (∃ entry ∈ left.world.attachments set, entry.child = upper.record.id) ∧
            ¬TransGen (Under (mid.session.world.attachments set)) upper.record.id lower.record.id := by
  obtain ⟨rfl, moments, last, hrun, hrests, _, hmoments⟩ := casting_of_replay hsound h
  rw [← forest_cast, Cast.forest_iff (ready_start hsound).sound rfl hrun hrests]
  constructor
  · intro hupholds mid parent child hties upper lower set hupper hlower hset
    have hmoment := (hmoments ⟨mid.cast, parent, child⟩).mpr ⟨mid, rfl, hties⟩
    obtain ⟨above, below, other, hat, _⟩ := hrun.hung_of_moment hmoment
    obtain rfl := Option.some.inj ((slot_cast hupper).symm.trans hat.parent)
    obtain rfl := Option.some.inj ((slot_cast hlower).symm.trans hat.child)
    obtain rfl : set = other := Option.some.inj (hset.symm.trans hat.upperSet)
    exact hupholds _ hmoment _ _ _ hat
  · intro hupheld moment hmoment above below set hat
    obtain ⟨mid, hcast, hties⟩ := (hmoments moment).mp hmoment
    obtain ⟨hparent, hchild, hset, _⟩ := hat
    rw [← hcast] at hparent hchild ⊢
    obtain ⟨upper, hupper, rfl⟩ := exists_slot hparent
    obtain ⟨lower, hlower, rfl⟩ := exists_slot hchild
    exact hupheld mid _ _ hties upper lower set hupper hlower hset

theorem hierarchical_of_tied (records : List (ActorRecord Stock.catalog)) (before : World Stock.catalog)
    {after : World Stock.catalog} (hsize : after.stages.size = 2)
    (hstage : after.attachments ⟨0⟩ = [⟨some ⟨0⟩, ⟨1⟩⟩, ⟨none, ⟨0⟩⟩])
    (hoverlay : after.attachments ⟨1⟩ = []) : Hierarchical records before after := by
  intro set
  by_cases hset : set = ⟨0⟩
  · subst hset
    rw [hstage]
    constructor
    · intro record _ entry hentry hchild
      rw [← hchild]
      rcases List.mem_cons.mp hentry with rfl | hentry
      · exact .under List.mem_cons_self (.top (List.mem_cons_of_mem _ List.mem_cons_self))
      · obtain rfl := List.mem_singleton.mp hentry
        exact .top (List.mem_cons_of_mem _ List.mem_cons_self)
    · intro id hring
      obtain ⟨parent, hedge, hrest⟩ := TransGen.head'_iff.mp hring
      obtain ⟨rfl, rfl⟩ : parent = ⟨0⟩ ∧ id = ⟨1⟩ := by simpa [Under] using hedge
      rcases hrest.cases_head with hsame | ⟨_, hedge, _⟩
      · cases hsame
      · simp [Under] at hedge
  · have hempty : after.attachments set = [] := by
      by_cases hother : set = ⟨1⟩
      · rw [hother, hoverlay]
      · apply World.attachments_of_le
        have hzero : set.index ≠ 0 := fun heq => hset (congrArg SetHandle.mk heq)
        have hone : set.index ≠ 1 := fun heq => hother (congrArg SetHandle.mk heq)
        omega
    rw [hempty]
    refine ⟨fun _ _ _ hentry => absurd hentry List.not_mem_nil, fun id hring => ?_⟩
    obtain ⟨_, hedge, _⟩ := TransGen.head'_iff.mp hring
    exact absurd hedge List.not_mem_nil

/-- The child is under its parent, and its parent on the stage. -/
theorem tied_hierarchical :
    stagedLoader.Sound ∧
      (Loader.replay (.group stagedTitle 2) (groupHost stagedTitle) (stagedCode [])).outcome
        stagedLoader = (.ok (staged []), (staged []).session) ∧
      Hierarchical (staged []).records stagedLoader.world (staged []).session.world ∧
      ∀ mid parent child,
        Ties (.group stagedTitle 2) (groupHost stagedTitle) (stagedCode [], start stagedLoader)
          mid parent child →
        ∀ upper lower set, mid.slots[parent]? = some upper → mid.slots[child]? = some lower →
          upper.record.set? = some set →
          (∃ entry ∈ (staged []).session.world.attachments set, entry.child = upper.record.id) ∧
            ¬TransGen (Under (mid.session.world.attachments set)) upper.record.id
              lower.record.id := by
  have hrun := outcome_staged [] (by decide) (by decide +kernel)
  have hstage : (staged []).session.world.attachments ⟨0⟩ = [⟨some ⟨0⟩, ⟨1⟩⟩, ⟨none, ⟨0⟩⟩] := by
    decide +kernel
  have hsize : (staged []).session.world.stages.size = 2 := by decide +kernel
  have hoverlay : (staged []).session.world.attachments ⟨1⟩ = [] := by decide +kernel
  have hhierarchical := hierarchical_of_tied (staged []).records stagedLoader.world hsize hstage hoverlay
  exact ⟨sound_stagedLoader, hrun, hhierarchical,
    (hierarchical_iff sound_stagedLoader hrun).mp hhierarchical⟩

/-- Two roles that are hung under each other are accepted, and neither reaches the stage. -/
theorem ring_not_hierarchical :
    (Loader.replay (.group stagedTitle 2) (groupHost stagedTitle)
      (stagedCode [.parentRole 1, .childRole 0])).outcome stagedLoader =
        (.ok (staged [.parentRole 1, .childRole 0]), (staged [.parentRole 1, .childRole 0]).session) ∧
      ¬Hierarchical (staged [.parentRole 1, .childRole 0]).records stagedLoader.world
        (staged [.parentRole 1, .childRole 0]).session.world := by
  refine ⟨outcome_staged _ (by decide) (by decide +kernel), fun hhierarchical => ?_⟩
  have hstage : (staged [.parentRole 1, .childRole 0]).session.world.attachments ⟨0⟩ =
      [⟨some ⟨0⟩, ⟨1⟩⟩, ⟨some ⟨1⟩, ⟨0⟩⟩] := by
    decide +kernel
  obtain ⟨_, hring⟩ := hhierarchical ⟨0⟩
  rw [hstage] at hring
  have hbefore := hring ⟨0⟩ (.head (List.mem_cons_of_mem _ List.mem_cons_self) (.single List.mem_cons_self))
  obtain ⟨_, hedge, _⟩ := TransGen.head'_iff.mp hbefore
  exact absurd (sound_stagedLoader.child ⟨0⟩ _ hedge) (Nat.not_lt_zero _)

end Replay

end Playprint
