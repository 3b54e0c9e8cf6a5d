import Playprint.Proofs.Loader.History

/-!
Sets that are loaded in the middle of other work. The byte code of a set chunk never has an actor, so it asks
nothing of its host, and loading a set never loads another one. Whatever the load of a set comes to, all else is
where it was before, and the answer is final.
-/

namespace Playprint

/-! ### Set chunks and their hosts -/

namespace Replay

variable {K : Catalog} {σ : Type} {script : Script K} {host other : Host K σ} {title : Title Stock.catalog}

/-- Runs are alike under two hosts as long as every instruction is. -/
theorem runFrom_congr {I : Replay K σ → Prop}
    (hsame : ∀ instruction replay, I replay →
      (execute script other instruction).outcome replay = (execute script host instruction).outcome replay)
    (hkeeps : ∀ instruction replay after, I replay →
      (execute script host instruction).outcome replay = (.ok (), after) → I after)
    (cursor : Cursor) {replay : Replay K σ} (h : I replay) :
    runFrom script other cursor replay = runFrom script host cursor replay := by
  induction cursor, replay using rounds_induction script host with
  | exhausted cursor replay hcursor => rw [runFrom_exhausted replay hcursor, runFrom_exhausted replay hcursor]
  | unread cursor replay error left hcursor hfetch =>
      rw [runFrom_fetch_error hcursor hfetch, runFrom_fetch_error hcursor hfetch]
  | failed cursor replay instruction left error after hfetch hexecute =>
      have hother := (hsame instruction replay h).trans hexecute
      rw [runFrom_execute_error hfetch hexecute, runFrom_execute_error hfetch hother]
  | round cursor replay instruction left after hfetch hexecute ih =>
      have hother := (hsame instruction replay h).trans hexecute
      rw [runFrom_round hfetch hexecute, runFrom_round hfetch hother]
      exact ih (hkeeps _ _ _ h hexecute)

variable {host other : Host Stock.catalog σ} {replay : Replay Stock.catalog σ}

/-- The two instructions that ask the host are refused before they do. -/
theorem execute_set_congr (hslots : replay.slots = #[]) (instruction : Instruction) :
    (execute (.set title) other instruction).outcome replay =
      (execute (.set title) host instruction).outcome replay := by
  rw [execute, execute, Step.outcome_bind_ok (Step.outcome_get _), Step.outcome_bind_ok (Step.outcome_get _)]
  cases hpermit : permit (.set title) instruction.opcode replay with
  | error error => rfl
  | ok _ =>
      cases instruction with
      | createActor typeIndex => cases hpermit
      | bindRole typeIndex =>
          rw [Instruction.opcode, permit, roleTarget, hslots] at hpermit
          cases hpermit
      | _ => rfl

theorem Bare.execute {after : Replay Stock.catalog σ} {instruction : Instruction} (h : replay.Bare)
    (hexecute : (Replay.execute (.set title) host instruction).outcome replay = (.ok (), after)) :
    after.Bare := by
  have hstays := (staysBare_execute title host instruction replay h).1
  rwa [hexecute] at hstays

theorem replay_set_congr (title : Title Stock.catalog) (host other : Host Stock.catalog σ) (code : Cursor) :
    Loader.replay (.set title) other code = Loader.replay (.set title) host code := by
  apply Step.ext
  intro session
  have hrun : runFrom (.set title) other code (start session) = runFrom (.set title) host code (start session) :=
    runFrom_congr (fun instruction _ hbare => execute_set_congr hbare.slots instruction)
      (fun _ _ _ => Bare.execute) code (bare_start session)
  have hwhole : (run (.set title) other).outcome (code, start session) =
      (run (.set title) host).outcome (code, start session) := by
    rcases h : runFrom (.set title) host code (start session) with ⟨_ | _, left, ended⟩
    · rw [outcome_run_error (hrun.trans h), outcome_run_error h]
    · rw [outcome_run_ok (hrun.trans h), outcome_run_ok h]
  rw [Loader.replay, Loader.replay, Step.outcome_of, Step.outcome_of, hwhole]

/-- Without slots no role can be hung under another one. -/
theorem outcome_attachChild_bare (hslots : replay.slots = #[]) (parent child : Nat) :
    (attachChild parent child).outcome replay = (.error (.format (.actorSlot parent 0)), replay) := by
  have hnone : (slotAt parent : ReplayStep Stock.catalog σ _).outcome replay =
      (.error (.format (.actorSlot parent 0)), replay) := by
    simp only [slotAt, Step.outcome_bind, Step.outcome_get, hslots]
    rfl
  rw [attachChild, Step.outcome_bind_error hnone]

/-- The byte code of a set chunk has no actors at any point, no matter how it ends, and no role can be hung
there. It does the same whatever host it has, leaves what the host keeps as it was, and hangs nothing. -/
structure Solitary (title : Title Stock.catalog) (host : Host Stock.catalog σ) (code : Cursor)
    (session : Session Stock.catalog σ) : Prop where
  slots : ∀ done left mid, Rounds (.set title) host (code, start session) done (left, mid) →
    mid.slots = #[] ∧
      ∀ parent child, (attachChild parent child).outcome mid = (.error (.format (.actorSlot parent 0)), mid)
  ended : ((run (.set title) host).outcome (code, start session)).2.2.slots = #[]
  alike : ∀ other : Host Stock.catalog σ, Loader.replay (.set title) other code =
    Loader.replay (.set title) host code
  kept : ((Loader.replay (.set title) host code).outcome session).2.host = session.host
  attachments : ((Loader.replay (.set title) host code).outcome session).2.world.attachments =
    session.world.attachments

theorem solitary (title : Title Stock.catalog) (host : Host Stock.catalog σ) (code : Cursor)
    (session : Session Stock.catalog σ) : Solitary title host code session := by
  obtain ⟨hended, hhost, hquiet⟩ := staysBare_run title host code session (bare_start session)
  refine ⟨fun done left mid hrounds => ?_, hended.slots, fun other => replay_set_congr title host other code,
    hhost, hquiet.1⟩
  have hmid : mid.Bare := hrounds.keeps (fun _ _ _ => Bare.execute) (bare_start session)
  exact ⟨hmid.slots, outcome_attachChild_bare hmid.slots⟩

end Replay

/-! ### Loading a set -/

namespace Loader

variable {title : Title Stock.catalog} {container : Container} {loader left : Loader Stock.catalog} {index : Nat}

/-- The load of a set was answered in place: the stream, what is around, the log of actors and all other slots
are as they were, and so are the sets from before. After a failure all is as it was; after a success the slot
holds the set. -/
structure InPlace (index : Nat) (before : Loader Stock.catalog) (answer : Except LoadError SetHandle)
    (after : Loader Stock.catalog) : Prop where
  container : after.host.container = before.host.container
  around : after.host.around = before.host.around
  objects : after.host.objects = before.host.objects
  entries : after.host.sets.slots.map SetSlot.entry = before.host.sets.slots.map SetSlot.entry
  others : ∀ other, other ≠ index → after.host.sets.slots[other]? = before.host.sets.slots[other]?
  stages : ∀ set : SetHandle, set.index < before.world.stages.size →
    after.world.stage? set = before.world.stage? set
  failed : ∀ error, answer = .error error → after = before
  loaded : ∀ set, answer = .ok set → after.host.sets.cached? index = some set

theorem InPlace.unchanged {answer : Except LoadError SetHandle}
    (h : ∀ set, answer = .ok set → loader.host.sets.cached? index = some set) :
    InPlace index loader answer loader :=
  ⟨rfl, rfl, rfl, rfl, fun _ _ => rfl, fun _ _ => rfl, fun _ _ => rfl, h⟩

theorem inPlace_withSet {set : SetHandle} {world : World Stock.catalog}
    (hroom : index < loader.host.sets.size) :
    InPlace index loader (.ok set) (loader.withSet index set world) where
  container := rfl
  around := rfl
  objects := rfl
  entries := SetTable.entries_fill
  others other hother := by
    simp only [withSet, SetTable.fill, List.getElem?_modify, if_neg (Ne.symm hother), id_map']
  stages _ hset := World.stage?_behind_of_lt hset
  failed _ h := nomatch h
  loaded found hfound := by
    cases hfound
    exact (SetTable.cached?_fill hroom index).trans (if_pos rfl)

/-- Wherever a loader stands, a set is loaded in place. -/
theorem inPlace_loadSet (title : Title Stock.catalog) (index : Nat) (loader : Loader Stock.catalog) :
    InPlace index loader ((loadSet title index).outcome loader).1 ((loadSet title index).outcome loader).2 := by
  rw [loadSet, Step.outcome_bind_ok (Step.outcome_get _)]
  cases hslot : loader.host.sets.slots[index]? with
  | none =>
      simp only [SetTable.slot, hslot]
      exact .unchanged fun _ h => by cases h
  | some slot =>
      have hroom : index < loader.host.sets.size := (List.getElem?_eq_some_iff.mp hslot).1
      simp only [SetTable.slot, hslot]
      cases hcached : loader.host.sets.cached? index with
      | some set =>
          refine .unchanged fun found hfound => ?_
          cases hfound
          exact hcached
      | none =>
          rcases buildSet_own (.refl _) hroom title slot.chunk with
            ⟨error, _, hbuild⟩ | ⟨set, world, stage, _, _, _, hbuild⟩
          · simp only [hbuild]
            exact .unchanged fun _ h => by cases h
          · simp only [hbuild]
            exact inPlace_withSet hroom

/-- The answer to a set stays what it is, whatever the loader is asked for in between. -/
theorem Settled.loadSet_again (h : Settled title container loader) {answer : Except LoadError SetHandle}
    (hload : (loadSet title index).outcome loader = (answer, left)) (later : List Request) :
    (loadSet title index).outcome (later.foldl (Loader.serve title) left) =
      (answer, later.foldl (Loader.serve title) left) := by
  have hleft : Settled title container left := by
    have hserved := (h.serve (.set index)).1
    rwa [Loader.serve, hload] at hserved
  obtain ⟨hmid, honward⟩ := hleft.serves later
  cases answer with
  | ok set =>
      have hplace := inPlace_loadSet title index loader
      rw [hload] at hplace
      exact hmid.kept.outcome_loadSet (honward.grown index set (hplace.loaded set rfl))
  | error error =>
      have hfirst := h.kept.setLoad index
      rw [hload] at hfirst
      cases hfirst with
      | failed hfree hown =>
          have hagain := hmid.kept.setLoad index
          generalize (loadSet title index).outcome (later.foldl (Loader.serve title) loader) = result at hagain ⊢
          cases hagain with
          | cached hset =>
              obtain ⟨own, hown'⟩ := hmid.kept.own_of_cached hset
              cases hown.symm.trans hown'
          | failed _ hown' =>
              cases hown.symm.trans hown'
              rfl
          | built hbuilt => cases hown.symm.trans hbuilt.built

/-- From wherever it is asked for, a set is loaded in place. When a loader was asked for it once, whatever it
was asked for before and is asked for in between, the set is answered again as it was then, or fails for the
same cause, and nothing changes any more. The byte code of set chunks asks nothing of its host, so what it does
as the byte code of a loader it does without one too. -/
theorem loadSet_atomic (title : Title Stock.catalog) (container : Container) (earlier later : List Request)
    (index : Nat) :
    (∀ loader : Loader Stock.catalog,
      InPlace index loader ((loadSet title index).outcome loader).1
        ((loadSet title index).outcome loader).2) ∧
    (let loader := after title container earlier
      let (answer, left) := (loadSet title index).outcome loader
      let mid := later.foldl (serve title) left
      (loadSet title index).outcome mid = (answer, mid)) ∧
    (∀ code : Cursor, replay (.set title) (groupHost title) code = replay (.set title) setHost code) ∧
    ∀ (σ : Type) (host : Host Stock.catalog σ) (code : Cursor) (session : Session Stock.catalog σ),
      Replay.Solitary title host code session := by
  refine ⟨fun loader => inPlace_loadSet title index loader, ?again, fun code => ?alone,
    fun σ host code session => Replay.solitary title host code session⟩
  case again =>
    intro loader
    have hsettled : Settled title container loader := (settled_start.serves earlier).1
    exact hsettled.loadSet_again rfl later
  case alone => exact Replay.replay_set_congr title setHost (groupHost title) code

end Loader

end Playprint
