import Playprint.Proofs.Loader.Casting

/-!
Whole replays of stock groups. A replay that succeeds is a run of its cast from one without slots, followed
by the last call at every slot; the moments of the run are where the byte code hangs one role under
another. Whether it succeeds or not, the sets of the loader exist afterwards and hold only roles of actors
that were logged.
-/

namespace Playprint

/-- The sets that were built exist, and only actors that were logged have roles on them. -/
structure Loader.Sound (loader : Loader Stock.catalog) : Prop where
  sets : loader.SetsExist
  child : ∀ set, ∀ entry ∈ loader.world.attachments set, entry.child.value < loader.host.objects.nextId

namespace Replay

open Loader (groupHost)

variable {title : Title Stock.catalog} {declared : Nat}
  {before after replay : Replay Stock.catalog Desk}

theorem ready_start {loader : Loader Stock.catalog} (hsound : loader.Sound) :
    (start loader : Replay Stock.catalog Desk).Ready where
  sound := {
    id := fun _ _ h => nomatch h
    role := fun _ h => nomatch h
    set := fun _ h => nomatch h
    child := hsound.child }
  sets := hsound.sets

theorem Ready.session (hready : replay.Ready) : Loader.Sound replay.session :=
  ⟨hready.sets, hready.sound.child⟩

/-! ### The last call -/

theorem rest_of_attachRest {index : Nat} (hready : before.Ready)
    (h : (attachRest index : ReplayStep Stock.catalog Desk Unit).outcome before = (.ok (), after)) :
    Cast.Rest before.cast after.cast ∧ after.Ready ∧ ∀ slot, after.cast.slots[index]? = some slot →
      slot.set.isSome → slot.attached = true := by
  rcases attachRest_ok h with
    ⟨slot, role, binding, world, hslot, hfree, hrole, hbinding, hhang, rfl⟩ | ⟨rfl, hattached⟩
  · have hset : slot.record.binding.map SetBinding.handle = some binding.handle := by
      rw [hbinding, Option.map_some]
    obtain ⟨hfresh, hcast, hsets⟩ := cast_withAttached hready hslot hrole hset hhang
    refine ⟨?rest, ⟨?sound, hsets⟩, ?attached⟩
    case rest =>
      rw [hcast]
      exact .hang (slot_cast hslot) hfree hset hfresh
    case sound =>
      rw [hcast]
      exact hready.sound.hang _ (slot_cast hslot)
    case attached =>
      intro found hfound _
      rw [hcast] at hfound
      have hlt := (List.getElem?_eq_some_iff.mp (slot_cast hslot)).1
      obtain rfl := Option.some.inj ((List.getElem?_set_self hlt).symm.trans hfound)
      rfl
  · refine ⟨.skip, hready, fun found hfound hset => ?_⟩
    have hown := hready.sound.role found (List.mem_of_getElem? hfound)
    obtain ⟨slot, hslot, rfl⟩ := exists_slot hfound
    obtain ⟨set, hset⟩ := Option.isSome_iff_exists.mp hset
    rw [hset] at hown
    obtain ⟨role, hrole, _⟩ := Option.map_eq_some_iff.mp hown
    obtain ⟨binding, hbinding, _⟩ := Option.map_eq_some_iff.mp hset
    exact hattached slot role binding hslot hrole hbinding

/-- The last call at several slots leaves none of them with a role that hangs nowhere. -/
theorem rests_of_forEach {items : List Nat} (hready : before.Ready)
    (h : (Step.forEach items attachRest).outcome before = (.ok (), after)) :
    Cast.Rests before.cast after.cast ∧ ∀ index ∈ items, ∀ slot,
      after.cast.slots[index]? = some slot → slot.set.isSome → slot.attached = true := by
  induction items generalizing before with
  | nil =>
      cases h
      exact ⟨.stop _, fun _ h => nomatch h⟩
  | cons index items ih =>
      rw [Step.forEach, Step.outcome_bind_eq_ok_iff] at h
      obtain ⟨_, mid, hfirst, hmore⟩ := h
      obtain ⟨hrest, hmid, hattached⟩ := rest_of_attachRest hready hfirst
      obtain ⟨hrests, hothers⟩ := ih hmid hmore
      refine ⟨.rest hrest hrests, fun other hother => ?_⟩
      rcases List.mem_cons.mp hother with rfl | hother
      · intro slot hslot hset
        have hlt := (List.getElem?_eq_some_iff.mp hslot).1
        rw [Cast.length_rests hrests] at hlt
        obtain ⟨later, hlater, _, hsame, hkept⟩ :=
          Cast.slot_rests hrests (List.getElem?_eq_getElem hlt)
        obtain rfl := Option.some.inj (hslot.symm.trans hlater)
        rw [hsame] at hset
        exact hkept (hattached _ (List.getElem?_eq_getElem hlt) hset)
      · exact hothers other hother

theorem rests_of_lastCall (hready : before.Ready)
    (h : (lastCall : ReplayStep Stock.catalog Desk Unit).outcome before = (.ok (), after)) :
    Cast.Rests before.cast after.cast ∧
      ∀ slot ∈ after.cast.slots, slot.set.isSome → slot.attached = true := by
  rw [lastCall, Step.outcome_bind_ok (Step.outcome_get _)] at h
  obtain ⟨hrests, hattached⟩ := rests_of_forEach hready h
  refine ⟨hrests, fun slot hslot => ?_⟩
  obtain ⟨index, hindex⟩ := List.mem_iff_getElem?.mp hslot
  have hlt := (List.getElem?_eq_some_iff.mp hindex).1
  rw [Cast.length_rests hrests] at hlt
  have hsize : before.cast.slots.length = before.slots.size := by
    change before.standings.length = _
    rw [standings, List.length_map, Array.length_toList]
  exact hattached index (List.mem_range.mpr (hsize ▸ hlt)) slot hindex

/-! ### Rounds -/

theorem tieOf_eq_some_iff {instruction : Instruction} {parent child : Nat} :
    replay.tieOf instruction = some (parent, child) ↔
      instruction = .childRole child ∧ replay.registers.parent = some parent := by
  cases instruction with
  | childRole other =>
      simp only [tieOf, Option.map_eq_some_iff, Prod.mk.injEq, Instruction.childRole.injEq]
      constructor
      · rintro ⟨_, hparent, rfl, rfl⟩
        exact ⟨rfl, hparent⟩
      · rintro ⟨rfl, hparent⟩
        exact ⟨parent, hparent, rfl, rfl⟩
  | _ => simp [tieOf]

/-- A moment where the rounds from a state hang one role under another. -/
def TiedAt (title : Title Stock.catalog) (declared : Nat) (first : Cursor × Replay Stock.catalog Desk)
    (moment : Moment) : Prop :=
  ∃ mid, mid.cast = moment.cast ∧
    Ties (.group title declared) (groupHost title) first mid moment.parent moment.child

theorem tiedAt_round {cursor left : Cursor} {instruction : Instruction} {moment : Moment}
    (hfetch : (fetch (.group title declared) before).outcome cursor = (.ok instruction, left))
    (hexecute : (execute (.group title declared) (groupHost title) instruction).outcome before =
      (.ok (), after)) :
    TiedAt title declared (cursor, before) moment ↔
      (∃ tie, before.tieOf instruction = some tie ∧ moment = ⟨before.cast, tie.1, tie.2⟩) ∨
        TiedAt title declared (left, after) moment := by
  constructor
  · rintro ⟨mid, hcast, hties⟩
    rcases (Ties.round_iff hfetch hexecute).mp hties with ⟨hchild, hparent, rfl⟩ | hties
    · refine .inl ⟨(moment.parent, moment.child), tieOf_eq_some_iff.mpr ⟨hchild, hparent⟩, ?_⟩
      rw [hcast]
    · exact .inr ⟨mid, hcast, hties⟩
  · rintro (⟨⟨parent, child⟩, htie, rfl⟩ | ⟨mid, hcast, hties⟩)
    · obtain ⟨hchild, hparent⟩ := tieOf_eq_some_iff.mp htie
      exact ⟨before, rfl, (Ties.round_iff hfetch hexecute).mpr (.inl ⟨hchild, hparent, rfl⟩)⟩
    · exact ⟨mid, hcast, (Ties.round_iff hfetch hexecute).mpr (.inr hties)⟩

/-- Rounds up to where nothing more is tied are a run, whose moments are the ties of the rounds. -/
theorem run_of_rounds {first last : Cursor × Replay Stock.catalog Desk} {done : List Instruction}
    (hrounds : Rounds (.group title declared) (groupHost title) first done last)
    (hend : ∀ mid parent child, ¬Ties (.group title declared) (groupHost title) last mid parent child)
    (hready : first.2.Ready) :
    ∃ moments, Cast.Run first.2.cast moments last.2.cast ∧ last.2.Ready ∧
      ∀ moment, moment ∈ moments ↔ TiedAt title declared first moment := by
  induction hrounds with
  | stop here =>
      refine ⟨[], .stop _, hready, fun moment => ⟨fun h => (nomatch h), ?_⟩⟩
      rintro ⟨mid, _, hties⟩
      exact absurd hties (hend _ _ _)
  | @round cursor left replay after instruction rest last hfetch hexecute hrest ih =>
      obtain ⟨hstep, hsets⟩ := step_of_execute hready hexecute
      obtain ⟨moments, hrun, hlast, hmoments⟩ := ih hend ⟨hready.sound.step hstep, hsets⟩
      cases htie : replay.tieOf instruction with
      | none =>
          rw [htie] at hstep
          refine ⟨moments, .quietly hstep hrun, hlast, fun moment => ?_⟩
          rw [hmoments, tiedAt_round hfetch hexecute, htie]
          simp
      | some tie =>
          rw [htie] at hstep
          refine ⟨⟨replay.cast, tie.1, tie.2⟩ :: moments, .tied hstep hrun, hlast, fun moment => ?_⟩
          rw [List.mem_cons, hmoments, tiedAt_round hfetch hexecute, htie]
          simp

/-- A replay that succeeds goes through rounds to the end of its stream, and then through the last call. -/
theorem replay_ok {loader left : Loader Stock.catalog} {code : Cursor} {ended : Replay Stock.catalog Desk}
    (h : (Loader.replay (.group title declared) (groupHost title) code).outcome loader =
      (.ok ended, left)) :
    left = ended.session ∧ ∃ done last, last.1.isExhausted ∧
      Rounds (.group title declared) (groupHost title) (code, start loader) done last ∧
      lastCall.outcome last.2 = (.ok (), ended) := by
  rw [Loader.replay, Step.outcome_of] at h
  rcases hfrom : runFrom (.group title declared) (groupHost title) code (start loader) with
    ⟨error | _, last, mid⟩
  · rw [outcome_run_error hfrom] at h
    cases h
  rw [outcome_run_ok hfrom] at h
  rcases hcall : (lastCall : ReplayStep Stock.catalog Desk Unit).outcome mid with ⟨error | _, final⟩
  · rw [show finish (.group title declared) = lastCall from rfl, hcall] at h
    cases h
  rw [show finish (.group title declared) = lastCall from rfl, hcall] at h
  cases h
  obtain ⟨hend, done, hrounds⟩ := rounds_of_runFrom hfrom
  exact ⟨rfl, done, (last, mid), hend, hrounds, hcall⟩

/-- A replay that succeeds is a run with the last call after it. -/
theorem casting_of_replay {loader left : Loader Stock.catalog} {code : Cursor}
    {ended : Replay Stock.catalog Desk} (hsound : loader.Sound)
    (h : (Loader.replay (.group title declared) (groupHost title) code).outcome loader =
      (.ok ended, left)) :
    left = ended.session ∧ ∃ moments mid, Cast.Run (start loader).cast moments mid ∧
      Cast.Rests mid ended.cast ∧
      (∀ slot ∈ ended.cast.slots, slot.set.isSome → slot.attached = true) ∧
      ∀ moment, moment ∈ moments ↔ TiedAt title declared (code, start loader) moment := by
  obtain ⟨hleft, done, last, hend, hrounds, hcall⟩ := replay_ok h
  obtain ⟨moments, hrun, hmid, hmoments⟩ :=
    run_of_rounds hrounds (fun _ _ _ hties => hties.not_exhausted hend) (ready_start hsound)
  obtain ⟨hrests, hattached⟩ := rests_of_lastCall hmid hcall
  exact ⟨hleft, moments, last.2.cast, hrun, hrests, hattached, hmoments⟩

/-! ### Replays that may fail -/

/-- A replay that is ready stays so. -/
def KeepsReady (before after : Replay Stock.catalog Desk) : Prop :=
  before.Ready → after.Ready

instance : Std.Refl KeepsReady := ⟨fun _ => id⟩

instance : Trans KeepsReady KeepsReady KeepsReady := ⟨fun hfirst hsecond h => hsecond (hfirst h)⟩

theorem keepsReady_execute (title : Title Stock.catalog) (declared : Nat) (instruction : Instruction) :
    Step.Along KeepsReady (execute (.group title declared) (groupHost title) instruction) := by
  intro replay hready
  rcases h : (execute (.group title declared) (groupHost title) instruction).outcome replay with
    ⟨error | _, after⟩
  · exact (failsPut_execute title declared instruction replay after error h).ready hready
  · obtain ⟨hstep, hsets⟩ := step_of_execute hready h
    exact ⟨hready.sound.step hstep, hsets⟩

theorem keepsReady_attachRest (index : Nat) :
    Step.Along KeepsReady (attachRest index : ReplayStep Stock.catalog Desk Unit) := by
  intro replay hready
  rcases h : (attachRest index : ReplayStep Stock.catalog Desk Unit).outcome replay with
    ⟨error | _, after⟩
  · exact (failsPut_attachRest index replay after error h).ready hready
  · obtain ⟨_, hafter, _⟩ := rest_of_attachRest hready h
    exact hafter

/-- However the replay of a group ends, the loader that it leaves is sound. -/
theorem sound_of_replay (title : Title Stock.catalog) (declared : Nat) (code : Cursor)
    {loader : Loader Stock.catalog} (hsound : loader.Sound) :
    Loader.Sound ((Loader.replay (.group title declared) (groupHost title) code).outcome loader).2 := by
  have hcall : Step.Along KeepsReady (finish (.group title declared) : ReplayStep Stock.catalog Desk Unit) :=
    Step.Along.get.bind fun _ => .forEach fun index _ => keepsReady_attachRest index
  exact (along_run (keepsReady_execute title declared) hcall code loader (ready_start hsound)).session

end Replay

end Playprint
