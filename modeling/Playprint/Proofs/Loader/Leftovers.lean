import Playprint.Proofs.Loader.Failures
import Playprint.Proofs.Loader.History
import Playprint.Proofs.Replay.Added

/-!
What a load that failed leaves on the sets. Roles are hung while byte code runs, on sets that other groups
share, and nothing takes them down again when a later instruction fails. So a failure is seen on the stage;
but all that it adds stands behind what was there before, and belongs to actors of the load that failed. Of a
group it is what the instructions in front of the failure have hung, and nothing if none of them hung a role.
-/

namespace Playprint

/-! ### Replays that fail -/

namespace Replay

open Loader (groupHost)

variable {title : Title Stock.catalog} {declared : Nat} {first last : Cursor × Replay Stock.catalog Desk}
  {set : SetHandle} {entry : Attachment}

/-- From a point of a run on, an instruction that is executed hangs a role on a set, under another one there. -/
def Hangs (title : Title Stock.catalog) (declared : Nat) (first : Cursor × Replay Stock.catalog Desk)
    (set : SetHandle) (entry : Attachment) : Prop :=
  ∃ mid parent child upper lower,
    Ties (.group title declared) (groupHost title) first mid parent child ∧
    mid.slots[parent]? = some upper ∧ mid.slots[child]? = some lower ∧
    upper.record.set? = some set ∧ lower.record.set? = some set ∧
    entry = ⟨some upper.record.id, lower.record.id⟩

theorem hangs_of_tiedAt {moment : Moment} {above below : Standing} (hat : moment.At above below set)
    (htied : TiedAt title declared first moment) :
    Hangs title declared first set ⟨some above.id, below.id⟩ := by
  obtain ⟨mid, hcast, hties⟩ := htied
  obtain ⟨hparent, hchild, hupper, hlower⟩ := hat
  rw [← hcast] at hparent hchild
  obtain ⟨upper, hparent', rfl⟩ := exists_slot hparent
  obtain ⟨lower, hchild', rfl⟩ := exists_slot hchild
  exact ⟨mid, _, _, upper, lower, hties, hparent', hchild', hupper, hlower, rfl⟩

/-- The round that breaks off hangs nothing. -/
theorem Breaks.attachments_eq {after : Replay Stock.catalog Desk} {error : LoadError}
    (h : Breaks (.group title declared) (groupHost title) last error after) (hready : last.2.Ready) :
    after.session.world.attachments = last.2.session.world.attachments := by
  cases h with
  | unread hfetch => rfl
  | failed hfetch hexecute =>
      obtain ⟨_, hwidens⟩ := failsPut_execute title declared _ _ _ _ hexecute
      obtain ⟨_, _, hattachments, _⟩ := hwidens hready.sets
      exact hattachments

/-- A replay that fails has hung what its instructions have hung until then. -/
theorem hung_of_failed {loader left : Loader Stock.catalog} {code : Cursor} {error : LoadError}
    (hsound : loader.Sound)
    (h : (Loader.replay (.group title declared) (groupHost title) code).outcome loader =
      (.error error, left)) (set : SetHandle) :
    ∃ more, left.world.attachments set = loader.world.attachments set ++ more ∧
      ∀ entry ∈ more, Hangs title declared (code, start loader) set entry := by
  obtain ⟨rest, after, hfrom, rfl⟩ := runFrom_of_failed hsound h
  obtain ⟨done, last, hrounds, hbreaks⟩ := breaks_of_runFrom hfrom
  obtain ⟨moments, hrun, hready, hmoments⟩ :=
    run_of_rounds hrounds (fun _ _ _ hties => hties.not_breaks hbreaks) (ready_start hsound)
  obtain ⟨more, hadds, hmade⟩ := Cast.adds_moments hrun set
  refine ⟨more, ?_, fun entry hentry => ?_⟩
  · rw [hbreaks.attachments_eq hready]
    exact hadds.hung
  · obtain ⟨moment, hmoment, upper, lower, hat, rfl⟩ := hmade entry hentry
    exact hangs_of_tiedAt hat ((hmoments moment).mp hmoment)

end Replay

/-! ### Loads that fail -/

namespace Loader

open Replay (Hangs Rounds)

variable {title : Title Stock.catalog} {container : Container} {loader left begun : Loader Stock.catalog}
  {tocIndex declared : Nat} {code : Cursor} {error : LoadError}

/-- The load of the group of a table entry comes to its byte code: the chunk is read, a group of its class is
built, and its actors are counted. -/
def ReachesCode (title : Title Stock.catalog) (tocIndex : Nat) (loader : Loader Stock.catalog)
    (declared : Nat) (code : Cursor) (begun : Loader Stock.catalog) : Prop :=
  ∃ head opened typeIndex rest group,
    (chunkCode tocIndex Tag.grp).outcome loader = (.ok head, opened) ∧
    Cursor.readWord.outcome head = (.ok typeIndex, rest) ∧
    (onWorld (title.newGroup typeIndex.toNat)).outcome opened = (.ok group, begun) ∧
    Cursor.readIndex.outcome rest = (.ok declared, code)

/-- The load of a group executes these instructions one after another, from the first of its byte code on. -/
def Executes (title : Title Stock.catalog) (tocIndex : Nat) (loader : Loader Stock.catalog)
    (done : List Instruction) : Prop :=
  ∃ declared code begun last, ReachesCode title tocIndex loader declared code begun ∧
    Rounds (.group title declared) (groupHost title) (code, .start begun) done last

/-- An instruction that the load of a group executes hangs a role on a set, under another one there. -/
def PutsUnder (title : Title Stock.catalog) (tocIndex : Nat) (loader : Loader Stock.catalog)
    (set : SetHandle) (entry : Attachment) : Prop :=
  ∃ declared code begun, ReachesCode title tocIndex loader declared code begun ∧
    Hangs title declared (code, .start begun) set entry

theorem ReachesCode.still (h : ReachesCode title tocIndex loader declared code begun) :
    Still loader begun := by
  obtain ⟨head, opened, typeIndex, rest, group, hhead, _, hgroup, _⟩ := h
  have hopened : Still loader opened := (still_chunkCode tocIndex Tag.grp).of_outcome hhead
  exact Trans.trans hopened ((still_onWorld (title.quiet_newGroup typeIndex.toNat)).of_outcome hgroup)

/-- Only `childRole` hangs anything. -/
theorem PutsUnder.executes {set : SetHandle} {entry : Attachment}
    (h : PutsUnder title tocIndex loader set entry) :
    ∃ done child, Executes title tocIndex loader done ∧ .childRole child ∈ done := by
  obtain ⟨declared, code, begun, hcode, _, _, child, _, _, hties, _⟩ := h
  obtain ⟨done, last, hrounds, hchild⟩ := hties.exists_rounds
  exact ⟨done, child, ⟨declared, code, begun, last, hcode, hrounds⟩, hchild⟩

/-- The load of a group fails before its byte code or in it. -/
theorem loadGroup_error (h : (loadGroup title tocIndex).outcome loader = (.error error, left)) :
    Still loader left ∨ ∃ declared code begun, ReachesCode title tocIndex loader declared code begun ∧
      (replay (.group title declared) (groupHost title) code).outcome begun = (.error error, left) := by
  rcases Step.outcome_bind_eq_error_iff.mp h with hfails | ⟨head, opened, hhead, hchunk⟩
  · exact .inl ((still_chunkCode tocIndex Tag.grp).of_outcome hfails)
  have hopened : Still loader opened := (still_chunkCode tocIndex Tag.grp).of_outcome hhead
  rcases Step.outcome_bind_eq_error_iff.mp hchunk with hfails | ⟨⟨typeIndex, rest⟩, same, hword, htyped⟩
  · exact .inl (Trans.trans hopened ((still_read _ _).of_outcome hfails))
  obtain ⟨rfl, htype⟩ := read_ok hword
  have hquiet := still_onWorld (title.quiet_newGroup typeIndex.toNat)
  rcases Step.outcome_bind_eq_error_iff.mp htyped with hfails | ⟨group, begun, hgroup, hbuilt⟩
  · exact .inl (Trans.trans hopened (hquiet.of_outcome hfails))
  have hbegun : Still loader begun := Trans.trans hopened (hquiet.of_outcome hgroup)
  rcases Step.outcome_bind_eq_error_iff.mp hbuilt with hfails | ⟨⟨declared, code⟩, same, hindex, hcounted⟩
  · exact .inl (Trans.trans hbegun ((still_read _ _).of_outcome hfails))
  obtain ⟨rfl, hcount⟩ := read_ok hindex
  rcases Step.outcome_bind_eq_error_iff.mp hcounted with hfails | ⟨ended, seated, _, hseat⟩
  · exact .inr ⟨_, _, _, ⟨_, _, _, _, _, hhead, htype, hgroup, hcount⟩, hfails⟩
  · rw [outcome_seat] at hseat
    cases hseat

/-- The load of a group that fails has hung what the instructions it has executed have hung. -/
theorem hung_of_loadGroup (hsound : loader.Sound)
    (h : (loadGroup title tocIndex).outcome loader = (.error error, left)) (set : SetHandle) :
    ∃ more, left.world.attachments set = loader.world.attachments set ++ more ∧
      ∀ entry ∈ more, PutsUnder title tocIndex loader set entry := by
  rcases loadGroup_error h with hstill | ⟨declared, code, begun, hcode, hreplay⟩
  · exact ⟨[], by rw [hstill.2.2.1, List.append_nil], List.forall_mem_nil _⟩
  · obtain ⟨more, hmore, hhangs⟩ :=
      Replay.hung_of_failed (hcode.still.widens.staysSound hsound) hreplay set
    refine ⟨more, ?_, fun entry hentry => ⟨declared, code, begun, hcode, hhangs entry hentry⟩⟩
    rw [hmore, hcode.still.2.2.1]

theorem Reachable.settled (h : Reachable title loader) : ∃ container, Settled title container loader := by
  induction h with
  | start container => exact ⟨container, settled_start⟩
  | serve request _ ih =>
      obtain ⟨container, hsettled⟩ := ih
      exact ⟨container, (hsettled.serve request).1⟩

/-- The role belongs to an actor that was logged between two states of a loader, and the one above it to
none that was logged before. -/
structure LoggedBetween (before after : Loader Stock.catalog) (entry : Attachment) : Prop where
  child : before.host.objects.nextId ≤ entry.child.value
  child' : entry.child.value < after.host.objects.nextId
  parent : ∀ parent ∈ entry.parent, before.host.objects.nextId ≤ parent.value

/-- What a request hangs on a set that was there before, whether it is served or fails, belongs to actors
of its own. -/
theorem Settled.adds (h : Settled title container loader) (request : Request) {index : Nat}
    {set : SetHandle} (hset : loader.host.sets.cached? index = some set) :
    ∃ added, (Loader.serve title loader request).world.attachments set =
        loader.world.attachments set ++ added ∧
      ∀ entry ∈ added, loader.LoggedBetween (Loader.serve title loader request) entry := by
  have hgrows : ∃ fresh : Loader Stock.catalog,
      loader.GrowsLike fresh (Loader.serve title loader request) := by
    rw [← respond_serve]
    exact ⟨_, (h.alongside.respond request).states
      (fun _ _ _ _ hstates => hstates.1.twin.attachments) fun _ _ hstates => hstates.twin.attachments⟩
  obtain ⟨fresh, hgrows⟩ := hgrows
  obtain ⟨hserved, honward⟩ := h.serve request
  have hadded := hgrows index
  rw [attachmentsAt_of_some hset, attachmentsAt_of_some (honward.grown index set hset)] at hadded
  refine ⟨_, hadded, fun entry hentry => ⟨?_, ?_, ?_⟩⟩
  · obtain ⟨old, _, rfl⟩ := List.mem_map.mp hentry
    rw [h.kept.counted]
    exact Nat.le_add_right _ _
  · exact hserved.sound.child set entry (hadded ▸ List.mem_append_right _ hentry)
  · obtain ⟨old, _, rfl⟩ := List.mem_map.mp hentry
    intro parent hparent
    obtain ⟨above, _, rfl⟩ := Option.mem_map.mp hparent
    rw [h.kept.counted]
    exact Nat.le_add_right _ _

/-- The pair, with a byte behind its instructions that is none of a group. -/
def tornPair : Master := stageAnd (twoActors (Replay.tiedPair []) ++ [Opcode.beginActorSet.byte])

theorem load_tornPair : Container.load tornPair.encode = .ok tornPair.loaded :=
  Master.load_eq_loaded (by simp [tornPair, stageAnd]) (by decide +kernel)

/-- The loader of the pair after its set was built. -/
def beforePair : Loader Stock.catalog := after pairTitle tornPair.loaded [.set 0]

theorem tornPair_fails :
    ∃ error left, (loadGroup pairTitle 1).outcome beforePair = (.error error, left) ∧
      beforePair.host.sets.cached? 0 = some ⟨0⟩ ∧ beforePair.world.attachments ⟨0⟩ = [] ∧
      left.world.attachments ⟨0⟩ = [⟨some ⟨0⟩, ⟨1⟩⟩] := by
  have hgroup : ((loadGroup pairTitle 1).outcome beforePair).1.toOption.isSome = false := by
    decide +kernel
  have hleft : ((loadGroup pairTitle 1).outcome beforePair).2.world.attachments ⟨0⟩ =
      [⟨some ⟨0⟩, ⟨1⟩⟩] := by
    decide +kernel
  rcases hend : (loadGroup pairTitle 1).outcome beforePair with ⟨error | group, left⟩ <;>
    rw [hend] at hgroup hleft
  · exact ⟨error, left, rfl, by decide +kernel, by decide +kernel, hleft⟩
  · cases hgroup

end Loader

end Playprint
