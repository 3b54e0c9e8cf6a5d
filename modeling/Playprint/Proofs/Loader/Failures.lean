import Playprint.Proofs.Loader.GroupRun

/-!
What the replay of a group can fail with. A role that is bound is there, and a slot that is not attached has
its role nowhere, so no set ever refuses to take a role and no role is ever missing when it is to be hung.
Reading chunks and byte code fails for reasons of its own.
-/

namespace Playprint

open Step (FailsWith)

/-- Not the refusal of a set to take a role, nor the lack of a role to be hung. -/
def FormatError.Ordinary : FormatError → Prop
  | attachRejected _ | missingRole _ => False
  | _ => True

/-- Not the refusal of a set to take a role, nor the lack of a role to be hung. -/
def LoadError.Ordinary : LoadError → Prop
  | format error => error.Ordinary
  | construction _ => True

/-! ### Reading chunks -/

namespace Stream

theorem failsWith_take (activity : Activity) (count : Nat) :
    FailsWith FormatError.Ordinary (take activity count) := by
  intro stream left error h
  simp only [take, Step.outcome_of] at h
  split at h
  · cases h
  split at h
  · cases h
  · cases h
    trivial

theorem failsWith_ensureAvailable (start count : Nat) :
    FailsWith FormatError.Ordinary (ensureAvailable start count) := by
  intro stream left error h
  simp only [ensureAvailable, Step.outcome_of] at h
  split at h
  · cases h
    trivial
  · cases h

end Stream

namespace Chunk

theorem failsWith_readHeader (order : ByteOrder) :
    FailsWith FormatError.Ordinary (readHeader order) := by
  intro stream left error h
  simp only [readHeader, Step.outcome_of] at h
  split at h
  · cases h
  · cases h
    trivial

theorem failsWith_readPayload (chunk : Chunk) : FailsWith FormatError.Ordinary chunk.readPayload :=
  (Stream.failsWith_ensureAvailable _ _).bind fun _ => (FailsWith.update _).bind fun _ =>
    Stream.failsWith_take _ _

end Chunk

namespace Container

theorem failsWith_onStream {α : Type} {reading : Reading α}
    (h : FailsWith FormatError.Ordinary reading) : FailsWith FormatError.Ordinary (onStream reading) :=
  .on h

theorem failsWith_goto (pos : Nat) : FailsWith FormatError.Ordinary (goto pos) :=
  failsWith_onStream (.update _)

theorem failsWith_ascend (chunk : Chunk) : FailsWith FormatError.Ordinary (ascend chunk) :=
  failsWith_onStream (.update _)

theorem failsWith_expectNext (expected : Tag) : FailsWith FormatError.Ordinary (expectNext expected) := by
  have hdescend : FailsWith FormatError.Ordinary (descend .next none) :=
    FailsWith.get.bind fun container => failsWith_onStream (Chunk.failsWith_readHeader container.order)
  refine hdescend.bind fun chunk => ?_
  split
  · exact .pure _
  · exact (failsWith_ascend _).bind fun _ => .throw trivial

theorem failsWith_tocOffset (index : Nat) : FailsWith FormatError.Ordinary (tocOffset index) := by
  refine FailsWith.get.bind fun container => ?_
  split
  · refine .ofExcept fun error h => ?_
    unfold Toc.offset at h
    split at h
    · cases h
      trivial
    split at h
    · cases h
      trivial
    · cases h
  · exact .throw trivial

theorem failsWith_readChunkAt (index : Nat) (expected : Tag) :
    FailsWith FormatError.Ordinary (readChunkAt index expected) := by
  refine (failsWith_tocOffset index).bind fun offset => (failsWith_goto offset).bind fun _ => ?_
  exact (failsWith_expectNext expected).bind fun chunk =>
    (failsWith_onStream chunk.failsWith_readPayload).closing (failsWith_ascend chunk)

end Container

/-! ### Reading byte code -/

namespace Cursor

theorem failsWith_nextByte : FailsWith FormatError.Ordinary nextByte := by
  intro cursor left error h
  simp only [nextByte, Step.outcome_of] at h
  split at h
  · cases h
    trivial
  · cases h

theorem failsWith_readBytes (count : Nat) : FailsWith FormatError.Ordinary (readBytes count) := by
  intro cursor left error h
  simp only [readBytes, Step.outcome_of] at h
  split at h
  · cases h
    trivial
  · cases h

theorem failsWith_readWord : FailsWith FormatError.Ordinary readWord :=
  FailsWith.get.bind fun _ => (failsWith_readBytes 4).bind fun _ => .pure _

theorem failsWith_position : FailsWith FormatError.Ordinary position :=
  FailsWith.get.bind fun _ => .pure _

theorem ordinary_readIndexFrom {order : ByteOrder} {start value offset : Nat} {rest : Bytes}
    {left : Cursor} {error : FormatError}
    (h : readIndexFrom order start value offset rest = (.error error, left)) : error.Ordinary := by
  fun_induction readIndexFrom order start value offset rest with
  | case1 | case3 =>
      cases h
      trivial
  | case2 => cases h
  | case4 value offset byte rest hlow hsmall ih => exact ih h

theorem failsWith_readIndex : FailsWith FormatError.Ordinary readIndex :=
  fun _ _ _ h => ordinary_readIndexFrom h

end Cursor

theorem Opcode.failsWith_readOperands (op : Opcode) (length : Nat) :
    FailsWith FormatError.Ordinary (op.readOperands length) := by
  cases op with
  | beginActorSet => exact Cursor.failsWith_position.bind fun _ => .throw trivial
  | createActor | setSet | bindRole | parentRole | childRole | setPropertyOffset
  | setPropertyLength | copyMediaRef | createSet => exact Cursor.failsWith_readIndex.map _
  | copyProperty => exact (Cursor.failsWith_readBytes _).map _
  | copyDynamicProperty =>
      exact Cursor.failsWith_readWord.bind fun _ => (Cursor.failsWith_readBytes _).map _
  | copyArrayProperty =>
      refine Cursor.failsWith_readWord.bind fun count => ?_
      split
      · exact FailsWith.bind (.throw trivial) fun _ => (Cursor.failsWith_readBytes _).map _
      · exact (Cursor.failsWith_readBytes _).map _
  | endActorGroup | endSet => exact .pure _

namespace Replay

variable {K : Catalog} {σ α : Type} {script : Script K} {host : Host K σ}

theorem ordinary_roleTarget {replay : Replay K σ} {error : FormatError}
    (h : replay.roleTarget = .error error) : error.Ordinary := by
  unfold roleTarget at h
  split at h
  · cases h
    trivial
  split at h
  · cases h
  · cases h
    trivial

theorem ordinary_permit {op : Opcode} {replay : Replay K σ} {error : FormatError}
    (h : permit script op replay = .error error) : error.Ordinary := by
  cases op with
  | createActor =>
      simp only [permit] at h
      split at h
      · cases h
        trivial
      · cases h
  | bindRole =>
      simp only [permit] at h
      cases htarget : replay.roleTarget with
      | error cause =>
          rw [htarget] at h
          cases h
          exact ordinary_roleTarget htarget
      | ok target =>
          rw [htarget] at h
          cases h
  | _ => cases h

theorem failsWith_fetch (script : Script K) (replay : Replay K σ) :
    FailsWith FormatError.Ordinary (fetch script replay) := by
  refine Cursor.failsWith_position.bind fun offset => Cursor.failsWith_nextByte.bind fun byte => ?_
  split
  · exact .throw trivial
  · exact FailsWith.bind (.ofExcept fun _ => ordinary_permit) fun _ =>
      Opcode.failsWith_readOperands _ _

/-- What no instruction fails with, as long as it finds an invariant, the whole byte code does not either. -/
theorem ordinary_runFrom {I : Replay K σ → Prop}
    (hkeeps : ∀ instruction replay after, I replay →
      (execute script host instruction).outcome replay = (.ok (), after) → I after)
    (hfails : ∀ instruction replay after error, I replay →
      (execute script host instruction).outcome replay = (.error error, after) → error.Ordinary)
    {cursor left : Cursor} {replay after : Replay K σ} {error : LoadError} (hinvariant : I replay)
    (h : runFrom script host cursor replay = (.error error, left, after)) : error.Ordinary := by
  obtain ⟨done, last, hrounds, hbreaks⟩ := breaks_of_runFrom h
  have hlast := hrounds.keeps hkeeps hinvariant
  cases hbreaks with
  | unread hfetch => exact failsWith_fetch script _ _ _ _ hfetch
  | failed hfetch hexecute => exact hfails _ _ _ _ hlast hexecute

/-! ### Instructions -/

theorem failsWith_refuse {error : FormatError} (h : error.Ordinary) :
    FailsWith LoadError.Ordinary (refuse error : ReplayStep K σ α) :=
  .throw h

theorem failsWith_onWorld {ε : Type} {tell : ε → LoadError} (htell : ∀ error, (tell error).Ordinary)
    (step : WorldStep ε K α) : FailsWith LoadError.Ordinary (onWorld tell step : ReplayStep K σ α) :=
  .on (.mapError fun _ _ error _ => htell error)

theorem failsWith_build (step : WorldStep ConstructionError K α) :
    FailsWith LoadError.Ordinary (onWorld .construction step : ReplayStep K σ α) :=
  .on (.mapError fun _ _ _ _ => trivial)

theorem failsWith_slotAt (index : Nat) :
    FailsWith LoadError.Ordinary (slotAt index : ReplayStep K σ (Slot K)) := by
  refine FailsWith.get.bind fun replay => ?_
  dsimp only
  split
  · exact .pure _
  · exact failsWith_refuse trivial

theorem failsWith_assign (script : Script K) (value : Assignment) :
    FailsWith LoadError.Ordinary (assign script value : ReplayStep K σ Unit) := by
  have htell (name : String) (error : PropertyError) :
      LoadError.Ordinary (.format (.propertyRejected name error.message)) := trivial
  refine FailsWith.get.bind fun replay => ?_
  split
  · exact failsWith_refuse trivial
  split
  · refine FailsWith.get.bind fun replay => ?_
    dsimp only
    split
    · exact failsWith_refuse trivial
    · exact (failsWith_onWorld (htell _) _).bind fun _ => .modify _
  · refine FailsWith.get.bind fun replay => ?_
    split
    · exact failsWith_refuse trivial
    · exact failsWith_onWorld (htell _) _

theorem failsWith_createActor (script : Script K) (host : Host K σ) (typeIndex : Nat) :
    FailsWith LoadError.Ordinary (createActor script host typeIndex) := by
  simp only [createActor, refuse_bind]
  refine FailsWith.get.bind fun replay => ?_
  split
  · exact failsWith_refuse trivial
  · refine (failsWith_build _).bind fun actor => FailsWith.bind ?_ fun id =>
      FailsWith.bind (.modify _) fun _ => .modify _
    rintro replay left error ⟨⟩

theorem failsWith_bindRole {script : Script K} {host : Host K σ} (typeIndex : Nat)
    (hload : ∀ index, FailsWith LoadError.Ordinary (host.loadSet index)) :
    FailsWith LoadError.Ordinary (bindRole script host typeIndex) := by
  intro replay left error h
  rw [bindRole, Step.outcome_bind_ok (Step.outcome_get _)] at h
  split at h
  · rename_i cause htarget
    cases h
    exact ordinary_roleTarget htarget
  · rename_i index setIndex htarget
    refine FailsWith.bind (.on (hload setIndex)) (fun set => ?_) replay left error h
    exact (failsWith_slotAt index).bind fun slot =>
      (failsWith_build _).bind fun role => .modify _

/-- Instructions that hang nothing. -/
theorem failsWith_perform {script : Script K} {host : Host K σ}
    (hload : ∀ index, FailsWith LoadError.Ordinary (host.loadSet index)) {instruction : Instruction}
    (hchild : ∀ child, instruction ≠ .childRole child) :
    FailsWith LoadError.Ordinary (perform script host instruction) := by
  cases instruction with
  | createActor typeIndex => exact failsWith_createActor script host typeIndex
  | bindRole typeIndex => exact failsWith_bindRole typeIndex hload
  | childRole child => exact absurd rfl (hchild child)
  | setSet index | parentRole index | setPropertyLength index => exact .modify _
  | setPropertyOffset index =>
      intro replay left error h
      simp only [perform] at h
      split at h
      · rename_i cause hname
        cases h
        simp only [Script.propertyName] at hname
        split at hname <;> cases hname
        trivial
      · cases h
  | copyProperty data | copyDynamicProperty data | copyMediaRef index =>
      exact failsWith_assign script _
  | copyArrayProperty count data => exact FailsWith.get.bind fun _ => failsWith_assign script _
  | createSet typeIndex => exact (failsWith_build _).bind fun _ => .modify _
  | endActorGroup | endSet => exact .pure _

theorem ordinary_of_execute {script : Script K} {host : Host K σ} {instruction : Instruction}
    {replay after : Replay K σ} {error : LoadError}
    (hperform : (perform script host instruction).outcome replay = (.error error, after) →
      error.Ordinary)
    (h : (execute script host instruction).outcome replay = (.error error, after)) :
    error.Ordinary := by
  rw [execute, Step.outcome_bind_ok (Step.outcome_get _)] at h
  split at h
  · rename_i cause hpermit
    cases h
    exact ordinary_permit hpermit
  · exact hperform h

end Replay

/-! ### Loading sets -/

namespace Loader

open Replay (Bare)

variable {K : Catalog} {α : Type}

theorem failsWith_onContainer {step : ContainerStep α} (h : FailsWith FormatError.Ordinary step) :
    FailsWith LoadError.Ordinary (onContainer step : LoadStep K α) :=
  .on (.mapError h)

theorem failsWith_onWorld (step : WorldStep ConstructionError K α) :
    FailsWith LoadError.Ordinary (onWorld step : LoadStep K α) :=
  .on (.mapError fun _ _ _ _ => trivial)

/-- Without slots no role is hung, and none is missing. -/
theorem ordinary_of_execute_set {title : Title Stock.catalog} {instruction : Instruction}
    {replay after : Replay Stock.catalog Desk} {error : LoadError} (hbare : replay.Bare)
    (h : (Replay.execute (.set title) setHost instruction).outcome replay = (.error error, after)) :
    error.Ordinary := by
  apply Replay.ordinary_of_execute _ h
  by_cases hchild : ∃ child, instruction = .childRole child
  · obtain ⟨child, rfl⟩ := hchild
    intro hperform
    simp only [Replay.perform, Step.outcome_bind, Step.outcome_get] at hperform
    split at hperform
    · cases hperform
      trivial
    · rename_i parent hparent
      simp only [Replay.attachChild, Replay.slotAt, Step.outcome_bind, Step.outcome_get,
        hbare.slots] at hperform
      cases hperform
      trivial
  · have hload : ∀ index, FailsWith LoadError.Ordinary
        ((setHost : Host Stock.catalog Desk).loadSet index) := fun _ => .throw trivial
    exact Replay.failsWith_perform hload (fun child heq => hchild ⟨child, heq⟩) replay after error

theorem failsWith_replay_set (title : Title Stock.catalog) (code : Cursor) :
    FailsWith LoadError.Ordinary
      (replay (.set title) setHost code : LoadStep Stock.catalog (Replay Stock.catalog Desk)) := by
  intro loader left error h
  have hkeeps : ∀ instruction (replay after : Replay Stock.catalog Desk), replay.Bare →
      (Replay.execute (.set title) setHost instruction).outcome replay = (.ok (), after) →
        after.Bare := by
    intro instruction replay after hbare hexecute
    exact ((Replay.staysBare_execute title setHost instruction).of_outcome hexecute hbare).1
  rw [replay, Step.outcome_of] at h
  rcases hfrom : Replay.runFrom (.set title) setHost code (.start loader) with ⟨cause | _, last, mid⟩
  · rw [Replay.outcome_run_error hfrom] at h
    obtain ⟨⟨rfl⟩, _⟩ := Prod.mk.inj h
    exact Replay.ordinary_runFrom hkeeps (fun _ _ _ _ => ordinary_of_execute_set)
      (Replay.bare_start loader) hfrom
  · rw [Replay.outcome_run_ok hfrom] at h
    cases h

theorem failsWith_installSet (index : Nat) (created : Option (Nat × SetHandle)) :
    FailsWith LoadError.Ordinary (installSet index created : LoadStep K SetHandle) := by
  cases created with
  | none => exact .throw trivial
  | some created =>
      obtain ⟨typeIndex, set⟩ := created
      simp only [installSet]
      split
      · exact .throw trivial
      refine FailsWith.get.bind fun loader => (failsWith_onWorld _).bind fun _ =>
        FailsWith.get.bind fun loader => ?_
      split
      · rename_i error hinstall
        refine .throw ?_
        unfold SetTable.install at hinstall
        split at hinstall <;> cases hinstall
        trivial
      · exact FailsWith.bind (.modify _) fun _ => .pure _

theorem failsWith_assembleSet (title : Title Stock.catalog) (index : Nat) (chunk : UInt32) :
    FailsWith LoadError.Ordinary (assembleSet title index chunk) := by
  have hgoto (pos : Nat) : FailsWith LoadError.Ordinary
      (onContainer (Container.goto pos) : LoadStep Stock.catalog Unit) :=
    failsWith_onContainer (Container.failsWith_goto pos)
  have hcode : FailsWith LoadError.Ordinary
      (chunkCode chunk.toNat Tag.set : LoadStep Stock.catalog Cursor) :=
    (failsWith_onContainer (Container.failsWith_readChunkAt _ _)).bind fun payload =>
      FailsWith.get.bind fun loader => .pure _
  have hreplay : FailsWith LoadError.Ordinary (replaySet title chunk.toNat) :=
    hcode.bind fun code => (failsWith_replay_set title code).bind fun ended => .pure _
  have hposition : FailsWith LoadError.Ordinary
      (onContainer Container.position : LoadStep Stock.catalog Nat) :=
    failsWith_onContainer (Container.failsWith_onStream (FailsWith.get.bind fun _ => .pure _))
  exact hposition.bind fun saved => (hreplay.closing (hgoto saved)).bind fun created =>
    failsWith_installSet index created

theorem failsWith_loadSet (title : Title Stock.catalog) (index : Nat) :
    FailsWith LoadError.Ordinary (loadSet title index) := by
  intro loader left error h
  rw [loadSet, Step.outcome_bind_ok (Step.outcome_get _)] at h
  dsimp only at h
  split at h
  · rename_i cause hslot
    cases h
    unfold SetTable.slot at hslot
    split at hslot <;> cases hslot
    trivial
  · cases h
  · rw [outcome_buildSet] at h
    exact (failsWith_assembleSet title index _).onFailure _ loader left error h

end Loader

/-! ### Replays of groups -/

namespace Replay

open Loader (groupHost)

variable {title : Title Stock.catalog} {declared : Nat}
  {before after replay : Replay Stock.catalog Desk} {first : Nat}

/-- The role of a slot that is not attached can be hung on the set that the slot is bound to. -/
theorem hanging_of_free {index : Nat} {slot : Slot Stock.catalog} {role : Role Stock.catalog}
    {set : SetHandle} (parent : Option ObjectId) (hready : replay.Ready)
    (hfair : replay.cast.Fair first) (hslot : replay.slots[index]? = some slot)
    (hfree : slot.attached = false) (hrole : slot.record.role = some role)
    (hset : slot.record.binding.map SetBinding.handle = some set) :
    ∃ world, (hanging set parent role.actor.id).outcome replay.session.world = (.ok (), world) := by
  have hmem := List.mem_of_getElem? (slot_cast hslot)
  have hown := hready.sound.role slot.standing hmem
  have hactor : role.actor.id = slot.record.id := by
    simp only [Slot.standing, hrole, hset, Option.map_some] at hown
    exact Option.some.inj hown
  have hexists := hready.sound.set slot.standing hmem set hset
  have hstage : replay.session.world.stage? set = some _ := Array.getElem?_eq_getElem hexists
  refine ⟨_, Stock.outcome_attach hstage fun entry hentry hchild => ?_⟩
  have hattached := (hfair.attached index slot.standing (slot_cast hslot)).mpr
    ⟨set, entry, hentry, hchild.trans hactor⟩
  rw [Slot.standing, hfree] at hattached
  cases hattached

/-- A slot that is bound has a role. -/
theorem role_of_binding {index : Nat} {slot : Slot Stock.catalog} {set : SetHandle}
    (hready : replay.Ready) (hslot : replay.slots[index]? = some slot)
    (hset : slot.record.binding.map SetBinding.handle = some set) :
    ∃ role, slot.record.role = some role := by
  have hown := hready.sound.role slot.standing (List.mem_of_getElem? (slot_cast hslot))
  simp only [Slot.standing, hset, Option.map_some, Option.map_eq_some_iff] at hown
  obtain ⟨role, hrole, _⟩ := hown
  exact ⟨role, hrole⟩

theorem outcome_hang {set : SetHandle} {parent : Option ObjectId} {child : ObjectId}
    {world : World Stock.catalog}
    (h : (hanging set parent child).outcome replay.session.world = (.ok (), world)) :
    (hang set parent child).outcome replay = (.ok (), replay.inWorld world) :=
  onWorld_eq_ok_iff.mpr ⟨world, h, rfl⟩

theorem roleOf_eq {index : Nat} {slot : Slot Stock.catalog} {role : Role Stock.catalog}
    (h : slot.record.role = some role) :
    (roleOf index slot : ReplayStep Stock.catalog Desk _) = pure role := by
  rw [roleOf, h]

theorem ordinary_of_attachChild {parent child : Nat} {error : LoadError} (hready : replay.Ready)
    (hfair : replay.cast.Fair first)
    (h : (attachChild parent child).outcome replay = (.error error, after)) : error.Ordinary := by
  simp only [attachChild, refuse_bind] at h
  rcases Step.outcome_bind_eq_error_iff.mp h with hfails | ⟨upper, mid, hupper, hchild⟩
  · exact failsWith_slotAt parent replay after error hfails
  obtain ⟨hupper, rfl⟩ := slotAt_eq_ok_iff.mp hupper
  rcases Step.outcome_bind_eq_error_iff.mp hchild with hfails | ⟨lower, mid, hlower, hrest⟩
  · exact failsWith_slotAt child _ after error hfails
  obtain ⟨hlower, rfl⟩ := slotAt_eq_ok_iff.mp hlower
  clear h hchild
  split at hrest
  · cases hrest
    trivial
  split at hrest
  · cases hrest
    trivial
  rename_i hfree
  split at hrest
  · cases hrest
    trivial
  rename_i binding hbinding
  split at hrest
  · cases hrest
    trivial
  rename_i hsame
  -- Both slots are bound, so both roles are there, and the child hangs nowhere yet.
  have hsame := Decidable.not_not.mp hsame
  obtain ⟨upperRole, hupperRole⟩ := role_of_binding hready hupper (by rw [hbinding]; rfl)
  obtain ⟨lowerRole, hlowerRole⟩ := role_of_binding hready hlower hsame
  obtain ⟨world, hworld⟩ := hanging_of_free (some upperRole.actor.id) hready hfair hlower
    (Bool.eq_false_iff.mpr hfree) hlowerRole hsame
  rw [roleOf_eq hupperRole, roleOf_eq hlowerRole, pure_bind, pure_bind,
    Step.outcome_bind_ok (outcome_hang hworld)] at hrest
  cases hrest

/-- The last call never fails. -/
theorem outcome_attachRest (index : Nat) (hready : replay.Ready) (hfair : replay.cast.Fair first) :
    ∃ after, (attachRest index).outcome replay = (.ok (), after) := by
  rcases h : (attachRest index : ReplayStep Stock.catalog Desk Unit).outcome replay with
    ⟨error | _, after⟩
  · simp only [attachRest, Step.outcome_bind_ok (Step.outcome_get _)] at h
    split at h
    · rename_i id typeIndex actor role binding hslot
      obtain ⟨world, hworld⟩ : ∃ world, (hanging binding.handle none role.actor.id).outcome
          replay.session.world = (.ok (), world) :=
        hanging_of_free none hready hfair hslot rfl rfl rfl
      rw [Step.outcome_bind_ok (outcome_hang hworld)] at h
      cases h
    · cases h
  · exact ⟨after, rfl⟩

/-- A replay that is ready and whose cast is fair, in a run from identity `first` on. -/
structure Orderly (first : Nat) (replay : Replay Stock.catalog Desk) : Prop where
  ready : replay.Ready
  fair : replay.cast.Fair first

theorem orderly_start {loader : Loader Stock.catalog} (hsound : loader.Sound) :
    Orderly loader.host.objects.nextId (start loader) :=
  ⟨ready_start hsound, (ready_start hsound).sound.fair rfl⟩

theorem Orderly.execute {instruction : Instruction} (horderly : Orderly first before)
    (h : (execute (.group title declared) (groupHost title) instruction).outcome before =
      (.ok (), after)) : Orderly first after := by
  obtain ⟨hstep, hsets⟩ := step_of_execute horderly.ready h
  exact ⟨⟨horderly.ready.sound.step hstep, hsets⟩, horderly.fair.step hstep⟩

theorem Orderly.attachRest {index : Nat} (horderly : Orderly first before)
    (h : (Replay.attachRest index).outcome before = (.ok (), after)) : Orderly first after := by
  obtain ⟨hrest, hready, _⟩ := rest_of_attachRest horderly.ready h
  exact ⟨hready, horderly.fair.rest hrest⟩

theorem Orderly.ordinary {instruction : Instruction} {error : LoadError}
    (horderly : Orderly first before)
    (h : (Replay.execute (.group title declared) (groupHost title) instruction).outcome before =
      (.error error, after)) : error.Ordinary := by
  apply ordinary_of_execute _ h
  by_cases hchild : ∃ child, instruction = .childRole child
  · obtain ⟨child, rfl⟩ := hchild
    intro hperform
    rw [perform, Step.outcome_bind_ok (Step.outcome_get _)] at hperform
    split at hperform
    · cases hperform
      trivial
    · rcases Step.outcome_bind_eq_error_iff.mp hperform with hattach | ⟨_, _, _, ⟨⟩⟩
      exact ordinary_of_attachChild horderly.ready horderly.fair hattach
  · exact failsWith_perform (Loader.failsWith_loadSet title) (fun child heq => hchild ⟨child, heq⟩)
      before after error

/-- After byte code that succeeded every role that is left over finds its place. -/
theorem Orderly.forEach_attachRest {items : List Nat} (horderly : Orderly first before) :
    ∃ after, (Step.forEach items Replay.attachRest).outcome before = (.ok (), after) ∧
      Orderly first after := by
  induction items generalizing before with
  | nil => exact ⟨before, rfl, horderly⟩
  | cons index items ih =>
      obtain ⟨mid, hmid⟩ := outcome_attachRest index horderly.ready horderly.fair
      obtain ⟨after, hafter, hlast⟩ := ih (horderly.attachRest hmid)
      exact ⟨after, (Step.outcome_bind_ok hmid).trans hafter, hlast⟩

theorem Orderly.lastCall (horderly : Orderly first before) :
    ∃ after, (lastCall : ReplayStep Stock.catalog Desk Unit).outcome before = (.ok (), after) ∧
      Orderly first after :=
  horderly.forEach_attachRest

/-- A replay that fails does so in its byte code, before the roles that are left over are hung. -/
theorem runFrom_of_failed {loader left : Loader Stock.catalog} {code : Cursor} {error : LoadError}
    (hsound : loader.Sound)
    (h : (Loader.replay (.group title declared) (groupHost title) code).outcome loader =
      (.error error, left)) :
    ∃ rest after, runFrom (.group title declared) (groupHost title) code (start loader) =
      (.error error, rest, after) ∧ left = after.session := by
  rw [Loader.replay, Step.outcome_of] at h
  rcases hfrom : runFrom (.group title declared) (groupHost title) code (start loader) with
    ⟨cause | _, rest, mid⟩
  · rw [outcome_run_error hfrom] at h
    cases h
    exact ⟨rest, mid, rfl, rfl⟩
  · obtain ⟨_, done, hrounds⟩ := rounds_of_runFrom hfrom
    have hmid : Orderly _ mid := hrounds.keeps (fun _ _ _ => Orderly.execute) (orderly_start hsound)
    obtain ⟨after, hcall, _⟩ := hmid.lastCall
    rw [outcome_run_ok hfrom, show finish (.group title declared) = lastCall from rfl, hcall] at h
    cases h

/-- However a replay fails, it is not for a set that takes no role or for a role that is missing. -/
theorem ordinary_of_replay {loader left : Loader Stock.catalog} {code : Cursor} {error : LoadError}
    (hsound : loader.Sound)
    (h : (Loader.replay (.group title declared) (groupHost title) code).outcome loader =
      (.error error, left)) : error.Ordinary := by
  obtain ⟨_, _, hfrom, _⟩ := runFrom_of_failed hsound h
  exact ordinary_runFrom (fun _ _ _ => Orderly.execute) (fun _ _ _ _ => Orderly.ordinary)
    (orderly_start hsound) hfrom

end Replay

end Playprint
