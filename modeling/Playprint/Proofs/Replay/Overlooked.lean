import Playprint.Proofs.Over
import Playprint.Proofs.Replay.Effects
import Playprint.Proofs.Replay.Paired

/-!
What a replay does without looking at its host. Instructions and the last call depend on the tables and on the
world; the host is asked for sets and for identities and for nothing else. So a part of what the host keeps that
it overlooks itself is overlooked by the whole replay. Main statement: byte code comes to the same slots and to
the same set, or fails for the same cause, however two hosts differ in such a part.
-/

namespace Playprint

open Step (Over Paired Respects Same)

variable {K : Catalog} {σ γ α : Type}

/-- The session with a part of what its host keeps in another state. -/
def Session.withPart (put : γ → σ → σ) (part : γ) (session : Session K σ) : Session K σ :=
  { session with host := put part session.host }

/-- A host that comes to the same end however a part of what it keeps differs. -/
structure Host.Overlooks (put : γ → σ → σ) (R : γ → γ → Prop) (host : Host K σ) : Prop where
  loadSet : ∀ index, Step.Respects (Session.withPart put) R (host.loadSet index)
  register : ∀ typeIndex className part kept,
    host.register typeIndex className (put part kept) =
      ((host.register typeIndex className kept).1, put part (host.register typeIndex className kept).2)

namespace Replay

/-- The replay with that part in another state. -/
def withPart (put : γ → σ → σ) (part : γ) (replay : Replay K σ) : Replay K σ :=
  { replay with session := replay.session.withPart put part }

variable {put : γ → σ → σ} {R : γ → γ → Prop} {script : Script K} {host : Host K σ}

theorem respects_refuse (error : FormatError) :
    Respects (withPart put) R (refuse error : ReplayStep K σ α) := .throw _

theorem respects_onWorld {ε : Type} (tell : ε → LoadError) (step : WorldStep ε K α) :
    Respects (withPart put) R (onWorld tell step : ReplayStep K σ α) :=
  .on_apart _ (fun _ _ => rfl) fun _ _ _ => rfl

theorem respects_onSession {step : SessionStep K σ α} (h : Respects (Session.withPart put) R step) :
    Respects (withPart put) R (onSession step) :=
  h.on_around (fun _ _ => rfl) fun _ _ _ _ => rfl

theorem respects_setRegisters (f : Registers → Registers) :
    Respects (withPart put) R (setRegisters f : ReplayStep K σ Unit) :=
  .modify fun _ _ => rfl

theorem respects_setSlot (index : Nat) (f : Slot K → Slot K) :
    Respects (withPart put) R (setSlot index f : ReplayStep K σ Unit) :=
  .modify fun _ _ => rfl

theorem respects_slotAt (index : Nat) :
    Respects (withPart put) R (slotAt index : ReplayStep K σ (Slot K)) := by
  refine .get_bind (fun _ _ => rfl) fun replay => ?_
  dsimp only
  split
  · exact .pure _
  · exact respects_refuse _

theorem respects_roleOf (index : Nat) (slot : Slot K) :
    Respects (withPart put) R (roleOf index slot : ReplayStep K σ (Role K)) := by
  unfold roleOf
  split
  · exact .pure _
  · exact respects_refuse _

theorem respects_attachChild (parent child : Nat) :
    Respects (withPart put) R (attachChild parent child : ReplayStep K σ Unit) := by
  simp only [attachChild, refuse_bind]
  refine (respects_slotAt parent).bind fun upper => (respects_slotAt child).bind fun lower => ?_
  split
  · exact respects_refuse _
  split
  · exact respects_refuse _
  split
  · exact respects_refuse _
  split
  · exact respects_refuse _
  exact (respects_roleOf parent upper).bind fun _ => (respects_roleOf child lower).bind fun _ =>
    (respects_onWorld _ _).bind fun _ => respects_setSlot _ _

theorem respects_attachRest (index : Nat) :
    Respects (withPart put) R (attachRest index : ReplayStep K σ Unit) := by
  refine .get_bind (fun _ _ => rfl) fun replay => ?_
  split
  · exact (respects_onWorld _ _).bind fun _ => respects_setSlot _ _
  · exact .pure _

theorem respects_finish (script : Script K) :
    Respects (withPart put) R (finish script : ReplayStep K σ Unit) := by
  unfold finish
  split
  · exact .get_bind (fun _ _ => rfl) fun replay => .forEach respects_attachRest
  · exact .pure _

theorem respects_createActor (h : host.Overlooks put R) (script : Script K) (typeIndex : Nat) :
    Respects (withPart put) R (createActor script host typeIndex) := by
  simp only [createActor, refuse_bind]
  refine .get_bind (fun _ _ => rfl) fun replay => ?_
  split
  · exact respects_refuse _
  refine (respects_onWorld _ _).bind fun actor => .bind (respects_onSession ?register) fun id =>
    .bind (.modify fun _ _ => rfl) fun _ => respects_setRegisters _
  case register =>
    rintro _ _ ⟨base, one, other, hone, rfl, rfl⟩
    have hone' := h.register typeIndex actor.className one base.host
    have hother' := h.register typeIndex actor.className other base.host
    refine .ok ⟨?_, ⟨(host.register typeIndex actor.className base.host).2, base.world⟩, one, other,
      hone, ?_, ?_⟩
    · exact (congrArg Prod.fst hone').trans (congrArg Prod.fst hother').symm
    · exact congrArg (fun result => (⟨result.2, base.world⟩ : Session K σ)) hone'
    · exact congrArg (fun result => (⟨result.2, base.world⟩ : Session K σ)) hother'

theorem respects_bindRole (h : host.Overlooks put R) (script : Script K) (typeIndex : Nat) :
    Respects (withPart put) R (bindRole script host typeIndex) := by
  refine .get_bind (fun _ _ => rfl) fun replay => ?_
  split
  · exact respects_refuse _
  · exact (respects_onSession (h.loadSet _)).bind fun set => (respects_slotAt _).bind fun slot =>
      (respects_onWorld _ _).bind fun role => respects_setSlot _ _

theorem respects_assign (script : Script K) (value : Assignment) :
    Respects (withPart put) R (assign script value : ReplayStep K σ Unit) := by
  refine .get_bind (fun _ _ => rfl) fun replay => ?_
  split
  · exact respects_refuse _
  split
  · refine .get_bind (fun _ _ => rfl) fun replay => ?_
    dsimp only
    split
    · exact respects_refuse _
    · exact (respects_onWorld _ _).bind fun _ => respects_setSlot _ _
  · refine .get_bind (fun _ _ => rfl) fun replay => ?_
    split
    · exact respects_refuse _
    · exact respects_onWorld _ _

theorem respects_perform (h : host.Overlooks put R) (script : Script K) (instruction : Instruction) :
    Respects (withPart put) R (perform script host instruction) := by
  cases instruction with
  | createActor typeIndex => exact respects_createActor h script typeIndex
  | bindRole typeIndex => exact respects_bindRole h script typeIndex
  | setSet index | parentRole index | setPropertyLength index =>
      simp only [perform]
      exact respects_setRegisters _
  | childRole child =>
      refine .get_bind (fun _ _ => rfl) fun replay => ?_
      split
      · exact respects_refuse _
      · exact (respects_attachChild _ child).bind fun _ => respects_setRegisters _
  | setPropertyOffset index =>
      simp only [perform]
      split
      · exact respects_refuse _
      · exact respects_setRegisters _
  | copyProperty data | copyDynamicProperty data | copyMediaRef index => exact respects_assign script _
  | copyArrayProperty count data =>
      exact .get_bind (fun _ _ => rfl) fun replay => respects_assign script _
  | createSet typeIndex => exact (respects_onWorld _ _).bind fun set => .modify fun _ _ => rfl
  | endActorGroup | endSet => exact .pure _

theorem respects_execute (h : host.Overlooks put R) (script : Script K) (instruction : Instruction) :
    Respects (withPart put) R (execute script host instruction) := by
  refine .get_bind (fun _ _ => rfl) fun replay => ?_
  split
  · exact respects_refuse _
  · exact respects_perform h script instruction

/-- Byte code comes to the same end, and to the same slots and set. -/
theorem paired_overlooked (h : host.Overlooks put R) (script : Script K) (code : Cursor) :
    Paired (Over (Session.withPart put) R)
      (fun ended ended' left left' => ended.records = ended'.records ∧ ended.created = ended'.created ∧
        Over (Session.withPart put) R left left')
      (Over (Session.withPart put) R) (Loader.replay script host code) (Loader.replay script host code) := by
  have hsession {s t : Replay K σ} (h : Over (withPart put) R s t) :
      Over (Session.withPart put) R s.session t.session := by
    obtain ⟨base, one, other, hone, rfl, rfl⟩ := h
    exact ⟨base.session, one, other, hone, rfl, rfl⟩
  rintro _ _ ⟨base, one, other, hone, rfl, rfl⟩
  have hstart : Over (withPart put) R (start (base.withPart put one)) (start (base.withPart put other)) :=
    ⟨start base, one, other, hone, rfl, rfl⟩
  refine (matched_replay ?_ (fun instruction => (respects_execute h script instruction).states)
    (fun _ _ => id) (respects_finish script).states code hstart).mono ?_ ?_
  · rintro _ _ ⟨base, one, other, _, rfl, rfl⟩
    exact fetch_congr (fun _ => rfl) rfl
  · rintro ended ended' _ _ ⟨hover, rfl, rfl⟩
    have hleft := hsession hover
    obtain ⟨base, one, other, _, rfl, rfl⟩ := hover
    exact ⟨rfl, rfl, hleft⟩
  · rintro _ _ ⟨ended, ended', hover, rfl, rfl⟩
    exact hsession hover

end Replay

end Playprint
