import Playprint.Proofs.Loader.InPlace
import Playprint.Proofs.Loader.Tally

/-!
The log of actors. Whatever a loader is asked for, and whether it is served or not, new actors come to the end of
the log, so that an actor stands where its identity says; and the bytes of the container stay as they are.
-/

namespace Playprint

open Step (Along)
open Container (Agree)

namespace ObjectLog

variable {before mid after log : ObjectLog}

/-- Every actor has its place in the log for its identity. -/
structure Numbered (log : ObjectLog) : Prop where
  size : log.nextId = log.objects.size
  id : ∀ (k : Nat) object, log.objects[k]? = some object → object.id = ⟨k⟩

theorem numbered_empty : empty.Numbered :=
  ⟨rfl, fun _ _ hobject => nomatch hobject⟩

theorem Numbered.register (h : log.Numbered) (typeIndex : Nat) (className : String) :
    (log.register typeIndex className).2.Numbered where
  size := by
    rw [ObjectLog.register, Array.size_push, h.size]
  id k object hobject := by
    rw [ObjectLog.register, Array.getElem?_push, ← h.size] at hobject
    split at hobject
    · rename_i hlast
      cases hobject
      rw [hlast]
    · exact h.id k object hobject

/-- What was logged keeps its place, and what comes after it is numbered on. -/
structure Grows (before after : ObjectLog) : Prop where
  numbered : before.Numbered → after.Numbered
  kept : ∀ (k : Nat) object, before.objects[k]? = some object → after.objects[k]? = some object

theorem Grows.refl (log : ObjectLog) : Grows log log := ⟨id, fun _ _ => id⟩

theorem Grows.trans (hfirst : Grows before mid) (hsecond : Grows mid after) : Grows before after :=
  ⟨fun h => hsecond.numbered (hfirst.numbered h),
    fun k object h => hsecond.kept k object (hfirst.kept k object h)⟩

theorem grows_register (log : ObjectLog) (typeIndex : Nat) (className : String) :
    Grows log (log.register typeIndex className).2 where
  numbered h := h.register typeIndex className
  kept k object hobject := by
    have hlt := (Array.getElem?_eq_some_iff.mp hobject).1
    rw [ObjectLog.register, Array.getElem?_push, if_neg (Nat.ne_of_lt hlt), hobject]

end ObjectLog

/-- The same bytes and table of contents, and at most more actors in the log. -/
structure Desk.Enlarged (before after : Desk) : Prop where
  agree : Agree before.container after.container
  log : before.objects.Grows after.objects

namespace Desk

variable {before mid after : Desk}

theorem Enlarged.refl (desk : Desk) : Enlarged desk desk := ⟨.refl _, .refl _⟩

theorem Enlarged.trans (hfirst : Enlarged before mid) (hsecond : Enlarged mid after) : Enlarged before after :=
  ⟨hfirst.agree.trans hsecond.agree, hfirst.log.trans hsecond.log⟩

end Desk

theorem Loader.InPlace.enlarged {index : Nat} {before after : Loader Stock.catalog}
    {answer : Except LoadError SetHandle} (h : InPlace index before answer after) :
    before.host.Enlarged after.host := by
  refine ⟨?_, ?_⟩
  · rw [h.container]
    exact .refl _
  · rw [h.objects]
    exact .refl _

/-! ### Replays -/

namespace Replay

open Loader (groupHost)

variable {before after : Replay Stock.catalog Desk}

/-- What a replay does to the desk of its loader. -/
def Enlarges (before after : Replay Stock.catalog Desk) : Prop :=
  before.session.host.Enlarged after.session.host

instance : Std.Refl Enlarges := ⟨fun _ => .refl _⟩

instance : Trans Enlarges Enlarges Enlarges := ⟨Desk.Enlarged.trans⟩

theorem enlarges_of_host (h : after.session.host = before.session.host) : Enlarges before after := by
  rw [Enlarges, h]
  exact .refl _

theorem enlarges_onWorld {ε α : Type} (tell : ε → LoadError) (step : WorldStep ε Stock.catalog α) :
    Along Enlarges (onWorld tell step) :=
  fun _ => enlarges_of_host rfl

theorem enlarges_setRegisters (f : Registers → Registers) : Along Enlarges (setRegisters f) :=
  fun _ => enlarges_of_host rfl

theorem enlarges_setSlot (index : Nat) (f : Slot Stock.catalog → Slot Stock.catalog) :
    Along Enlarges (setSlot index f) :=
  fun _ => enlarges_of_host rfl

theorem enlarges_loadSet (title : Title Stock.catalog) (index : Nat) :
    Along Enlarges (onSession (Loader.loadSet title index)) :=
  fun replay => (Loader.inPlace_loadSet title index replay.session).enlarged

theorem enlarges_createActor (title : Title Stock.catalog) (declared typeIndex : Nat) :
    Along Enlarges (createActor (.group title declared) (groupHost title) typeIndex) := by
  refine Along.get.bind fun replay => ?_
  split
  · exact .throw _
  refine (enlarges_onWorld _ _).bind fun actor => Along.bind (fun replay => ?_) fun id =>
    Along.bind (fun _ => enlarges_of_host rfl) fun _ => enlarges_setRegisters _
  exact ⟨.refl _, ObjectLog.grows_register replay.session.host.objects typeIndex actor.className⟩

theorem enlarges_bindRole (title : Title Stock.catalog) (declared typeIndex : Nat) :
    Along Enlarges (bindRole (.group title declared) (groupHost title) typeIndex) := by
  refine Along.get.bind fun replay => ?_
  split
  · exact .throw _
  · exact (enlarges_loadSet title _).bind fun set => (along_slotAt _).bind fun slot =>
      (enlarges_onWorld _ _).bind fun role => enlarges_setSlot _ _

theorem enlarges_attachChild (parent child : Nat) : Along Enlarges (attachChild parent child) := by
  refine (along_slotAt _).bind fun upper => (along_slotAt _).bind fun lower => ?_
  simp only [refuse_bind]
  split
  · exact .throw _
  split
  · exact .throw _
  split
  · exact .throw _
  split
  · exact .throw _
  · exact (along_roleOf _ _).bind fun upperRole => (along_roleOf _ _).bind fun lowerRole =>
      (enlarges_onWorld _ _).bind fun _ => enlarges_setSlot _ _

theorem enlarges_assign (script : Script Stock.catalog) (value : Assignment) :
    Along Enlarges (assign script value) :=
  (along_assign script value).mono fun _ _ hsettled =>
    enlarges_of_host (congrArg (fun settled => settled.2.2.2) hsettled)

theorem enlarges_perform (title : Title Stock.catalog) (declared : Nat) (instruction : Instruction) :
    Along Enlarges (perform (.group title declared) (groupHost title) instruction) := by
  cases instruction with
  | createActor typeIndex => exact enlarges_createActor title declared typeIndex
  | bindRole typeIndex => exact enlarges_bindRole title declared typeIndex
  | childRole child =>
      refine Along.get.bind fun replay => ?_
      split
      · exact .throw _
      · exact (enlarges_attachChild _ child).bind fun _ => enlarges_setRegisters _
  | setSet index | parentRole index | setPropertyLength index => exact enlarges_setRegisters _
  | setPropertyOffset index =>
      simp only [perform]
      split
      · exact .throw _
      · exact enlarges_setRegisters _
  | copyProperty data | copyDynamicProperty data | copyMediaRef index => exact enlarges_assign _ _
  | copyArrayProperty count data => exact Along.get.bind fun _ => enlarges_assign _ _
  | createSet typeIndex => exact (enlarges_onWorld _ _).bind fun set => fun _ => enlarges_of_host rfl
  | endActorGroup | endSet => exact .pure _

theorem enlarges_execute (title : Title Stock.catalog) (declared : Nat) (instruction : Instruction) :
    Along Enlarges (execute (.group title declared) (groupHost title) instruction) := by
  refine Along.get.bind fun replay => ?_
  split
  · exact .throw _
  · exact enlarges_perform title declared instruction

theorem enlarges_attachRest (index : Nat) : Along Enlarges (attachRest index) := by
  refine Along.get.bind fun replay => ?_
  split
  · exact (enlarges_onWorld _ _).bind fun _ => enlarges_setSlot _ _
  · exact .pure _

end Replay

/-! ### Loaders -/

namespace Loader

variable {before after : Loader Stock.catalog}

/-- What a load does to the desk of its loader. -/
def Enlarges (before after : Loader Stock.catalog) : Prop :=
  before.host.Enlarged after.host

instance : Std.Refl Enlarges := ⟨fun _ => .refl _⟩

instance : Trans Enlarges Enlarges Enlarges := ⟨Desk.Enlarged.trans⟩

theorem Handled.enlarges (h : Handled before after) : Enlarges before after := by
  obtain ⟨_, hagree, rfl⟩ := h
  exact ⟨hagree, .refl _⟩

theorem enlarges_replay (title : Title Stock.catalog) (declared : Nat) (code : Cursor) :
    Along Enlarges (replay (.group title declared) (groupHost title) code) := by
  have hcall : Along Replay.Enlarges (Replay.finish (.group title declared)) :=
    Along.get.bind fun _ => .forEach fun index _ => Replay.enlarges_attachRest index
  exact fun loader => Replay.along_run (Replay.enlarges_execute title declared) hcall code loader

theorem carried_enlarges (title : Title Stock.catalog) : Carried title Enlarges where
  chunk tocIndex tag := (handled_chunkCode tocIndex tag).mono fun _ _ => Handled.enlarges
  world _ _ _ := .refl _
  around _ _ := ⟨.refl _, .refl _⟩
  set index loader := (inPlace_loadSet title index loader).enlarged
  group declared code := enlarges_replay title declared code
  mediaRef tocIndex := (handled_loadMediaRef title tocIndex).mono fun _ _ => Handled.enlarges

theorem enlarges_serves (title : Title Stock.catalog) (loader : Loader Stock.catalog) (requests : List Request) :
    Enlarges loader (requests.foldl (serve title) loader) := by
  induction requests generalizing loader with
  | nil => exact .refl _
  | cons request rest ih => exact ((carried_enlarges title).serve loader request).trans (ih _)

end Loader

end Playprint
