import Playprint.Proofs.Loader.Alone
import Playprint.Proofs.Replay.Overlooked

/-!
What a loader does without looking at its container. Instructions, roles, scopes and the initialisation of
objects depend on the tables and on the world; the container is asked for chunks and for nothing else. So what
holds of two containers side by side while chunks are read, holds of the two loaders over them.
-/

namespace Playprint

open Step (Over Paired Respects Same)

variable {K : Catalog} {R : Container → Container → Prop} {α : Type}

/-- A host that looks at the container only to load sets, and then comes to the same end. -/
structure Host.Respects (R : Container → Container → Prop) (host : Host K Desk) : Prop where
  loadSet : ∀ index, Step.Respects Loader.withContainer R (host.loadSet index)
  register : ∀ typeIndex className container (desk : Desk),
    host.register typeIndex className { desk with container } =
      ((host.register typeIndex className desk).1,
        { (host.register typeIndex className desk).2 with container })

/-- Byte code comes to the same end, and to the same slots and set. -/
theorem Replay.paired_replay {host : Host K Desk} (h : host.Respects R) (script : Script K) (code : Cursor) :
    Paired (Over Loader.withContainer R)
      (fun ended ended' left left' => ended.records = ended'.records ∧ ended.created = ended'.created ∧
        Over Loader.withContainer R left left')
      (Over Loader.withContainer R) (Loader.replay script host code) (Loader.replay script host code) :=
  have hoverlooks : host.Overlooks (fun container (desk : Desk) => { desk with container }) R :=
    ⟨h.loadSet, h.register⟩
  paired_overlooked hoverlooks script code

/-! ### Loaders -/

namespace Loader

theorem respects_onWorld (step : WorldStep ConstructionError K α) :
    Respects withContainer R (onWorld step : LoadStep K α) :=
  .on_apart _ (fun _ _ => rfl) fun _ _ _ => rfl

theorem over_onContainer {β : Type} {E : Container → Container → Prop}
    {S : α → β → Container → Container → Prop} {first : ContainerStep α} {second : ContainerStep β}
    (h : Paired R S E first second) :
    Paired (Over withContainer R) (fun a b => Over withContainer (S a b)) (Over withContainer E)
      (onContainer first : LoadStep K α) (onContainer second) :=
  h.mapError.over_part (fun _ _ => rfl) fun _ _ _ => rfl

theorem same_onContainer {Q E : Container → Container → Prop} {step : ContainerStep α}
    (h : Paired R (Same Q) E step step) :
    Paired (Over withContainer R) (Same (Over withContainer Q)) (Over withContainer E)
      (onContainer step : LoadStep K α) (onContainer step) :=
  (over_onContainer h).mono (fun _ _ => id) (fun _ _ _ _ => Over.and) fun _ _ => id

theorem respects_updateDesk {f : Desk → Desk}
    (h : ∀ container desk, f { desk with container } = { f desk with container }) :
    Respects withContainer R (updateDesk f : LoadStep K Unit) :=
  .modify fun container loader =>
    congrArg (fun desk => (⟨desk, loader.world⟩ : Loader K)) (h container loader.host)

theorem respects_initContext : Respects withContainer R (initContext : LoadStep K InitContext) :=
  .get_bind (fun _ _ => rfl) fun _ => .pure _

/-- Scopes are entered and left alike. -/
theorem over_within {enter : Surroundings SetHandle String →
      Scope SetHandle String × Surroundings SetHandle String} {body body' : LoadStep K α}
    (h : Paired (Over withContainer R) (Same (Over withContainer R)) (Over withContainer R) body body') :
    Paired (Over withContainer R) (Same (Over withContainer R)) (Over withContainer R)
      (within enter body) (within enter body') := by
  apply Paired.get_bind
  rintro _ _ ⟨base, one, other, hone, rfl, rfl⟩
  have hscope := (respects_updateDesk (f := fun desk => { desk with around := (enter base.host.around).2 })
    fun _ _ => rfl).bind_same fun _ => h.closing_same (respects_updateDesk
      (f := fun desk => { desk with around := desk.around.leave (enter base.host.around).1 }) fun _ _ => rfl)
  exact hscope _ _ ⟨base, one, other, hone, rfl, rfl⟩

theorem respects_addMember (group : Group K) (record : ActorRecord K) :
    Respects withContainer R (addMember group record) := by
  refine .bind (over_within ?_) fun state => (respects_onWorld _).bind fun joined => .pure _
  exact respects_initContext.bind fun context => respects_onWorld _

theorem respects_addMembers (records : List (ActorRecord K)) :
    ∀ group : Group K, Respects withContainer R (addMembers group records) := by
  induction records with
  | nil => exact fun _ => .pure _
  | cons record rest ih => exact fun group => (respects_addMember group record).bind fun _ => ih _

theorem respects_installSet (index : Nat) (created : Option (Nat × SetHandle)) :
    Respects withContainer R (installSet index created : LoadStep K SetHandle) := by
  unfold installSet
  split
  · exact .throw _
  rename_i typeIndex set
  split
  · exact Step.Respects.throw (LoadError.format (.setNotCreated index))
  refine .get_bind (fun _ _ => rfl) fun loader => (respects_onWorld _).bind fun _ => ?_
  refine .get_bind (fun _ _ => rfl) fun loader => ?_
  split
  · exact .throw _
  · exact (respects_updateDesk fun _ _ => rfl).bind fun _ => .pure _

end Loader

end Playprint
