import Playprint.Proofs.Loader.Alongside
import Playprint.Proofs.Replay.Overlooked

/-!
The setting of a load: the container it reads and the set and the scene that are around it. Stock classes see of
their surroundings only the set that their own actor is bound to, and every scope that a load enters is left. So
a load comes to the same end in any surroundings and leaves them as they were, and where two containers are read
alike it does not matter in which of them it reads.
-/

namespace Playprint

open Step (Over Paired Respects Same)

/-- What a load finds outside the tables and the world. -/
structure Setting where
  container : Container
  around : Surroundings SetHandle String

/-- What the loader keeps, in another setting. -/
def Desk.inSetting (setting : Setting) (desk : Desk) : Desk :=
  { desk with container := setting.container, around := setting.around }

/-- Two settings with containers that are related and with certain surroundings. -/
structure Setting.Beside (C : Container → Container → Prop) (around around' : Surroundings SetHandle String)
    (one other : Setting) : Prop where
  container : C one.container other.container
  around : one.around = around
  around' : other.around = around'

/-- Containers of which the same is read, also after going back to where they stood. -/
structure Container.ReadAlike (C : Container → Container → Prop) : Prop where
  order : ∀ one other, C one other → one.order = other.order
  readChunkAt : ∀ index tag, Paired C (Same C) C (readChunkAt index tag) (readChunkAt index tag)
  goBack : ∀ one other, C one other → ∀ later later', C later later' →
    C (later.moved one.stream.pos) (later'.moved other.stream.pos)

namespace Container

theorem readAlike_eq : ReadAlike Eq where
  order _ _ := congrArg Container.order
  readChunkAt _ _ := .refl _
  goBack := by
    rintro one _ rfl later _ rfl
    rfl

/-- One container, standing at two positions. -/
theorem readAlike_apart (container : Container) : ReadAlike (Apart container container) where
  order := by
    rintro _ _ ⟨pos, pos', rfl, rfl⟩
    rfl
  readChunkAt := paired_readChunkAt (.refl container)
  goBack := by
    rintro _ _ ⟨pos, pos', rfl, rfl⟩ _ _ ⟨_, _, rfl, rfl⟩
    exact ⟨pos, pos', rfl, rfl⟩

end Container

namespace Loader

variable {C : Container → Container → Prop} {around around' : Surroundings SetHandle String}
  {title : Title Stock.catalog} {α : Type}

/-- The loader in another setting. -/
def inSetting (setting : Setting) (loader : Loader Stock.catalog) : Loader Stock.catalog :=
  { loader with host := loader.host.inSetting setting }

/-- Two loaders that are the same but for their settings. -/
abbrev Across (C : Container → Container → Prop) (around around' : Surroundings SetHandle String) :
    Loader Stock.catalog → Loader Stock.catalog → Prop :=
  Over inSetting (Setting.Beside C around around')

/-- From two such settings the step comes to the same end, and leaves two such settings. -/
abbrev Overlooks (C : Container → Container → Prop) (around around' : Surroundings SetHandle String)
    (step : LoadStep Stock.catalog α) : Prop :=
  Respects inSetting (Setting.Beside C around around') step

/-! ### Sets -/

theorem overlooks_onContainer {step : ContainerStep α} (h : Paired C (Same C) C step step) :
    Overlooks C around around' (onContainer step) := by
  rintro _ _ ⟨base, one, other, hone, rfl, rfl⟩
  refine Paired.on (h.mapError one.container other.container hone.container) ?_ ?_
  · rintro a b left left' ⟨rfl, hleft⟩
    exact ⟨rfl, base, ⟨left, one.around⟩, ⟨left', other.around⟩, ⟨hleft, hone.around, hone.around'⟩, rfl, rfl⟩
  · intro left left' hleft
    exact ⟨base, ⟨left, one.around⟩, ⟨left', other.around⟩, ⟨hleft, hone.around, hone.around'⟩, rfl, rfl⟩

theorem overlooks_onWorld (step : WorldStep ConstructionError Stock.catalog α) :
    Overlooks C around around' (onWorld step) :=
  .on_apart _ (fun _ _ => rfl) fun _ _ _ => rfl

theorem overlooks_read (step : CursorStep α) (cursor : Cursor) :
    Overlooks C around around' (read step cursor) :=
  (blind_read step cursor).paired

theorem overlooks_chunkCode (hC : Container.ReadAlike C) (tocIndex : Nat) (tag : Tag) :
    Overlooks C around around' (chunkCode tocIndex tag) := by
  refine Respects.bind (overlooks_onContainer (hC.readChunkAt tocIndex tag)) fun payload => ?_
  apply Paired.get_bind
  rintro _ _ ⟨base, one, other, hone, rfl, rfl⟩
  refine .ok ⟨?_, base, one, other, hone, rfl, rfl⟩
  exact congrArg (fun order => Cursor.ofBytes order payload) (hC.order _ _ hone.container)

theorem overlooks_replaySet (hC : Container.ReadAlike C) (tocIndex : Nat) :
    Overlooks C around around' (replaySet title tocIndex) := by
  have hhost : (setHost : Host Stock.catalog Desk).Overlooks Desk.inSetting
      (Setting.Beside C around around') :=
    ⟨fun _ => .throw _, fun _ _ _ _ => rfl⟩
  refine Respects.bind (overlooks_chunkCode hC tocIndex Tag.set) fun code => ?_
  refine (Replay.paired_overlooked hhost (.set title) code).bind fun ended ended' => ?_
  rintro s t ⟨_, hcreated, hst⟩
  exact .ok ⟨hcreated, hst⟩

/-- Stock sets are initialised without a look at the scene. -/
theorem overlooks_installSet (index : Nat) (created : Option (Nat × SetHandle)) :
    Overlooks C around around' (installSet index created) := by
  unfold installSet
  split
  · exact .throw _
  rename_i typeIndex set
  split
  · exact Step.Respects.throw (LoadError.format (.setNotCreated index))
  refine Respects.get_bind (fun _ _ => rfl) fun loader => Respects.bind (overlooks_onWorld _) fun _ => ?_
  refine Respects.get_bind (fun _ _ => rfl) fun loader => ?_
  split
  · exact .throw _
  · exact Respects.bind (.modify fun _ _ => rfl) fun _ => .pure _

theorem overlooks_buildSet (hC : Container.ReadAlike C) (index : Nat) (chunk : UInt32) :
    Overlooks C around around' (buildSet title index chunk) := by
  refine Respects.get_bind (fun _ _ => rfl) fun loader => .onFailure ?_ fun _ _ => rfl
  rintro _ _ ⟨base, one, other, hone, rfl, rfl⟩
  have hposition (setting : Setting) : (onContainer Container.position).outcome (base.inSetting setting) =
      (.ok setting.container.stream.pos, base.inSetting setting) := rfl
  rw [Step.outcome_bind_ok (hposition one), Step.outcome_bind_ok (hposition other)]
  -- The two go back to different positions, so what they do is not one step in two settings.
  have hback : Paired (Across C around around') (Same (Across C around around')) (Across C around around')
      (onContainer (Container.goto one.container.stream.pos) : LoadStep Stock.catalog Unit)
      (onContainer (Container.goto other.container.stream.pos)) := by
    rintro _ _ ⟨later, left, left', hleft, rfl, rfl⟩
    have hmoved := hC.goBack _ _ hone.container _ _ hleft.container
    exact .ok ⟨rfl, later, ⟨left.container.moved one.container.stream.pos, left.around⟩,
      ⟨left'.container.moved other.container.stream.pos, left'.around⟩, ⟨hmoved, hleft.around, hleft.around'⟩,
      rfl, rfl⟩
  exact (Paired.closing_same (overlooks_replaySet hC chunk.toNat) hback).bind_same
    (fun created => overlooks_installSet index created) _ _ ⟨base, one, other, hone, rfl, rfl⟩

theorem overlooks_loadSet (hC : Container.ReadAlike C) (index : Nat) :
    Overlooks C around around' (loadSet title index) := by
  refine Respects.get_bind (fun _ _ => rfl) fun loader => ?_
  dsimp only
  split
  · exact .throw _
  · exact .pure _
  · exact overlooks_buildSet hC index _

/-! ### Groups -/

/-- Stock actors and stock groups are initialised without a look at the scene. -/
theorem overlooks_loadGroup (hC : Container.ReadAlike C) (tocIndex : Nat) :
    Overlooks C around around' (loadGroup title tocIndex) := by
  have hhost : (groupHost title).Overlooks Desk.inSetting (Setting.Beside C around around') :=
    ⟨fun index => overlooks_loadSet hC index, fun _ _ _ _ => rfl⟩
  refine Respects.bind (overlooks_chunkCode hC tocIndex Tag.grp) fun code => ?_
  refine Respects.bind (overlooks_read _ _) fun typeIndex => ?_
  refine Respects.bind (overlooks_onWorld _) fun group => ?_
  refine Respects.bind (overlooks_read _ _) fun declared => ?_
  refine (Replay.paired_overlooked hhost (.group title declared.1) declared.2).bind fun ended ended' => ?_
  rintro _ _ ⟨hrecords, _, base, one, other, hone, rfl, rfl⟩
  rw [outcome_seat, outcome_seat, hrecords]
  exact .ok ⟨rfl, base, one, other, hone, rfl, rfl⟩

/-! ### Scenes -/

/-- The scene around two loaders is put back after a body that looks at neither. -/
theorem overlooks_within_scene {scene : Option String} {body : LoadStep Stock.catalog α}
    (h : Overlooks C { around with scene } { around' with scene } body) :
    Overlooks C around around' (within (·.enterScene scene) body) := by
  rintro _ _ ⟨base, one, other, ⟨hcontainer, rfl, rfl⟩, rfl, rfl⟩
  have hbody := h _ _ ⟨base, ⟨one.container, { one.around with scene }⟩,
    ⟨other.container, { other.around with scene }⟩, ⟨hcontainer, rfl, rfl⟩, rfl, rfl⟩
  have hleave (s t : Loader Stock.catalog)
      (hst : Across C { one.around with scene } { other.around with scene } s t) :
      Across C one.around other.around (s.inScene one.around.scene) (t.inScene other.around.scene) := by
    obtain ⟨left, inner, inner', ⟨hinner, haround, haround'⟩, rfl, rfl⟩ := hst
    refine ⟨left, ⟨inner.container, one.around⟩, ⟨inner'.container, other.around⟩, ⟨hinner, rfl, rfl⟩, ?_, ?_⟩
    · simp only [inScene, inSetting, Desk.inSetting, haround]
    · simp only [inScene, inSetting, Desk.inSetting, haround']
  rw [outcome_within_scene, outcome_within_scene]
  exact hbody.leaving (fun _ _ s t hst => ⟨hst.1, hleave s t hst.2⟩) hleave

theorem overlooks_addGroups (hC : Container.ReadAlike C) (count : Nat) :
    ∀ (scene : Scene Stock.catalog) (code : Cursor),
      Overlooks C around around' (addGroups title scene code count) := by
  induction count with
  | zero => exact fun _ _ => .pure _
  | succ count ih =>
      intro scene code
      refine Respects.bind (overlooks_read _ _) fun word => ?_
      refine Respects.bind (overlooks_loadGroup hC _) fun group => ?_
      exact Respects.bind (overlooks_onWorld _) fun state => ih _ _

theorem overlooks_loadScene (hC : Container.ReadAlike C) (tocIndex : Nat) :
    Overlooks C around around' (loadScene title tocIndex) := by
  refine Respects.bind (overlooks_chunkCode hC tocIndex Tag.scn) fun code => ?_
  refine Respects.bind (overlooks_read _ _) fun typeIndex => ?_
  refine Respects.bind (overlooks_onWorld _) fun scene => overlooks_within_scene ?_
  refine Respects.bind (overlooks_read _ _) fun count => ?_
  refine Respects.bind (overlooks_addGroups hC _ _ _) fun scene => ?_
  intro s t hst
  rw [outcome_initScene, outcome_initScene]
  exact .ok ⟨rfl, hst⟩

theorem overlooks_loadBootScene (hC : Container.ReadAlike C) :
    Overlooks C around around' (loadBootScene title) := by
  unfold loadBootScene
  split
  · exact overlooks_loadScene hC _
  · exact .throw _

end Loader

end Playprint
