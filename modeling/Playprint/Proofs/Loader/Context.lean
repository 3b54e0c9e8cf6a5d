import Playprint.Proofs.Loader.Setting
import Playprint.Proofs.Loader.Tally

/-!
The set and the scene around a load. A load leaves them as it found them, whatever it comes to, and it makes no
difference which they are: actors are initialised under the sets they are bound to, and stock groups and scenes
look at neither.
-/

namespace Playprint

open Step (Over Paired Respects Same)

/-! ### Actors and their sets -/

/-- The actor is initialised under the set that it is bound to, whose class is told by `classOf?`, and under none
when it is not bound. -/
structure ActorRecord.InitialisedUnder (classOf? : SetBinding → Option String)
    (record : ActorRecord Stock.catalog) : Prop where
  initialised : record.actor.state.initialized = true
  initSet : record.actor.state.initSet = record.binding.bind classOf?

/-- The group is initialised, and so are its actors, each under its own set. -/
structure Group.InitialisedUnder (classOf? : SetBinding → Option String) (group : Group Stock.catalog) :
    Prop where
  initialised : group.state.initialized = true
  members : ∀ record ∈ group.members, record.InitialisedUnder classOf?

/-- The scene is initialised, and so are its groups. -/
structure Scene.InitialisedUnder (classOf? : SetBinding → Option String) (scene : Scene Stock.catalog) :
    Prop where
  initialised : scene.state.initialized = true
  groups : ∀ group ∈ scene.groups, group.InitialisedUnder classOf?

namespace Loader

variable {title : Title Stock.catalog} {container : Container} {frame : Frame}
  {around around' : Surroundings SetHandle String}
  {first loader left : Loader Stock.catalog}

/-- All groups and scenes that come with the reply are initialised. -/
def Reply.InitialisedUnder (classOf? : SetBinding → Option String) : Reply → Prop
  | .set _ => True
  | .group loaded => loaded.InitialisedUnder classOf?
  | .scene loaded => loaded.InitialisedUnder classOf?
  | .mediaRef _ => True

theorem Reply.InitialisedUnder.congr {classOf? other? : SetBinding → Option String} {reply : Reply}
    (h : reply.InitialisedUnder classOf?)
    (hsame : ∀ record ∈ reply.records, ∀ binding, record.binding = some binding →
      other? binding = classOf? binding) : reply.InitialisedUnder other? := by
  have hgroup (group : Group Stock.catalog) (hmembers : ∀ record ∈ group.members, record ∈ reply.records)
      (h : group.InitialisedUnder classOf?) : group.InitialisedUnder other? := by
    refine ⟨h.initialised, fun record hrecord => ⟨(h.members record hrecord).initialised, ?_⟩⟩
    rw [(h.members record hrecord).initSet]
    cases hbinding : record.binding with
    | none => rfl
    | some binding => exact (hsame record (hmembers record hrecord) binding hbinding).symm
  cases reply with
  | set _ | mediaRef _ => trivial
  | group loaded => exact hgroup loaded (fun _ => id) h
  | scene loaded =>
      refine ⟨h.initialised, fun group hmem => hgroup group (fun record hrecord => ?_) (h.groups group hmem)⟩
      exact List.mem_flatMap.mpr ⟨group, hmem, hrecord⟩

/-- The class that the manifest has for the set of a binding. -/
def classIn? (title : Title Stock.catalog) (binding : SetBinding) : Option String :=
  title.manifest.setClasses[binding.index]?.map ClassEntry.name

theorem Alongside.initialised_seated (h : Alongside frame first loader) {record : ActorRecord Stock.catalog}
    (hbound : record.BoundIn loader.host.sets) :
    (loader.seated record).InitialisedUnder (classIn? frame.title) := by
  refine ⟨rfl, ?_⟩
  show (record.binding.map SetBinding.handle).bind loader.world.className? = record.binding.bind _
  cases hbinding : record.binding with
  | none => rfl
  | some binding => exact h.twin.kept'.className? (hbound binding hbinding)

theorem Alongside.initialised_loadGroup (h : Alongside frame first loader) {tocIndex : Nat}
    {group : Group Stock.catalog}
    (hgroup : (Loader.loadGroup frame.title tocIndex).outcome loader = (.ok group, left)) :
    group.InitialisedUnder (classIn? frame.title) ∧ ∃ s, Alongside frame s left := by
  rcases (h.loadGroup tocIndex).ends with ⟨_, other, s, t, _, hother, hsame⟩ | ⟨_, _, _, _, hother, _⟩ <;>
    cases hgroup.symm.trans hother
  obtain ⟨_, _, _, _, _, _, _, _, _, _, _, hmembers, hstate⟩ := loadGroup_ok hgroup
  refine ⟨⟨by rw [hstate], fun record hrecord => ?_⟩, s, hsame.alongside⟩
  have hbound := hsame.bound' record hrecord
  rw [hmembers] at hrecord
  obtain ⟨record, _, rfl⟩ := List.mem_map.mp hrecord
  exact hsame.alongside.initialised_seated hbound

theorem Alongside.initialised_loadsGroups (h : Alongside frame first loader) {code : Cursor} {words : List UInt32}
    {groups : List (Group Stock.catalog)} (hloads : LoadsGroups frame.title loader code words groups left) :
    ∀ group ∈ groups, group.InitialisedUnder (classIn? frame.title) := by
  induction hloads generalizing first with
  | done => exact fun _ => List.not_mem_nil.elim
  | load _ hgroup _ ih =>
      obtain ⟨hinitialised, _, hmid⟩ := h.initialised_loadGroup hgroup
      exact List.forall_mem_cons.mpr ⟨hinitialised, ih hmid⟩

theorem Alongside.initialised_loadScene (h : Alongside frame first loader) {tocIndex : Nat}
    {scene : Scene Stock.catalog}
    (hscene : (Loader.loadScene frame.title tocIndex).outcome loader = (.ok scene, left)) :
    scene.InitialisedUnder (classIn? frame.title) := by
  obtain ⟨mid, _, _, _, _, _, _, entered, _, hcode, _, _, _, hloads, _, hstate⟩ := loadScene_ok hscene
  refine ⟨by rw [hstate], ?_⟩
  rcases (h.chunkCode tocIndex Tag.scn).ends with ⟨_, _, s, _, _, hcode', _, hmid⟩ | ⟨_, _, _, _, hcode', _⟩ <;>
    cases hcode.symm.trans hcode'
  exact (hmid.inScene entered).initialised_loadsGroups hloads

theorem Alongside.initialised_respond (h : Alongside frame first loader) {request : Request} {reply : Reply}
    (hreply : (Loader.respond frame.title request).outcome loader = (.ok reply, left)) :
    reply.InitialisedUnder (classIn? frame.title) := by
  cases request with
  | set index | mediaRef tocIndex =>
      obtain ⟨_, _, _, ⟨⟩⟩ := Step.outcome_bind_eq_ok_iff.mp hreply
      trivial
  | group tocIndex =>
      obtain ⟨group, _, hgroup, ⟨⟩⟩ := Step.outcome_bind_eq_ok_iff.mp hreply
      exact (h.initialised_loadGroup hgroup).1
  | scene tocIndex =>
      obtain ⟨scene, _, hscene, ⟨⟩⟩ := Step.outcome_bind_eq_ok_iff.mp hreply
      exact h.initialised_loadScene hscene
  | bootScene =>
      obtain ⟨scene, _, hscene, ⟨⟩⟩ := Step.outcome_bind_eq_ok_iff.mp hreply
      rw [Loader.loadBootScene] at hscene
      split at hscene
      · exact h.initialised_loadScene hscene
      · cases hscene

/-! ### What is around a load -/

/-- The loader with another set and another scene around it. -/
def under (around : Surroundings SetHandle String) (loader : Loader Stock.catalog) : Loader Stock.catalog :=
  { loader with host := { loader.host with around } }

theorem overlooks_loadMediaRef (title : Title Stock.catalog) (tocIndex : Nat) :
    Overlooks Eq around around' (loadMediaRef title tocIndex) := by
  have hmedia (count : Nat) : ∀ mediaRef : MediaRef Stock.catalog,
      Overlooks Eq around around' (addMedia mediaRef count) := by
    induction count with
    | zero => exact fun _ => .pure _
    | succ count ih =>
        intro mediaRef
        refine Respects.bind (overlooks_onContainer (.refl _)) fun media => ?_
        exact Respects.bind (overlooks_onWorld _) fun state => ih _
  refine Respects.bind (overlooks_onContainer (.refl _)) fun offset => ?_
  refine Respects.bind (overlooks_onContainer (.refl _)) fun _ => ?_
  refine Respects.bind (overlooks_onContainer (.refl _)) fun info => ?_
  refine Respects.closing ?_ (overlooks_onContainer (.refl _))
  exact Respects.bind (overlooks_onWorld _) fun mediaRef => hmedia _ _

theorem overlooks_respond (title : Title Stock.catalog) (request : Request) :
    Overlooks Eq around around' (respond title request) := by
  have hC := Container.readAlike_eq
  cases request with
  | set index => exact Respects.bind (overlooks_loadSet hC index) fun _ => .pure _
  | group tocIndex => exact Respects.bind (overlooks_loadGroup hC tocIndex) fun _ => .pure _
  | scene tocIndex => exact Respects.bind (overlooks_loadScene hC tocIndex) fun _ => .pure _
  | bootScene => exact Respects.bind (overlooks_loadBootScene hC) fun _ => .pure _
  | mediaRef tocIndex => exact Respects.bind (overlooks_loadMediaRef title tocIndex) fun _ => .pure _

/-- A request leaves what is around it, and is served alike in other surroundings. -/
theorem respond_under {request : Request} {answer : Except LoadError Reply}
    (h : (respond title request).outcome loader = (answer, left)) :
    left.host.around = loader.host.around ∧
      ∀ around, (respond title request).outcome (loader.under around) = (answer, left.under around) := by
  have hboth (around : Surroundings SetHandle String) :
      left.host.around = loader.host.around ∧
        (respond title request).outcome (loader.under around) = (answer, left.under around) := by
    have hends := overlooks_respond title request loader (loader.under around)
      ⟨loader, ⟨loader.host.container, loader.host.around⟩, ⟨loader.host.container, around⟩, ⟨rfl, rfl, rfl⟩,
        rfl, rfl⟩
    rw [h] at hends
    rcases hends.ends with ⟨reply, _, s, t, hfirst, hsecond, rfl, hst⟩ | ⟨error, s, t, hfirst, hsecond, hst⟩
    all_goals
      cases hfirst
      obtain ⟨base, one, other, ⟨hcontainer, haround, rfl⟩, rfl, rfl⟩ := hst
      refine ⟨haround, hsecond.trans ?_⟩
      simp only [under, inSetting, Desk.inSetting, hcontainer]
  exact ⟨(hboth .none).1, fun around => (hboth around).2⟩

/-- The loader of a title over a container after any requests, with any set and scene put around it at any
time. -/
inductive Surrounded (title : Title Stock.catalog) (container : Container) : Loader Stock.catalog → Prop
  | start : Surrounded title container (start title container ())
  | serve {loader : Loader Stock.catalog} (request : Request) (h : Surrounded title container loader) :
      Surrounded title container (serve title loader request)
  | surround {loader : Loader Stock.catalog} (around : Surroundings SetHandle String)
      (h : Surrounded title container loader) : Surrounded title container (loader.under around)

theorem Surrounded.settled (h : Surrounded title container loader) :
    Settled title container (loader.under .none) := by
  induction h with
  | start => exact settled_start
  | @serve loader request _ ih =>
      rcases hrespond : (respond title request).outcome loader with ⟨answer, left⟩
      have hleft := respond_serve title loader request
      have hserved := (ih.serve request).1
      rw [← respond_serve, (respond_under hrespond).2] at hserved
      rw [hrespond] at hleft
      exact hleft ▸ hserved
  | surround around _ ih => exact ih

/-- A request keeps to its context. The set and the scene around the loader are what they were, and had no part in
what was done. In what is answered every group and every scene is initialised, and every actor under the set in
its record, which is there, or under none. -/
structure KeepsContext (title : Title Stock.catalog) (request : Request) (loader : Loader Stock.catalog)
    (answer : Except LoadError Reply) (left : Loader Stock.catalog) : Prop where
  restored : left.host.around = loader.host.around
  unseen : ∀ around, (respond title request).outcome (loader.under around) = (answer, left.under around)
  initialised : ∀ reply, answer = .ok reply →
    reply.InitialisedUnder fun binding => left.world.className? binding.handle
  bound : ∀ reply, answer = .ok reply → ∀ record ∈ reply.records, ∀ binding, record.binding = some binding →
    ∃ stage, left.world.stage? binding.handle = some stage

/-- Whatever set and scene are around a loader and were around it before, every request keeps to its context,
whether it is served or fails. -/
theorem respond_keeps_context (h : Surrounded title container loader) (request : Request) :
    KeepsContext title request loader ((respond title request).outcome loader).1
      ((respond title request).outcome loader).2 := by
  rcases hrespond : (respond title request).outcome loader with ⟨answer, left⟩
  obtain ⟨hrestored, hunseen⟩ := respond_under hrespond
  have hsettled := h.settled
  have hleft (reply : Reply) (hreply : answer = .ok reply) :
      reply.InitialisedUnder (classIn? title) ∧ reply.BoundIn left.host.sets ∧
        Kept title container (left.under .none) := by
    have hanswer := hunseen .none
    rw [hreply] at hanswer
    refine ⟨hsettled.alongside.initialised_respond hanswer, ?_⟩
    rcases (hsettled.alongside.respond request).ends with
      ⟨_, _, _, _, _, hother, halongside, hecho⟩ | ⟨_, _, _, _, hother, _⟩ <;>
      cases hanswer.symm.trans hother
    exact ⟨hecho.bound', halongside.twin.kept'⟩
  refine ⟨hrestored, hunseen, fun reply hreply => ?_, fun reply hreply record hrecord binding hbinding => ?_⟩
  · obtain ⟨hinitialised, hbound, hkept⟩ := hleft reply hreply
    refine hinitialised.congr fun record hrecord binding hbinding => ?_
    exact hkept.className? (hbound record hrecord binding hbinding)
  · obtain ⟨_, hbound, hkept⟩ := hleft reply hreply
    obtain ⟨stage, hstage, _⟩ := hkept.finished _ _ (hbound record hrecord binding hbinding)
    exact ⟨stage, hstage⟩

/-- A set, and two actors of which only the first is bound to it. -/
def loosePair : Master :=
  stageAnd (twoActors [.createActor 0, .setSet 0, .bindRole 0, .createActor 0, .endActorGroup])

/-- Its loader, after its set was loaded and put around it in a scene. -/
def onStage : Loader Stock.catalog :=
  (serve pairTitle (start pairTitle loosePair.loaded ()) (.set 0)).under ⟨some ⟨0⟩, some "Foyer"⟩

/-- The actor that is not bound stays without the set around the loader. -/
theorem loosePair_keeps_context :
    Container.load loosePair.encode = .ok loosePair.loaded ∧
    ∃ reply left, (respond pairTitle (.group 1)).outcome onStage = (.ok reply, left) ∧
      left.host.around = ⟨some ⟨0⟩, some "Foyer"⟩ ∧
      reply.records.map (fun record => record.actor.state.initSet) = [some "StageSet", none] ∧
      KeepsContext pairTitle (.group 1) onStage (.ok reply) left := by
  have hload : Container.load loosePair.encode = .ok loosePair.loaded :=
    Master.load_eq_loaded (by simp [loosePair, stageAnd]) (by decide +kernel)
  have hstage : Surrounded pairTitle loosePair.loaded onStage := .surround _ (.serve (.set 0) .start)
  have hkeeps := respond_keeps_context hstage (.group 1)
  have hsets : ((respond pairTitle (.group 1)).outcome onStage).1.toOption.map (fun reply =>
      reply.records.map fun record => record.actor.state.initSet) = some [some "StageSet", none] := by
    decide +kernel
  rcases hreply : (respond pairTitle (.group 1)).outcome onStage with ⟨error | reply, left⟩
  all_goals rw [hreply] at hkeeps hsets
  · cases hsets
  · exact ⟨hload, reply, left, rfl, hkeeps.restored, Option.some.inj hsets, hkeeps⟩

end Loader

end Playprint
