import Playprint.Proofs.Loader.Tally
import Playprint.Tool.Load

/-!
What the summary of a load adds up to. It lists the actors of all groups and scenes, and it counts the roles on
the sets, which it reads back from the world at the end. A run asks for its groups before its scenes, so the
order of the summary is the order of loading.
-/

namespace Playprint

open Loader (Booked)

/-! ### Roles on sets -/

namespace Loader

theorem attachments_summary (loader : Loader Stock.catalog) {index : Nat} {slot : SetSlot}
    (hslot : loader.host.sets.slots[index]? = some slot) :
    (slot.summary loader.world index).attachments = (loader.attachmentsAt index).length := by
  simp only [SetSlot.summary, attachmentsAt, SetTable.cached?, hslot, Option.bind_some]
  cases slot.set with
  | none => rfl
  | some set =>
      simp only [Option.bind_some, World.attachments]
      cases loader.world.stage? set <;> rfl

/-- The sets of a summary count the roles that hang on the sets of the table. -/
theorem sum_setSummaries (loader : Loader Stock.catalog) :
    (loader.setSummaries.map SetSummary.attachments).sum = loader.roleCount := by
  have hlist : loader.setSummaries.map SetSummary.attachments =
      List.ofFn fun index : Fin loader.host.sets.size => (loader.attachmentsAt index).length := by
    apply List.ext_getElem
    · simp [setSummaries, SetTable.size]
    intro index hindex hindex'
    rw [List.length_ofFn] at hindex'
    simp only [setSummaries, List.getElem_map, List.getElem_mapIdx, List.getElem_ofFn]
    exact attachments_summary loader (List.getElem?_eq_getElem hindex')
  rw [hlist, List.sum_ofFn, roleCount, Finset.sum_range]

end Loader

/-! ### Actors of a summary -/

namespace LoadSummary

/-- All actors that a summary lists: group by group those of its groups, then those of its scenes. -/
def actors (summary : LoadSummary) : List ActorSummary :=
  summary.groups.flatMap GroupSummary.actors ++
    summary.scenes.flatMap fun scene => scene.groups.flatMap GroupSummary.actors

theorem actors_addGroup {summary : LoadSummary} (hscenes : summary.scenes = []) (group : Group Stock.catalog)
    (tocIndex : Nat) :
    (summary.addGroup group tocIndex).actors =
      summary.actors ++ group.members.map ActorRecord.summary := by
  simp [actors, addGroup, Group.summary, hscenes]

theorem actors_addScene (summary : LoadSummary) (scene : Scene Stock.catalog) (tocIndex : Nat) :
    (summary.addScene scene tocIndex).actors =
      summary.actors ++ (scene.groups.flatMap Group.members).map ActorRecord.summary := by
  simp [actors, addScene, Scene.summary, Group.summary, List.flatMap_map, List.map_flatMap]

end LoadSummary

namespace Tool.Load

variable {title : Title Stock.catalog} {container : Container} {before after : Loader Stock.catalog}
  {summary longer : LoadSummary} {requests : List Request}

/-- The summary lists all actors that were logged, and as many roles as hang on the sets. -/
structure Accounts (title : Title Stock.catalog) (container : Container) (summary : LoadSummary)
    (loader : Loader Stock.catalog) : Prop where
  booked : Booked title container none loader
  ids : summary.actors.map ActorSummary.id = List.range loader.host.objects.nextId
  roles : summary.actors.countP (·.role.isSome) = loader.roleCount

theorem accounts_start (title : Title Stock.catalog) (container : Container) (tocEntries : Nat) :
    Accounts title container (.empty tocEntries) (Loader.start title container ()) where
  booked := Loader.booked_start title container
  ids := rfl
  roles := by
    show 0 = Loader.roleCount _
    simp [Loader.roleCount, Loader.attachmentsAt_of_none (Loader.cached?_start _)]

theorem Accounts.brings (h : Accounts title container summary before)
    (hbooked : Booked title container none after) {records : List (ActorRecord Stock.catalog)}
    (hbrings : Loader.Brings before records after)
    (hactors : longer.actors = summary.actors ++ records.map ActorRecord.summary) :
    Accounts title container longer after where
  booked := hbooked
  ids := by
    have hrecords : (records.map ActorRecord.summary).map ActorSummary.id =
        records.map (·.id.value) := by
      rw [List.map_map]
      rfl
    rw [hactors, List.map_append, h.ids, hrecords, hbrings.ids, hbrings.nextId, List.range_eq_range',
      List.range_eq_range']
    have hrange := @List.range'_append_1 0 before.host.objects.nextId records.length
    rwa [Nat.zero_add] at hrange
  roles := by
    have hrecords : (records.map ActorRecord.summary).countP (·.role.isSome) =
        records.countP (·.role.isSome) := by
      rw [List.countP_map]
      apply List.countP_congr
      intro record _
      simp only [Function.comp_apply, ActorRecord.summary, Option.isSome_map]
    rw [hactors, List.countP_append, h.roles, hrecords, hbrings.roles]

/-! ### Serving requests -/

/-- Whether a group is asked for. -/
def Request.isGroup : Request → Bool
  | .group _ => true
  | _ => false

theorem under_ok {α : Type} {headline : String} {step : LoadStep Stock.catalog α} {a : α}
    (h : (under headline step).outcome before = (.ok a, after)) : step.outcome before = (.ok a, after) := by
  rw [under, Step.outcome_mapError, Prod.mk.injEq, Step.mapError_eq_ok_iff] at h
  exact Prod.ext h.1 h.2

theorem Accounts.addScene (h : Accounts title container summary before) {headline : String}
    {step : LoadStep Stock.catalog (Scene Stock.catalog)} {tocIndex : Nat}
    (hstep : ∀ scene left, step.outcome before = (.ok scene, left) → Booked title container none left ∧
      Loader.Brings before (scene.groups.flatMap Group.members) left)
    (hserve : (do return summary.addScene (← under headline step) tocIndex : ToolStep Stock.catalog _).outcome
      before = (.ok longer, after)) : Accounts title container longer after := by
  obtain ⟨scene, left, hscene, hreturn⟩ := Step.outcome_bind_eq_ok_iff.mp hserve
  cases hreturn
  obtain ⟨hbooked, hbrings⟩ := hstep scene after (under_ok hscene)
  exact h.brings hbooked hbrings (summary.actors_addScene scene tocIndex)

/-- A request that is served keeps the accounts, if no scene is listed before a group that is added. -/
theorem Accounts.serve (h : Accounts title container summary before) (request : Request)
    (horder : request.isGroup → summary.scenes = [])
    (hserve : (serve title summary request).outcome before = (.ok longer, after)) :
    Accounts title container longer after ∧ (request.isGroup → longer.scenes = []) := by
  cases request with
  | group tocIndex =>
      obtain ⟨group, left, hgroup, hreturn⟩ := Step.outcome_bind_eq_ok_iff.mp hserve
      cases hreturn
      obtain ⟨hbooked, hbrings⟩ := h.booked.loadGroup (under_ok hgroup)
      exact ⟨h.brings hbooked hbrings (LoadSummary.actors_addGroup (horder rfl) group tocIndex), horder⟩
  | scene tocIndex =>
      exact ⟨h.addScene (fun _ _ hscene => h.booked.loadScene hscene) hserve, fun hgroup => nomatch hgroup⟩
  | bootScene =>
      simp only [Load.serve] at hserve
      split at hserve
      · cases hserve
      · exact ⟨h.addScene (fun _ _ hscene => h.booked.loadBootScene hscene) hserve,
          fun hgroup => nomatch hgroup⟩
  | mediaRef tocIndex =>
      obtain ⟨mediaRef, left, hmedia, hreturn⟩ := Step.outcome_bind_eq_ok_iff.mp hserve
      cases hreturn
      have hhandled := Loader.handled_loadMediaRef title tocIndex before
      rw [under_ok hmedia] at hhandled
      obtain ⟨hbooked, hbrings⟩ := h.booked.handled hhandled
      exact ⟨h.brings hbooked hbrings (List.append_nil _).symm, fun hgroup => nomatch hgroup⟩

/-- No group is asked for behind something else. -/
def GroupsFirst (requests : List Request) : Prop :=
  requests.Pairwise fun earlier later => later.isGroup → earlier.isGroup

theorem Accounts.serveAll (h : Accounts title container summary before) (hfirst : GroupsFirst requests)
    (horder : ∀ request ∈ requests, request.isGroup → summary.scenes = [])
    (hserve : (serveAll title summary requests).outcome before = (.ok longer, after)) :
    Accounts title container longer after := by
  induction requests generalizing summary before with
  | nil =>
      cases hserve
      exact h
  | cons request rest ih =>
      obtain ⟨hhead, hrest⟩ := List.pairwise_cons.mp hfirst
      obtain ⟨mid, left, hrequest, hserve⟩ := Step.outcome_bind_eq_ok_iff.mp hserve
      obtain ⟨hmid, hscenes⟩ := h.serve request (horder request List.mem_cons_self) hrequest
      apply ih hmid hrest _ hserve
      exact fun later hlater hgroup => hscenes (hhead later hlater hgroup)

theorem groupsFirst_append (tocIndices : List Nat) {rest : List Request}
    (hrest : ∀ request ∈ rest, request.isGroup = false) :
    GroupsFirst (tocIndices.map .group ++ rest) := by
  have hnone {earlier later : Request} (hlater : later ∈ rest) (hgroup : later.isGroup) :
      earlier.isGroup := by
    rw [hrest later hlater] at hgroup
    cases hgroup
  refine List.pairwise_append.mpr ⟨?groups, ?rest, fun _ _ later hlater => hnone hlater⟩
  case groups => exact List.pairwise_map.mpr (List.pairwise_of_forall fun _ _ _ => rfl)
  case rest =>
    have hall : rest.Pairwise fun _ _ => True := List.pairwise_of_forall fun _ _ => trivial
    exact hall.imp_of_mem fun _ hlater _ => hnone hlater

theorem eq_of_unless_error {α : Type} {failed : Prop} [Decidable failed] {failure : Failure} {a b : α}
    (h : (if failed then .error failure else .ok a) = Except.ok b) : a = b := by
  split at h
  · cases h
  · exact Except.ok.inj h

/-- The tool asks for groups before anything else. -/
theorem groupsFirst_requests {options : Options} (h : options.requests = .ok requests) :
    GroupsFirst requests := by
  rw [Options.requests] at h
  split at h
  · cases h
  obtain rfl := eq_of_unless_error h
  rw [List.append_assoc, List.append_assoc]
  apply groupsFirst_append
  intro request hrequest
  simp only [List.mem_append, List.mem_map] at hrequest
  rcases hrequest with ⟨_, _, rfl⟩ | hboot | ⟨_, _, rfl⟩
  · rfl
  · split at hboot
    · obtain rfl := List.mem_singleton.mp hboot
      rfl
    · cases hboot
  · rfl

/-- When the tool succeeds, the actors in its summary have the identities 0, 1, 2 and so on in the order in
which they are listed, groups first and then scenes; and the roles that the sets of the summary count are as
many as its actors with a role. -/
theorem summarise_conserves_actors (title : Title Stock.catalog) (container : Container) {options : Options}
    (hrequests : options.requests = .ok requests)
    (hsummary : summarise title container () requests = .ok summary) :
    summary.actors.map ActorSummary.id = List.range summary.actors.length ∧
      (summary.sets.map SetSummary.attachments).sum = summary.actors.countP (·.role.isSome) := by
  rcases hserve : (serveAll title (.empty container.tocEntries.length) requests).outcome
    (Loader.start title container ()) with ⟨failure | served, after⟩ <;>
    simp only [summarise, hserve] at hsummary <;> cases hsummary
  have haccounts := (accounts_start title container container.tocEntries.length).serveAll
    (groupsFirst_requests hrequests) (fun _ _ _ => rfl) hserve
  -- The sets are added to the summary last, and list no actors.
  change served.actors.map ActorSummary.id = List.range served.actors.length ∧
    (after.setSummaries.map SetSummary.attachments).sum = served.actors.countP (·.role.isSome)
  constructor
  · have hlength := congrArg List.length haccounts.ids
    rw [List.length_map, List.length_range] at hlength
    rw [haccounts.ids, hlength]
  · rw [Loader.sum_setSummaries, haccounts.roles]

/-- The title of the pair, with a class of scenes. -/
def playTitle : Title Stock.catalog where
  manifest := { Loader.pairTitle.manifest with sceneClasses := [⟨"StockScene", none⟩] }

/-- The pair, with the chunk of a scene in which the pair appears twice. -/
def playMaster : Master := (Loader.pairMaster.add (.scene 0 [1, 1])).2

/-- Its container, as it is opened. -/
def playContainer : Container := playMaster.loaded

/-- A request for the pair and for its scene. -/
def playOptions : Options where
  playprint := "play.dpp"
  tables := "play.json"
  groups := [1]
  scene := some 2
  boot := false
  media := []
  summary := none

/-- The pair comes three times, and six roles hang on the one set. -/
theorem play_conserves_actors :
    Container.load playMaster.encode = .ok playContainer ∧
    ∃ requests summary, playOptions.requests = .ok requests ∧
      summarise playTitle playContainer () requests = .ok summary ∧
      summary.actors.map ActorSummary.id = List.range 6 ∧
      (summary.sets.map SetSummary.attachments).sum = 6 := by
  have hload : Container.load playMaster.encode = .ok playContainer :=
    Master.load_eq_loaded (by simp [playMaster, Master.add]) (by decide +kernel)
  have hrequests : playOptions.requests = .ok [.group 1, .scene 2] := rfl
  have hcounts : (summarise playTitle playContainer () [.group 1, .scene 2]).toOption.map (fun summary =>
      (summary.actors.length, summary.actors.countP (·.role.isSome))) = some (6, 6) := by
    decide +kernel
  rcases hsummary : summarise playTitle playContainer () [.group 1, .scene 2] with failure | summary <;>
    rw [hsummary] at hcounts
  · cases hcounts
  · obtain ⟨hids, hroles⟩ := summarise_conserves_actors playTitle playContainer hrequests hsummary
    obtain ⟨hlength, hcount⟩ := Prod.mk.inj (Option.some.inj hcounts)
    exact ⟨hload, _, summary, hrequests, hsummary, hlength ▸ hids, hroles.trans hcount⟩

end Tool.Load

end Playprint
