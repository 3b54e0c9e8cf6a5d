import Playprint.Proofs.Loader.Enrolment

/-!
Groups whose actors are known by the same names everywhere. What a group chunk creates is read off the bytes of
the container alone. The actors of a group are these, each under its own identity in the log and in its role;
and they stay so whatever the loader is asked for later.
-/

namespace Playprint

open Container (Agree)

/-! ### Chunks -/

namespace Container

variable {container : Container} {tocIndex : Nat}

/-- The chunk of a table entry as byte code, when it can be read. -/
def codeAt? (container : Container) (tocIndex : Nat) (tag : Tag) : Option Cursor :=
  ((readChunkAt tocIndex tag).outcome container).1.toOption.map (.ofBytes container.order)

/-- The group chunk of a table entry declares so many actors, and spells these instructions behind that. -/
def GroupAt (container : Container) (tocIndex declared : Nat) (instructions : List Instruction) : Prop :=
  ∃ head typeIndex rest code, container.codeAt? tocIndex Tag.grp = some head ∧
    Cursor.readWord.outcome head = (.ok typeIndex, rest) ∧
    Cursor.readIndex.outcome rest = (.ok declared, code) ∧ code.Spells 0 instructions

/-- The words are the next ones of the byte code. -/
def Names : Cursor → List UInt32 → Prop
  | _, [] => True
  | code, word :: words => ∃ rest, Cursor.readWord.outcome code = (.ok word, rest) ∧ Names rest words

/-- The scene chunk of a table entry tells how many groups there are, and names their table entries. -/
def SceneAt (container : Container) (tocIndex : Nat) (words : List UInt32) : Prop :=
  ∃ head typeIndex rest count code, container.codeAt? tocIndex Tag.scn = some head ∧
    Cursor.readWord.outcome head = (.ok typeIndex, rest) ∧
    Cursor.readWord.outcome rest = (.ok count, code) ∧ words.length = count.toNat ∧ Names code words

/-- A loader reads the chunk from its container wherever that stands. -/
theorem codeAt?_of_chunkCode {tag : Tag} {loader left : Loader Stock.catalog} {code : Cursor}
    (hagree : Agree container loader.host.container)
    (h : (Loader.chunkCode tocIndex tag).outcome loader = (.ok code, left)) :
    container.codeAt? tocIndex tag = some code := by
  obtain ⟨payload, mid, hread, ⟨⟩⟩ := Step.outcome_bind_eq_ok_iff.mp h
  rw [Loader.onContainer, Step.outcome_on, Step.outcome_mapError, Prod.mk.injEq, Step.mapError_eq_ok_iff] at hread
  obtain ⟨hpayload, rfl⟩ := hread
  have hapart : Apart container loader.host.container container loader.host.container := ⟨_, _, rfl, rfl⟩
  rcases (paired_readChunkAt hagree tocIndex tag _ _ hapart).ends with
    ⟨_, _, s, t, hown, hread, rfl, _, pos, _, rfl⟩ | ⟨_, _, _, _, hread, _⟩ <;> rw [hread] at hpayload
  · cases hpayload
    rw [codeAt?, hown]
    show some (Cursor.ofBytes container.order payload) = _
    rw [hread, hagree.order]
    rfl
  · cases hpayload

end Container

/-! ### Groups and scenes -/

/-- The actors of the group are those that its chunk creates, in this order and at most as many as declared.
Their identities count up from the first one; each is logged under its identity, type and class, and each role
knows its actor by identity, type and place in the group. -/
structure Group.Identified (container : Container) (log : ObjectLog) (first tocIndex : Nat)
    (group : Group Stock.catalog) : Prop where
  created : ∃ declared instructions, container.GroupAt tocIndex declared instructions ∧
    group.members.map ActorRecord.typeIndex = instructions.filterMap Instruction.created? ∧
    group.members.length ≤ declared
  enrolled : Enrolled log first (group.members.map ActorRecord.credentials)

/-- The groups are those of the table entries, and their identities follow each other without a gap. -/
inductive Group.InLine (container : Container) (log : ObjectLog) :
    Nat → List UInt32 → List (Group Stock.catalog) → Prop
  | done (first : Nat) : InLine container log first [] []
  | next {first : Nat} {word : UInt32} {words : List UInt32} {group : Group Stock.catalog}
      {groups : List (Group Stock.catalog)} (h : group.Identified container log first word.toNat)
      (hmore : InLine container log (first + group.members.length) words groups) :
      InLine container log first (word :: words) (group :: groups)

/-- The groups of the scene are those that its chunk names. -/
def Scene.Identified (container : Container) (log : ObjectLog) (first tocIndex : Nat)
    (scene : Scene Stock.catalog) : Prop :=
  ∃ words, container.SceneAt tocIndex words ∧ Group.InLine container log first words scene.groups

section Later

variable {container : Container} {log later : ObjectLog} {first tocIndex : Nat}

theorem Group.Identified.grows {group : Group Stock.catalog} (h : group.Identified container log first tocIndex)
    (hgrows : log.Grows later) : group.Identified container later first tocIndex :=
  ⟨h.created, h.enrolled.grows hgrows⟩

theorem Group.InLine.grows {words : List UInt32} {groups : List (Group Stock.catalog)}
    (h : InLine container log first words groups) (hgrows : log.Grows later) :
    InLine container later first words groups := by
  induction h with
  | done first => exact .done first
  | next h _ ih => exact .next (h.grows hgrows) ih

theorem Scene.Identified.grows {scene : Scene Stock.catalog} (h : scene.Identified container log first tocIndex)
    (hgrows : log.Grows later) : scene.Identified container later first tocIndex := by
  obtain ⟨words, hwords, hgroups⟩ := h
  exact ⟨words, hwords, hgroups.grows hgrows⟩

end Later

namespace Loader

variable {title : Title Stock.catalog} {container : Container} {loader left : Loader Stock.catalog}

/-- A loader over the bytes of a container, all of whose actors have their place in the log. -/
structure Orderly (container : Container) (loader : Loader Stock.catalog) : Prop where
  agree : Agree container loader.host.container
  numbered : loader.host.objects.Numbered

theorem Orderly.enlarges (h : Orderly container loader) (hdone : Enlarges loader left) :
    Orderly container left :=
  ⟨h.agree.trans hdone.agree, hdone.log.numbered h.numbered⟩

theorem orderly_start (title : Title Stock.catalog) (container : Container) :
    Orderly container (start title container ()) :=
  ⟨.refl container, ObjectLog.numbered_empty⟩

/-- So many actors were logged on top of those from before. -/
structure Logs (before : Loader Stock.catalog) (count : Nat) (after : Loader Stock.catalog) : Prop where
  enlarges : Enlarges before after
  next : after.host.objects.nextId = before.host.objects.nextId + count

theorem logs_chunkCode {tocIndex : Nat} {tag : Tag} {code : Cursor}
    (h : (chunkCode tocIndex tag).outcome loader = (.ok code, left)) : Logs loader 0 left := by
  have hhandled := (handled_chunkCode tocIndex tag).of_outcome h
  refine ⟨hhandled.enlarges, ?_⟩
  obtain ⟨_, _, rfl⟩ := hhandled
  rfl

theorem Orderly.loadGroup (h : Orderly container loader) {tocIndex : Nat} {group : Group Stock.catalog}
    (hgroup : (Loader.loadGroup title tocIndex).outcome loader = (.ok group, left)) :
    group.Identified container left.host.objects loader.host.objects.nextId tocIndex ∧
      Logs loader group.members.length left := by
  obtain ⟨mid, head, typeIndex, rest, declared, code, ended, hhead, hword, hindex, hreplay, hmembers, _⟩ :=
    loadGroup_ok hgroup
  have hchunk := logs_chunkCode hhead
  have hnumbered := (h.enlarges hchunk.enlarges).numbered
  obtain ⟨instructions, hspells, htypes, henrolling⟩ := Replay.enrolling_of_replay hnumbered hreplay
  have hroster : ended.roster = group.members.map ActorRecord.credentials := by
    rw [hmembers, List.map_map, Replay.records, List.map_map]
    rfl
  rw [hroster] at htypes henrolling
  obtain ⟨hroom, hnext, _, henrolled⟩ := henrolling
  rw [hchunk.next, Nat.add_zero] at hnext henrolled
  rw [List.length_map] at hroom hnext
  rw [List.map_map] at htypes
  have hgroupAt : container.GroupAt tocIndex declared instructions :=
    ⟨head, typeIndex, rest, code, Container.codeAt?_of_chunkCode h.agree hhead, hword, hindex, hspells⟩
  have henlarges := ((carried_enlarges title).loadGroup tocIndex).of_outcome hgroup
  exact ⟨⟨⟨declared, instructions, hgroupAt, htypes, hroom⟩, henrolled⟩, henlarges, hnext⟩

theorem Orderly.loadsGroups {code : Cursor} {words : List UInt32} {groups : List (Group Stock.catalog)}
    (h : Orderly container loader) (hloads : LoadsGroups title loader code words groups left) :
    Container.Names code words ∧
      Group.InLine container left.host.objects loader.host.objects.nextId words groups ∧
      Logs loader (groups.flatMap Group.members).length left := by
  induction hloads with
  | done => exact ⟨trivial, .done _, Std.Refl.refl _, rfl⟩
  | load hword hgroup _ ih =>
      obtain ⟨hidentified, hfirst⟩ := h.loadGroup hgroup
      obtain ⟨hnames, hgroups, hmore⟩ := ih (h.enlarges hfirst.enlarges)
      rw [hfirst.next] at hgroups
      refine ⟨⟨_, hword, hnames⟩, .next (hidentified.grows hmore.enlarges.log) hgroups,
        Trans.trans hfirst.enlarges hmore.enlarges, ?_⟩
      rw [hmore.next, hfirst.next, List.flatMap_cons, List.length_append, Nat.add_assoc]

theorem Orderly.loadScene (h : Orderly container loader) {tocIndex : Nat} {scene : Scene Stock.catalog}
    (hscene : (Loader.loadScene title tocIndex).outcome loader = (.ok scene, left)) :
    scene.Identified container left.host.objects loader.host.objects.nextId tocIndex ∧
      left.host.objects.nextId =
        loader.host.objects.nextId + (scene.groups.flatMap Group.members).length := by
  obtain ⟨mid, head, typeIndex, rest, count, code, words, entered, last, hhead, hword, hcount, hlength, hloads,
    rfl, _⟩ := loadScene_ok hscene
  have hchunk := logs_chunkCode hhead
  have hmid := h.enlarges hchunk.enlarges
  have hentered : Orderly container (mid.inScene entered) := ⟨hmid.agree, hmid.numbered⟩
  obtain ⟨hnames, hgroups, hlogs⟩ := hentered.loadsGroups hloads
  have hfirst : (mid.inScene entered).host.objects.nextId = loader.host.objects.nextId := hchunk.next
  have hsceneAt : container.SceneAt tocIndex words :=
    ⟨head, typeIndex, rest, count, code, Container.codeAt?_of_chunkCode h.agree hhead, hword, hcount, hlength,
      hnames⟩
  have hnext := hlogs.next
  rw [hfirst] at hgroups hnext
  exact ⟨⟨words, hsceneAt, hgroups⟩, hnext⟩

/-! ### Replies -/

/-- Every group that comes with the reply to a request is the one of its table entry. -/
inductive Reply.Identified (title : Title Stock.catalog) (container : Container) (log : ObjectLog)
    (first : Nat) : Request → Reply → Prop
  | set (index : Nat) (set : SetHandle) : Identified title container log first (.set index) (.set set)
  | group {tocIndex : Nat} {group : Group Stock.catalog} (h : group.Identified container log first tocIndex) :
      Identified title container log first (.group tocIndex) (.group group)
  | scene {tocIndex : Nat} {scene : Scene Stock.catalog} (h : scene.Identified container log first tocIndex) :
      Identified title container log first (.scene tocIndex) (.scene scene)
  | bootScene {tocIndex : UInt32} {scene : Scene Stock.catalog}
      (hboot : title.manifest.bootScene = some tocIndex)
      (h : scene.Identified container log first tocIndex.toNat) :
      Identified title container log first .bootScene (.scene scene)
  | mediaRef (tocIndex : Nat) (mediaRef : MediaRef Stock.catalog) :
      Identified title container log first (.mediaRef tocIndex) (.mediaRef mediaRef)

theorem Reply.Identified.grows {request : Request} {reply : Reply} {log later : ObjectLog} {first : Nat}
    (h : reply.Identified title container log first request) (hgrows : log.Grows later) :
    reply.Identified title container later first request := by
  cases h with
  | set index set => exact .set index set
  | group h => exact .group (h.grows hgrows)
  | scene h => exact .scene (h.grows hgrows)
  | bootScene hboot h => exact .bootScene hboot (h.grows hgrows)
  | mediaRef tocIndex mediaRef => exact .mediaRef tocIndex mediaRef

theorem Orderly.respond (h : Orderly container loader) {request : Request} {reply : Reply}
    (hreply : (Loader.respond title request).outcome loader = (.ok reply, left)) :
    reply.Identified title container left.host.objects loader.host.objects.nextId request ∧
      left.host.objects.nextId = loader.host.objects.nextId + reply.records.length := by
  cases request with
  | set index =>
      obtain ⟨set, _, hset, ⟨⟩⟩ := Step.outcome_bind_eq_ok_iff.mp hreply
      have hplace := inPlace_loadSet title index loader
      rw [hset] at hplace
      exact ⟨.set index set, congrArg ObjectLog.nextId hplace.objects⟩
  | group tocIndex =>
      obtain ⟨group, _, hgroup, ⟨⟩⟩ := Step.outcome_bind_eq_ok_iff.mp hreply
      obtain ⟨hidentified, hlogs⟩ := h.loadGroup hgroup
      exact ⟨.group hidentified, hlogs.next⟩
  | scene tocIndex =>
      obtain ⟨scene, _, hscene, ⟨⟩⟩ := Step.outcome_bind_eq_ok_iff.mp hreply
      obtain ⟨hidentified, hnext⟩ := h.loadScene hscene
      exact ⟨.scene hidentified, hnext⟩
  | bootScene =>
      obtain ⟨scene, _, hscene, ⟨⟩⟩ := Step.outcome_bind_eq_ok_iff.mp hreply
      rw [loadBootScene] at hscene
      split at hscene
      · rename_i tocIndex hboot
        obtain ⟨hidentified, hnext⟩ := h.loadScene hscene
        exact ⟨.bootScene hboot hidentified, hnext⟩
      · cases hscene
  | mediaRef tocIndex =>
      obtain ⟨mediaRef, _, hmedia, ⟨⟩⟩ := Step.outcome_bind_eq_ok_iff.mp hreply
      obtain ⟨_, _, rfl⟩ := (handled_loadMediaRef title tocIndex).of_outcome hmedia
      exact ⟨.mediaRef tocIndex mediaRef, rfl⟩

/-- Whatever a loader was asked for, served or not, every actor has its place in the log for its identity. The
actors of every group that it answers with are those that the chunk of the group creates, logged behind all
from before and with no others among them; and no matter what it is asked for afterwards, the log, the records
and the roles go on to know them by the same names. -/
theorem identities_consistent (title : Title Stock.catalog) (container : Container)
    (earlier later : List Request) (request : Request) :
    let loader := after title container earlier
    loader.host.objects.Numbered ∧
    ∀ reply left, (respond title request).outcome loader = (.ok reply, left) →
      let first := loader.host.objects.nextId
      let last := later.foldl (serve title) left
      last.host.objects.Numbered ∧
      reply.Identified title container last.host.objects first request ∧
      left.host.objects.nextId = first + reply.records.length := by
  intro loader
  have horderly : Orderly container loader :=
    (orderly_start title container).enlarges (enlarges_serves title _ earlier)
  refine ⟨horderly.numbered, fun reply left hreply => ?_⟩
  have hserved := (carried_enlarges title).serve loader request
  rw [← respond_serve, hreply] at hserved
  have hlater := enlarges_serves title left later
  obtain ⟨hidentified, hnext⟩ := horderly.respond hreply
  exact ⟨((horderly.enlarges hserved).enlarges hlater).numbered, hidentified.grows hlater.log, hnext⟩

/-- After a set that does not exist and the pair itself, the pair is asked for twice more. What the first of
these answers has the identities after those of the first pair, and keeps them when the last pair is logged. -/
theorem pair_identified :
    Container.load pairMaster.encode = .ok pairContainer ∧ ∃ reply left,
      (respond pairTitle (.group 1)).outcome (after pairTitle pairContainer [.set 7, .group 1]) =
        (.ok reply, left) ∧
      reply.records.map (fun record => (record.id, record.role.map (·.actor.slot))) =
        [(⟨2⟩, some 0), (⟨3⟩, some 1)] ∧
      reply.Identified pairTitle pairContainer (serve pairTitle left (.group 1)).host.objects 2 (.group 1) ∧
      left.host.objects.nextId = 4 ∧
      (serve pairTitle left (.group 1)).host.objects.Numbered := by
  obtain ⟨_, hlater⟩ := identities_consistent pairTitle pairContainer [.set 7, .group 1] [.group 1] (.group 1)
  have hrecords : ((respond pairTitle (.group 1)).outcome
      (after pairTitle pairContainer [.set 7, .group 1])).1.toOption.map
        (fun reply => reply.records.map fun record => (record.id, record.role.map (·.actor.slot))) =
      some [(⟨2⟩, some 0), (⟨3⟩, some 1)] := by
    decide +kernel
  rcases hreply : (respond pairTitle (.group 1)).outcome (after pairTitle pairContainer [.set 7, .group 1])
    with ⟨error | reply, left⟩ <;> rw [hreply] at hrecords
  · cases hrecords
  · obtain ⟨hnumbered, hidentified, hnext⟩ := hlater reply left hreply
    have hfirst : (after pairTitle pairContainer [.set 7, .group 1]).host.objects.nextId = 2 := by
      decide +kernel
    have hcount : reply.records.length = 2 := by
      simpa using congrArg List.length (Option.some.inj hrecords)
    rw [hfirst] at hidentified
    rw [hfirst, hcount] at hnext
    exact ⟨load_pairMaster, reply, left, rfl, Option.some.inj hrecords, hidentified, hnext, hnumbered⟩

end Loader

end Playprint
