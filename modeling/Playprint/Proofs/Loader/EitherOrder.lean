import Playprint.Proofs.Container.EitherOrder
import Playprint.Proofs.Loader.History
import Playprint.Proofs.Loader.Unseen
import Playprint.Tool.Load

/-!
Loading from either byte order. A draft that is written in both orders is loaded alike from both. Byte code comes
to the same end, words are read as they were, all else is done without looking at the container; so any sequence
of requests is answered with equal objects and identities, or fails for the same causes.
-/

namespace Playprint

open Cursor (ReadsAlike)
open Instruction (encodeAll)
open Step (Over Paired Respects Same)

/-- Two cursors in front of the same code, one in each order. -/
def Cursor.InBoth (rest : ByteOrder → Bytes) (code code' : Cursor) : Prop :=
  ∃ offset, code = ⟨.big, offset, rest .big⟩ ∧ code' = ⟨.little, offset, rest .little⟩

theorem Cursor.readsAlike_readWord_head (offset : Nat) (word : UInt32) (rest : List UInt32) :
    ReadsAlike Cursor.readWord offset (fun order => Chunk.encodeWords order (word :: rest)) word
      fun order => Chunk.encodeWords order rest :=
  readsAlike_readWord offset word fun order => Chunk.encodeWords order rest

namespace Loader

variable {K : Catalog} {R : Container → Container → Prop} {α β : Type}

/-! ### Byte code -/

/-- Reading code that was written in both orders, and what follows. -/
theorem read_bind {step : CursorStep α} {bytes rest : ByteOrder → Bytes} {value : α} {code code' : Cursor}
    {S : β → β → Loader K → Loader K → Prop} {E : Loader K → Loader K → Prop}
    {next next' : α × Cursor → LoadStep K β}
    (h : ∀ offset, ReadsAlike step offset bytes value rest) (hcode : Cursor.InBoth bytes code code')
    (hnext : ∀ code code', Cursor.InBoth rest code code' →
      Paired (Over withContainer R) S E (next (value, code)) (next' (value, code')))
    (herror : ∀ s t, Over withContainer R s t → E s t) :
    Paired (Over withContainer R) S E (read step code >>= next) (read step code' >>= next') := by
  obtain ⟨offset, rfl, rfl⟩ := hcode
  intro s t hst
  cases h offset with
  | ok after h =>
      have hread (order : ByteOrder) : (read step ⟨order, offset, bytes order⟩ : LoadStep K _) =
          pure (value, ⟨order, after, rest order⟩) := read_eq_pure (h order)
      rw [hread, hread, pure_bind, pure_bind]
      exact hnext _ _ ⟨after, rfl, rfl⟩ s t hst
  | error error h =>
      have hread (order : ByteOrder) (state : Loader K) :
          (read step ⟨order, offset, bytes order⟩).outcome state = (.error (.format error), state) := by
        obtain ⟨left, hleft⟩ := h order
        rw [read, hleft]
        rfl
      rw [Step.outcome_bind_error (hread .big s), Step.outcome_bind_error (hread .little t)]
      exact .error (herror s t hst)

end Loader

namespace Draft

open Loader

variable {K : Catalog} {draft : Draft}

/-! ### Chunks and sets -/

theorem paired_chunkCode (hsize : draft.Small) (tocIndex : Nat) {tag : Tag} (htag : tag.hasForm = false) :
    Paired (Over withContainer draft.Anywhere)
      (fun code code' s t => (∃ content ∈ draft.contents, content.tag = tag ∧
        Cursor.InBoth (fun order => content.payload order) code code') ∧
          Over withContainer draft.Anywhere s t)
      (Over withContainer draft.Anywhere) (chunkCode tocIndex tag : LoadStep K Cursor)
      (chunkCode tocIndex tag) := by
  refine (over_onContainer (paired_readChunkAt hsize tocIndex htag)).bind fun payload payload' => ?_
  rintro s t hread
  obtain ⟨⟨content, hcontent, hfound, rfl, rfl⟩, hst⟩ := hread.and
  obtain ⟨base, _, _, ⟨pos, list, _, rfl, rfl⟩, rfl, rfl⟩ := id hst
  exact .ok ⟨⟨content, hcontent, hfound, 0, rfl, rfl⟩, hst⟩

/-- Code of a draft is replayed alike from either order. -/
theorem paired_replay {host : Host K Desk} (hhost : host.Respects draft.Anywhere) (script : Script K)
    {instructions : List Instruction} (hmeasured : Instruction.MeasuredAll 0 instructions)
    (hshort : ∀ order, (encodeAll order instructions).length < UInt32.size) {code code' : Cursor}
    (hcode : Cursor.InBoth (fun order => encodeAll order instructions) code code') :
    Paired (Over withContainer draft.Anywhere)
      (fun ended ended' s t => ended.records = ended'.records ∧ ended.created = ended'.created ∧
        Over withContainer draft.Anywhere s t)
      (Over withContainer draft.Anywhere) (replay script host code) (replay script host code') := by
  obtain ⟨offset, rfl, rfl⟩ := hcode
  rw [replay_eitherOrder script host .little .big offset hmeasured hshort]
  exact Replay.paired_replay hhost script _

theorem respects_replaySet (hmeasured : draft.Measured) (hsize : draft.Small) (title : Title K)
    (tocIndex : Nat) : Respects withContainer draft.Anywhere (replaySet title tocIndex) := by
  have hhost : (setHost : Host K Desk).Respects draft.Anywhere :=
    ⟨fun _ => .throw _, fun _ _ _ _ => rfl⟩
  refine (paired_chunkCode hsize tocIndex rfl).bind fun code code' => ?_
  rintro s t ⟨⟨content, hcontent, htag, hcode⟩, hst⟩
  obtain ⟨instructions, rfl⟩ := Content.eq_set_of_tag htag
  have hshort (order : ByteOrder) := length_payload_lt hsize hcontent order
  simp only [Content.payload_set] at hcode hshort
  refine (paired_replay hhost _ (hmeasured _ hcontent) hshort hcode s t hst).bind fun ended ended' => ?_
  rintro left left' ⟨_, hcreated, hleft⟩
  exact .ok ⟨hcreated, hleft⟩

/-- The position to go back to afterwards is the same in both containers. -/
theorem respects_buildSet (hmeasured : draft.Measured) (hsize : draft.Small) (title : Title K) (index : Nat)
    (chunk : UInt32) : Respects withContainer draft.Anywhere (buildSet title index chunk) := by
  refine .get_bind (fun _ _ => rfl) fun loader => .onFailure ?_ fun _ _ => rfl
  refine (same_onContainer (paired_position draft)).bind_same fun saved => ?_
  have hback : Paired draft.Anywhere (Same draft.Anywhere) draft.Anywhere (Container.goto saved)
      (Container.goto saved) :=
    (paired_goto draft saved).mono (fun _ _ => id) (fun _ _ _ _ h => ⟨h.1, h.2.anywhere⟩) fun _ _ => id
  exact ((respects_replaySet hmeasured hsize title _).closing (same_onContainer hback)).bind fun created =>
    respects_installSet index created

theorem respects_loadSet (hmeasured : draft.Measured) (hsize : draft.Small) (title : Title K) (index : Nat) :
    Respects withContainer draft.Anywhere (loadSet title index) := by
  refine .get_bind (fun _ _ => rfl) fun loader => ?_
  dsimp only
  split
  · exact .throw _
  · exact .pure _
  · exact respects_buildSet hmeasured hsize title index _

/-! ### Groups and scenes -/

theorem respects_groupHost (hmeasured : draft.Measured) (hsize : draft.Small) (title : Title K) :
    (groupHost title).Respects draft.Anywhere :=
  ⟨respects_loadSet hmeasured hsize title, fun _ _ _ _ => rfl⟩

theorem respects_loadGroup (hmeasured : draft.Measured) (hsize : draft.Small) (title : Title K)
    (tocIndex : Nat) : Respects withContainer draft.Anywhere (loadGroup title tocIndex) := by
  refine (paired_chunkCode hsize tocIndex rfl).bind fun code code' => ?_
  rintro s t ⟨⟨content, hcontent, htag, hcode⟩, hst⟩
  obtain ⟨typeIndex, actors, instructions, rfl⟩ := Content.eq_group_of_tag htag
  have hshort (order : ByteOrder) := length_payload_lt hsize hcontent order
  simp only [Content.payload_group, List.length_append] at hcode hshort
  refine read_bind (fun offset => Cursor.readsAlike_readWord offset typeIndex _) hcode ?_ (fun _ _ => id) s t hst
  intro code code' hcode
  refine (respects_onWorld _).bind_same fun group => ?_
  refine read_bind (fun offset => Cursor.readsAlike_readIndex offset actors instructions) hcode ?_ fun _ _ => id
  intro code code' hcode
  refine (paired_replay (respects_groupHost hmeasured hsize title) _ (hmeasured _ hcontent)
    (fun order => by have := hshort order; omega) hcode).bind fun ended ended' => ?_
  rintro s t ⟨hrecords, _, hst⟩
  rw [hrecords]
  refine (respects_addMembers _ _).bind (fun group => respects_initContext.bind fun context => ?_) s t hst
  exact (respects_onWorld _).bind fun state => .pure _

theorem paired_addGroups (hmeasured : draft.Measured) (hsize : draft.Small) (title : Title K)
    (groups : List UInt32) {code code' : Cursor} (scene : Scene K)
    (hcode : Cursor.InBoth (fun order => Chunk.encodeWords order groups) code code') :
    Paired (Over withContainer draft.Anywhere) (Same (Over withContainer draft.Anywhere))
      (Over withContainer draft.Anywhere) (addGroups title scene code groups.length)
      (addGroups title scene code' groups.length) := by
  induction groups generalizing code code' scene with
  | nil => exact .pure fun _ _ hst => ⟨rfl, hst⟩
  | cons tocIndex rest ih =>
      refine read_bind (fun offset => Cursor.readsAlike_readWord_head offset tocIndex rest) hcode ?_ fun _ _ => id
      intro code code' hcode
      exact (respects_loadGroup hmeasured hsize title _).bind_same fun group =>
        (respects_onWorld _).bind_same fun state => ih _ hcode

theorem respects_loadScene (hmeasured : draft.Measured) (hsize : draft.Small) (title : Title K)
    (tocIndex : Nat) : Respects withContainer draft.Anywhere (loadScene title tocIndex) := by
  refine (paired_chunkCode hsize tocIndex rfl).bind fun code code' => ?_
  rintro s t ⟨⟨content, hcontent, htag, hcode⟩, hst⟩
  obtain ⟨typeIndex, groups, rfl⟩ := Content.eq_scene_of_tag htag
  have hshort := length_payload_lt hsize hcontent .big
  -- There is a word for every group, so the number of groups has room in one.
  have hcount : (UInt32.ofNat groups.length).toNat = groups.length := by
    simp only [Content.payload_scene, Chunk.length_encodeWords, List.length_cons] at hshort
    exact UInt32.toNat_ofNat_of_lt' (by omega)
  simp only [Content.payload_scene] at hcode
  refine read_bind (fun offset => Cursor.readsAlike_readWord_head offset typeIndex _) hcode ?_ (fun _ _ => id)
    s t hst
  intro code code' hcode
  refine (respects_onWorld _).bind_same fun scene => over_within ?_
  refine read_bind (fun offset => Cursor.readsAlike_readWord_head offset _ groups) hcode ?_ fun _ _ => id
  intro code code' hcode
  simp only [hcount]
  refine (paired_addGroups hmeasured hsize title groups scene hcode).bind_same fun scene =>
    respects_initContext.bind fun context => ?_
  exact (respects_onWorld _).bind fun state => .pure _

theorem respects_loadBootScene (hmeasured : draft.Measured) (hsize : draft.Small) (title : Title K) :
    Respects withContainer draft.Anywhere (loadBootScene title) := by
  unfold loadBootScene
  split
  · exact respects_loadScene hmeasured hsize title _
  · exact .throw _

/-! ### Media references -/

theorem paired_addMedia (hsize : draft.Small) (media : List Media) (mediaRef : MediaRef K) :
    Paired (Over withContainer (draft.Both (draft.Lists media))) (Same (Over withContainer draft.Listing))
      (Over withContainer draft.Listing) (addMedia mediaRef media.length)
      (addMedia mediaRef media.length) := by
  have hlisting {media : List Media} {s t : Loader K}
      (h : Over withContainer (draft.Both (draft.Lists media)) s t) : Over withContainer draft.Listing s t :=
    h.mono fun _ _ => Both.listing
  induction media generalizing mediaRef with
  | nil => exact .pure fun _ _ hst => ⟨rfl, hlisting hst⟩
  | cons entry rest ih =>
      refine ((same_onContainer (paired_readMedia hsize entry rest)).failing fun _ _ => hlisting).bind_same
        fun media => ?_
      exact ((respects_onWorld _).failing fun _ _ => hlisting).bind_same fun state => ih _

theorem respects_loadMediaRef (hsize : draft.Small) (title : Title K) (tocIndex : Nat) :
    Respects withContainer draft.Anywhere (loadMediaRef title tocIndex) := by
  refine (over_onContainer (paired_tocOffset hsize tocIndex)).bind fun start start' => ?_
  rintro s t hstart
  obtain ⟨rfl, hentry⟩ := hstart.and
  obtain ⟨⟨content, _, hstands⟩, hst⟩ := hentry.and
  refine (same_onContainer (paired_goto draft start)).bind_same (fun _ => ?_) s t hst
  refine (over_onContainer (paired_enterMediaList hsize hstands)).bind fun info info' => ?_
  rintro s t hinfo
  obtain ⟨rfl, hentered⟩ := hinfo.and
  obtain ⟨base, one, other, ⟨media, hcount, hlists⟩, rfl, rfl⟩ := hentered
  rw [hcount]
  have hnew := (@respects_onWorld K (draft.Both (draft.Lists media)) _
    (title.newMediaRef info.typeIndex.toNat)).failing fun _ _ h => h.mono fun _ _ => Both.listing
  have hbody := hnew.bind_same fun mediaRef => paired_addMedia hsize media mediaRef
  exact hbody.closing_same (same_onContainer (paired_endMediaList draft)) _ _
    ⟨base, one, other, hlists, rfl, rfl⟩

end Draft

/-! ### Requests -/

namespace Loader

/-- What there is to see when a request was served or has failed: the reply, all of the loader but its container,
and the summaries of the sets. -/
structure Observation where
  reply : Except LoadError Reply
  sets : SetTable
  objects : ObjectLog
  around : Surroundings SetHandle String
  world : World Stock.catalog
  summaries : List SetSummary

/-- What there is to see after each of some requests. -/
def observe (title : Title Stock.catalog) (loader : Loader Stock.catalog) : List Request → List Observation
  | [] => []
  | request :: rest =>
    let (reply, left) := (respond title request).outcome loader
    { reply
      sets := left.host.sets
      objects := left.host.objects
      around := left.host.around
      world := left.world
      summaries := left.setSummaries } :: observe title left rest

end Loader

namespace Draft

open Loader

variable {draft : Draft}

theorem respects_respond (hmeasured : draft.Measured) (hsize : draft.Small) (title : Title Stock.catalog)
    (request : Request) : Respects withContainer draft.Anywhere (respond title request) := by
  cases request with
  | set index => exact (respects_loadSet hmeasured hsize title index).bind fun _ => .pure _
  | group tocIndex => exact (respects_loadGroup hmeasured hsize title tocIndex).bind fun _ => .pure _
  | scene tocIndex => exact (respects_loadScene hmeasured hsize title tocIndex).bind fun _ => .pure _
  | bootScene => exact (respects_loadBootScene hmeasured hsize title).bind fun _ => .pure _
  | mediaRef tocIndex => exact (respects_loadMediaRef hsize title tocIndex).bind fun _ => .pure _

/-- Loaders over the two containers are observed to do the same. -/
theorem observe_eq (hmeasured : draft.Measured) (hsize : draft.Small) (title : Title Stock.catalog)
    (requests : List Request) {first second : Loader Stock.catalog}
    (h : Over withContainer draft.Anywhere first second) :
    observe title first requests = observe title second requests := by
  induction requests generalizing first second with
  | nil => rfl
  | cons request rest ih =>
      rcases (respects_respond hmeasured hsize title request first second h).ends with
        ⟨reply, _, left, left', hfirst, hsecond, rfl, hleft⟩ | ⟨error, left, left', hfirst, hsecond, hleft⟩
      all_goals
        have hrest := ih hleft
        obtain ⟨base, one, other, _, rfl, rfl⟩ := hleft
        simp only [observe, hfirst, hsecond, hrest]
        rfl

theorem respects_serve (hmeasured : draft.Measured) (hsize : draft.Small) (title : Title Stock.catalog)
    (summary : LoadSummary) (request : Tool.Load.Request) :
    Respects withContainer draft.Anywhere (Tool.Load.serve title summary request) := by
  cases request with
  | group tocIndex =>
      exact (respects_loadGroup hmeasured hsize title tocIndex).mapError.bind fun _ => .pure _
  | scene tocIndex =>
      exact (respects_loadScene hmeasured hsize title tocIndex).mapError.bind fun _ => .pure _
  | bootScene =>
      simp only [Tool.Load.serve]
      split
      · exact .throw _
      · exact (respects_loadBootScene hmeasured hsize title).mapError.bind fun _ => .pure _
  | mediaRef tocIndex => exact (respects_loadMediaRef hsize title tocIndex).mapError.bind fun _ => .pure _

theorem respects_serveAll (hmeasured : draft.Measured) (hsize : draft.Small) (title : Title Stock.catalog)
    (requests : List Tool.Load.Request) (summary : LoadSummary) :
    Respects withContainer draft.Anywhere (Tool.Load.serveAll title summary requests) := by
  induction requests generalizing summary with
  | nil => exact .pure _
  | cons request rest ih => exact (respects_serve hmeasured hsize title summary request).bind ih

/-- The byte order in which a draft is written does not show. Both containers open with the same header and table
of contents; whatever a loader is asked for after that, one request after another, it answers the same over both
or fails for the same cause, with the same sets, identities and attachments after each request; and the tool
comes to the same summary or failure. -/
theorem order_does_not_show (draft : Draft) (hne : draft.contents ≠ []) (hmeasured : draft.Measured)
    (hsize : (draft.master .big).encode.length < UInt32.size) :
    ∃ big little, Container.load (draft.master .big).encode = .ok big ∧
      Container.load (draft.master .little).encode = .ok little ∧
      big.order = .big ∧ little.order = .little ∧ big.header = little.header ∧
      big.tocEntries = little.tocEntries ∧
      ∀ title : Title Stock.catalog,
        (∀ requests, observe title (start title big ()) requests = observe title (start title little ()) requests) ∧
        ∀ requests, Tool.Load.summarise title big () requests = Tool.Load.summarise title little () requests := by
  have hsmall : draft.Small := fun order => by rwa [length_encode_master draft order .big]
  have hsections (order : ByteOrder) : (draft.master order).sections ≠ [] :=
    mt List.map_eq_nil_iff.mp hne
  have hstart (title : Title Stock.catalog) : Over withContainer draft.Anywhere
      (start title (draft.master .big).loaded ()) (start title (draft.master .little).loaded ()) := by
    refine ⟨start title (draft.master .big).loaded (), (draft.master .big).loaded,
      (draft.master .little).loaded, ⟨40 + 8 * draft.contents.length, none, trivial, ?_, ?_⟩, rfl, rfl⟩
    all_goals
      rw [← firstOffset_master]
      rfl
  have hentries := entries_master draft .big .little
  refine ⟨_, _, Master.load_eq_loaded (hsections .big) (hsmall .big),
    Master.load_eq_loaded (hsections .little) (hsmall .little), rfl, rfl, rfl, hentries,
    fun title => ⟨fun requests => observe_eq hmeasured hsmall title requests (hstart title),
      fun requests => ?_⟩⟩
  have hserve := respects_serveAll hmeasured hsmall title requests
    (.empty (draft.master .big).loaded.tocEntries.length) _ _ (hstart title)
  have hcount : (draft.master .little).loaded.tocEntries.length =
      (draft.master .big).loaded.tocEntries.length := congrArg List.length hentries.symm
  simp only [Tool.Load.summarise, hcount]
  rcases hserve.ends with ⟨summary, _, left, left', hfirst, hsecond, rfl, hleft⟩ |
    ⟨failure, left, left', hfirst, hsecond, hleft⟩
  all_goals
    obtain ⟨base, one, other, _, rfl, rfl⟩ := hleft
    rw [hfirst, hsecond]
    rfl

/-- A title with a class of everything, that starts with the third entry. -/
def revueTitle : Title Stock.catalog where
  manifest := { pairTitle.manifest with
    setProperties := tintedTitle.manifest.setProperties
    sceneClasses := [⟨"StockScene", none⟩]
    mediaRefClasses := [⟨"StockMediaRef", none⟩]
    bootScene := some 2 }

/-- A set with a property, a pair of actors that are bound to it, a scene with the pair twice, and media. -/
def revue : Draft where
  header := ⟨1, 2⟩
  contents := [.set tintedSet, .group 0 2 (Replay.tiedPair []), .scene 0 [1, 1],
    .mediaList 0 0 [⟨1, 2, [7, 8, 9]⟩]]

/-- The scene, the pair and the media list are loaded; a set is no group, and there is no eighth set. -/
theorem revue_order_does_not_show :
    revue.contents ≠ [] ∧ revue.Measured ∧ (revue.master .big).encode.length < UInt32.size ∧
      ∃ big little, Container.load (revue.master .big).encode = .ok big ∧
        Container.load (revue.master .little).encode = .ok little ∧
        let requests := [.bootScene, .group 1, .mediaRef 3, .group 0, .set 7]
        observe revueTitle (start revueTitle big ()) requests =
          observe revueTitle (start revueTitle little ()) requests ∧
        (observe revueTitle (start revueTitle little ()) requests).map (fun seen => seen.reply.toOption.isSome) =
          [true, true, true, false, false] := by
  have hne : revue.contents ≠ [] := by simp [revue]
  have hmeasured : revue.Measured := by decide +kernel
  have hsize : (revue.master .big).encode.length < UInt32.size := by decide +kernel
  obtain ⟨big, little, hbig, hlittle, _, _, _, _, htitle⟩ := order_does_not_show revue hne hmeasured hsize
  refine ⟨hne, hmeasured, hsize, big, little, hbig, hlittle, (htitle revueTitle).1 _, ?_⟩
  have hloaded := @Master.load_eq_loaded (revue.master .little) (by simp [revue, master]) (by decide +kernel)
  obtain rfl := Except.ok.inj (hlittle.symm.trans hloaded)
  decide +kernel

end Draft

end Playprint
