import Playprint.Proofs.Container.RoundTrip
import Playprint.Proofs.Paired
import Playprint.Proofs.Replay.EitherOrder

/-!
Containers in either byte order. A draft says what is in a container without saying how it is spelled, and can be
written in both orders. All lengths come out the same, so every chunk stands at the same place in both, and the
tables of contents are equal. Reading them side by side, both streams are always at the same position, and what
is read was written for the same content.
-/

namespace Playprint

open Bytes (At)
open Instruction (MeasuredAll encodeAll)
open Step (Paired Same)

/-! ### Contents -/

/-- What a section is to hold. -/
inductive Content
  | group (typeIndex : UInt32) (actors : Nat) (instructions : List Instruction)
  | set (instructions : List Instruction)
  | scene (typeIndex : UInt32) (groups : List UInt32)
  | mediaList (flags typeIndex : UInt32) (media : List Media)

namespace Content

/-- The section for the content, with its byte code assembled. -/
def assemble (order : ByteOrder) : Content → Section
  | group typeIndex actors instructions =>
    .group (((Assembly.empty order).pushAll instructions).groupPayload typeIndex actors)
  | set instructions => .set ((Assembly.empty order).pushAll instructions).setPayload
  | scene typeIndex groups => .scene typeIndex groups
  | mediaList flags typeIndex media => .mediaList flags typeIndex media

/-- Whether all data that the byte code copies is as long as it has to be. -/
def Measured : Content → Prop
  | group _ _ instructions | set instructions => MeasuredAll 0 instructions
  | scene _ _ | mediaList _ _ _ => True

instance : (content : Content) → Decidable content.Measured
  | group _ _ instructions | set instructions => inferInstanceAs (Decidable (MeasuredAll 0 instructions))
  | scene _ _ | mediaList _ _ _ => inferInstanceAs (Decidable True)

/-- The payload of the chunk of the content. -/
def payload (order : ByteOrder) (content : Content) : Bytes :=
  (content.assemble order).payload order

/-- The tag of the chunk of the content. -/
def tag (content : Content) : Tag :=
  (content.assemble .big).tag

/-- The chunk of the content when its header starts at a position. -/
def chunk (content : Content) (pos : Nat) : Chunk :=
  (content.assemble .big).chunkAt .big pos

variable {content : Content} {order : ByteOrder}

theorem readable (order : ByteOrder) (content : Content) : (content.assemble order).Readable := by
  cases content <;> trivial

theorem eq_group_of_tag (h : content.tag = Tag.grp) :
    ∃ typeIndex actors instructions, content = group typeIndex actors instructions := by
  cases content with
  | group typeIndex actors instructions => exact ⟨typeIndex, actors, instructions, rfl⟩
  | set _ => exact absurd h (show Tag.set ≠ Tag.grp by decide)
  | scene _ _ => exact absurd h (show Tag.scn ≠ Tag.grp by decide)
  | mediaList _ _ _ => exact absurd h (show Tag.list ≠ Tag.grp by decide)

theorem eq_set_of_tag (h : content.tag = Tag.set) : ∃ instructions, content = set instructions := by
  cases content with
  | set instructions => exact ⟨instructions, rfl⟩
  | group _ _ _ => exact absurd h (show Tag.grp ≠ Tag.set by decide)
  | scene _ _ => exact absurd h (show Tag.scn ≠ Tag.set by decide)
  | mediaList _ _ _ => exact absurd h (show Tag.list ≠ Tag.set by decide)

theorem eq_scene_of_tag (h : content.tag = Tag.scn) :
    ∃ typeIndex groups, content = scene typeIndex groups := by
  cases content with
  | scene typeIndex groups => exact ⟨typeIndex, groups, rfl⟩
  | group _ _ _ => exact absurd h (show Tag.grp ≠ Tag.scn by decide)
  | set _ => exact absurd h (show Tag.set ≠ Tag.scn by decide)
  | mediaList _ _ _ => exact absurd h (show Tag.list ≠ Tag.scn by decide)

theorem eq_mediaList_of_tag (h : content.tag = Tag.list) :
    ∃ flags typeIndex media, content = mediaList flags typeIndex media := by
  cases content with
  | mediaList flags typeIndex media => exact ⟨flags, typeIndex, media, rfl⟩
  | group _ _ _ => exact absurd h (show Tag.grp ≠ Tag.list by decide)
  | set _ => exact absurd h (show Tag.set ≠ Tag.list by decide)
  | scene _ _ => exact absurd h (show Tag.scn ≠ Tag.list by decide)

theorem payload_group (order : ByteOrder) (typeIndex : UInt32) (actors : Nat)
    (instructions : List Instruction) :
    (group typeIndex actors instructions).payload order =
      order.wordBytes typeIndex ++ (Cursor.encodeIndex actors ++ encodeAll order instructions) := by
  simp [payload, assemble, Section.payload, Assembly.groupPayload, Assembly.pushAll_empty]

theorem payload_set (order : ByteOrder) (instructions : List Instruction) :
    (set instructions).payload order = encodeAll order instructions := by
  simp [payload, assemble, Section.payload, Assembly.setPayload, Assembly.pushAll_empty]

theorem payload_scene (order : ByteOrder) (typeIndex : UInt32) (groups : List UInt32) :
    (scene typeIndex groups).payload order =
      Chunk.encodeWords order (typeIndex :: UInt32.ofNat groups.length :: groups) := rfl

theorem length_mediaChunks (order other : ByteOrder) (media : List Media) :
    (Container.mediaChunks order media).length = (Container.mediaChunks other media).length := by
  induction media with
  | nil => rfl
  | cons entry rest ih =>
      simp only [Container.mediaChunks_cons, List.length_append, Chunk.length_encode,
        Container.length_payload, ih]

theorem length_payload (order other : ByteOrder) (content : Content) :
    (content.payload order).length = (content.payload other).length := by
  cases content with
  | group typeIndex actors instructions =>
      simp only [payload_group, List.length_append, ByteOrder.length_wordBytes,
        Instruction.length_encodeAll order other]
  | set instructions => simp only [payload_set, Instruction.length_encodeAll order other]
  | scene typeIndex groups => simp [payload, assemble, Section.payload]
  | mediaList flags typeIndex media =>
      simp only [payload, assemble, Section.payload_mediaList, List.length_append,
        Container.length_infoChunk, length_mediaChunks order other]

/-- A content is as long in both orders. -/
theorem length_encode (order other : ByteOrder) (content : Content) :
    ((content.assemble order).encode order).length = ((content.assemble other).encode other).length := by
  have hlength := length_payload order other content
  cases content with
  | mediaList flags typeIndex media =>
      simp only [payload, assemble] at hlength
      simp only [assemble, Section.encode, Chunk.length_encodeForm, hlength]
  | group typeIndex actors instructions | set instructions | scene typeIndex groups =>
      simp only [payload, assemble] at hlength
      simp only [assemble, Section.encode, Chunk.length_encode, hlength]

/-- The same chunk in both orders. -/
theorem chunkAt_assemble (order : ByteOrder) (content : Content) (pos : Nat) :
    (content.assemble order).chunkAt order pos = content.chunk pos := by
  have hlength := length_payload order .big content
  cases content with
  | mediaList flags typeIndex media =>
      simp only [payload, assemble] at hlength
      simp only [chunk, assemble, Section.chunkAt, Chunk.formAt, hlength]
  | group typeIndex actors instructions | set instructions | scene typeIndex groups =>
      simp only [payload, assemble] at hlength
      simp only [chunk, assemble, Section.chunkAt, Chunk.plainAt, hlength, Section.tag]

end Content

/-! ### Drafts -/

/-- What is to be in a container. -/
structure Draft where
  header : Header
  contents : List Content

namespace Draft

variable {draft : Draft} {content : Content} {order : ByteOrder} {pos index : Nat} {list : Option Chunk}

/-- The draft in a byte order. -/
def master (draft : Draft) (order : ByteOrder) : Master :=
  ⟨order, draft.header, draft.contents.map (Content.assemble order)⟩

/-- Whether all data that the byte code of the draft copies is as long as it has to be. -/
def Measured (draft : Draft) : Prop :=
  ∀ content ∈ draft.contents, content.Measured

instance : Decidable draft.Measured :=
  inferInstanceAs (Decidable (∀ content ∈ draft.contents, content.Measured))

/-- Whether sizes and offsets have room in words, in both orders. -/
def Small (draft : Draft) : Prop :=
  ∀ order, (draft.master order).encode.length < UInt32.size

theorem entriesFrom_assemble (order other : ByteOrder) (index pos : Nat) (contents : List Content) :
    Master.entriesFrom order index pos (contents.map (Content.assemble order)) =
      Master.entriesFrom other index pos (contents.map (Content.assemble other)) := by
  induction contents generalizing index pos with
  | nil => rfl
  | cons content rest ih =>
      rw [List.map_cons, List.map_cons, Master.entriesFrom, Master.entriesFrom,
        Content.length_encode order other, ih]

theorem firstOffset_master (draft : Draft) (order : ByteOrder) :
    (draft.master order).firstOffset = 40 + 8 * draft.contents.length := by
  rw [Master.firstOffset_eq, master, List.length_map]

/-- The tables of contents are equal. -/
theorem entries_master (draft : Draft) (order other : ByteOrder) :
    (draft.master order).entries = (draft.master other).entries := by
  rw [Master.entries, Master.entries, firstOffset_master, firstOffset_master]
  exact entriesFrom_assemble order other 0 _ draft.contents

theorem length_flatMap_assemble (order other : ByteOrder) (contents : List Content) :
    ((contents.map (Content.assemble order)).flatMap (Section.encode order)).length =
      ((contents.map (Content.assemble other)).flatMap (Section.encode other)).length := by
  induction contents with
  | nil => rfl
  | cons content rest ih =>
      simp only [List.map_cons, List.flatMap_cons, List.length_append, Content.length_encode order other, ih]

/-- The draft is as long in both orders. -/
theorem length_encode_master (draft : Draft) (order other : ByteOrder) :
    (draft.master order).encode.length = (draft.master other).encode.length := by
  rw [Master.length_encode, Master.length_encode, firstOffset_master, firstOffset_master]
  exact congrArg _ (length_flatMap_assemble order other draft.contents)

/-- The draft written in an order and opened, at a position, with a media list open or none. -/
def reader (draft : Draft) (order : ByteOrder) (pos : Nat) (list : Option Chunk) : Container :=
  { (draft.master order).loaded with mediaList := list }.moved pos

/-- The table of contents. -/
def toc (draft : Draft) : Toc :=
  ⟨draft.contents.length, (draft.master .big).entries.toArray⟩

/-- Whether the chunk of a content stands at a position, in both orders. -/
def Stands (draft : Draft) (content : Content) (pos : Nat) : Prop :=
  ∀ order, At (draft.master order).encode pos ((content.assemble order).encode order)

/-- Whether the chunks of media stand at a position in an open list, in both orders. -/
def Lists (draft : Draft) (media : List Media) (pos : Nat) (list : Option Chunk) : Prop :=
  ∃ chunk, list = some chunk ∧ chunk.stop < UInt64.size ∧ ∀ order,
    At (draft.master order).encode pos (Container.mediaChunks order media) ∧
      pos + (Container.mediaChunks order media).length ≤ chunk.stop

/-- Two containers of the draft, one in each order, at one position and with the same list open. -/
def Both (draft : Draft) (P : Nat → Option Chunk → Prop) (one other : Container) : Prop :=
  ∃ pos list, P pos list ∧ one = draft.reader .big pos list ∧ other = draft.reader .little pos list

/-- Two containers of the draft wherever they are. -/
def Anywhere (draft : Draft) : Container → Container → Prop :=
  draft.Both fun _ _ => True

theorem Both.anywhere {P : Nat → Option Chunk → Prop} {one other : Container} (h : draft.Both P one other) :
    draft.Anywhere one other := by
  obtain ⟨pos, list, _, hone, hother⟩ := h
  exact ⟨pos, list, trivial, hone, hother⟩

theorem toc_reader (draft : Draft) (order : ByteOrder) (pos : Nat) (list : Option Chunk) :
    (draft.reader order pos list).toc = some draft.toc := by
  show some (Toc.mk (draft.contents.map _).length (draft.master order).entries.toArray) = _
  rw [List.length_map, entries_master draft order .big]
  rfl

/-- A payload is shorter than the whole, in which its chunk stands. -/
theorem length_payload_lt_of_at (hsize : draft.Small)
    (hat : At (draft.master order).encode pos ((content.assemble order).encode order)) :
    (content.payload order).length < UInt32.size := by
  have hle := hat.le
  have hshort := Section.length_payload_lt order (content.assemble order)
  have hsmall := hsize order
  rw [← Content.payload] at hshort
  omega

theorem length_payload_lt (hsize : draft.Small) (hcontent : content ∈ draft.contents) (order : ByteOrder) :
    (content.payload order).length < UInt32.size := by
  have hsection : content.assemble order ∈ (draft.master order).sections := List.mem_map_of_mem hcontent
  obtain ⟨index, hindex⟩ := List.getElem?_of_mem hsection
  obtain ⟨_, _, hat⟩ := Master.offset_of_section (hsize order) hindex
  exact length_payload_lt_of_at hsize hat

/-- A table entry leads to the chunk of a content. -/
theorem stands_of_offset (hsize : draft.Small) {start : Nat}
    (h : draft.toc.offset index = .ok start) : ∃ content ∈ draft.contents, draft.Stands content start := by
  cases hcontent : draft.contents[index]? with
  | none =>
      have hentry : draft.toc.entries[index]? = none := by
        rw [List.getElem?_eq_none_iff] at hcontent
        simp only [toc, List.getElem?_toArray, List.getElem?_eq_none_iff, Master.length_entries]
        rwa [master, List.length_map]
      simp only [Toc.offset, hentry] at h
      cases h
  | some content =>
      refine ⟨content, List.mem_of_getElem? hcontent, fun order => ?_⟩
      have hsection : (draft.master order).sections[index]? = some (content.assemble order) := by
        rw [master, List.getElem?_map, hcontent, Option.map_some]
      obtain ⟨found, hfound, hat⟩ := Master.offset_of_section (hsize order) hsection
      have htoc : (Toc.mk (draft.master order).sections.length (draft.master order).entries.toArray) =
          draft.toc := Option.some.inj (draft.toc_reader order 0 none)
      rw [htoc, h] at hfound
      cases hfound
      exact hat

/-! ### Reading side by side -/

theorem outcome_tocOffset (draft : Draft) (order : ByteOrder) (pos index : Nat) (list : Option Chunk) :
    (Container.tocOffset index).outcome (draft.reader order pos list) =
      (draft.toc.offset index, draft.reader order pos list) := by
  rw [Container.tocOffset, Step.outcome_bind_ok (Step.outcome_get _), toc_reader]
  exact Step.outcome_ofExcept _ _

/-- A chunk with another tag is passed over. -/
theorem outcome_expectNext_other {start : Nat} {expected : Tag} (hstands : draft.Stands content start)
    (htag : content.tag ≠ expected) (order : ByteOrder) (list : Option Chunk) :
    (Container.expectNext expected).outcome (draft.reader order start list) =
      (.error (.unexpectedChunk expected content.tag),
        draft.reader order (content.chunk start).finish list) := by
  have hchunk := Section.at?_chunkAt (content.readable order) (hstands order)
  rw [Content.chunkAt_assemble] at hchunk
  have hfound : (content.chunk start).tag = content.tag := Section.tag_chunkAt .big start _
  rw [← hfound] at htag ⊢
  exact Container.outcome_expectNext_other expected htag hchunk

variable {start : Nat}

theorem outcome_readChunkAt (hsize : draft.Small) (hstands : draft.Stands content start)
    (hoffset : draft.toc.offset index = .ok start) (htag : content.tag.hasForm = false)
    (order : ByteOrder) (pos : Nat) (list : Option Chunk) :
    (Container.readChunkAt index content.tag).outcome (draft.reader order pos list) =
      (.ok (content.payload order),
        draft.reader order (start + ((content.assemble order).encode order).length) list) := by
  have hencode : (content.assemble order).encode order =
      Chunk.encode order content.tag (content.payload order) := by
    cases content with
    | group _ _ _ | set _ | scene _ _ => rfl
    | mediaList _ _ _ => cases htag
  have hat := hstands order
  have hpayload := length_payload_lt_of_at hsize hat
  rw [hencode] at hat ⊢
  exact Container.outcome_readChunkAt (draft.toc_reader order pos list) hoffset htag hpayload hat

theorem outcome_readChunkAt_other {expected : Tag} (hstands : draft.Stands content start)
    (hoffset : draft.toc.offset index = .ok start) (htag : content.tag ≠ expected) (order : ByteOrder)
    (pos : Nat) (list : Option Chunk) :
    (Container.readChunkAt index expected).outcome (draft.reader order pos list) =
      (.error (.unexpectedChunk expected content.tag),
        draft.reader order (content.chunk start).finish list) := by
  have hentry := outcome_tocOffset draft order pos index list
  rw [hoffset] at hentry
  rw [Container.readChunkAt, Step.outcome_bind_ok hentry,
    Step.outcome_bind_ok (Container.outcome_goto _ _)]
  exact Step.outcome_bind_error (outcome_expectNext_other hstands htag order list)

/-- Two payloads that were written for the same content, one in each order. -/
def Payloads (draft : Draft) (tag : Tag) (payload payload' : Bytes) : Prop :=
  ∃ content ∈ draft.contents, content.tag = tag ∧ payload = content.payload .big ∧
    payload' = content.payload .little

/-- The chunk of a table entry is read alike. -/
theorem paired_readChunkAt (hsize : draft.Small) (index : Nat) {tag : Tag}
    (htag : tag.hasForm = false) :
    Paired draft.Anywhere
      (fun payload payload' one other => draft.Payloads tag payload payload' ∧ draft.Anywhere one other)
      draft.Anywhere (Container.readChunkAt index tag) (Container.readChunkAt index tag) := by
  rintro _ _ ⟨pos, list, _, rfl, rfl⟩
  cases hoffset : draft.toc.offset index with
  | error error =>
      have hentry (order : ByteOrder) := outcome_tocOffset draft order pos index list
      simp only [hoffset] at hentry
      rw [Container.readChunkAt, Step.outcome_bind_error (hentry .big),
        Step.outcome_bind_error (hentry .little)]
      exact .error ⟨pos, list, trivial, rfl, rfl⟩
  | ok start =>
      obtain ⟨content, hcontent, hstands⟩ := stands_of_offset hsize hoffset
      by_cases hfound : content.tag = tag
      · subst hfound
        have hread := outcome_readChunkAt hsize hstands hoffset htag
        rw [hread .big, hread .little, Content.length_encode .little .big]
        exact .ok ⟨⟨content, hcontent, rfl, rfl, rfl⟩, _, list, trivial, rfl, rfl⟩
      · have hread := outcome_readChunkAt_other hstands hoffset hfound
        rw [hread .big, hread .little]
        exact .error ⟨_, list, trivial, rfl, rfl⟩

/-! ### Media lists side by side -/

theorem paired_tocOffset (hsize : draft.Small) (index : Nat) :
    Paired draft.Anywhere
      (fun start start' one other => start = start' ∧
        (∃ content ∈ draft.contents, draft.Stands content start) ∧ draft.Anywhere one other)
      draft.Anywhere (Container.tocOffset index) (Container.tocOffset index) := by
  rintro _ _ ⟨pos, list, _, rfl, rfl⟩
  rw [outcome_tocOffset, outcome_tocOffset]
  cases hoffset : draft.toc.offset index with
  | error error => exact .error ⟨pos, list, trivial, rfl, rfl⟩
  | ok start => exact .ok ⟨rfl, stands_of_offset hsize hoffset, pos, list, trivial, rfl, rfl⟩

theorem paired_goto (draft : Draft) (start : Nat) :
    Paired draft.Anywhere (Same (draft.Both fun pos _ => pos = start)) draft.Anywhere
      (Container.goto start) (Container.goto start) := by
  rintro _ _ ⟨pos, list, _, rfl, rfl⟩
  exact .ok ⟨rfl, start, list, rfl, rfl, rfl⟩

theorem paired_position (draft : Draft) :
    Paired draft.Anywhere (Same draft.Anywhere) draft.Anywhere Container.position Container.position := by
  rintro _ _ ⟨pos, list, _, rfl, rfl⟩
  have hposition (order : ByteOrder) : Container.position.outcome (draft.reader order pos list) =
      (.ok pos, draft.reader order pos list) := rfl
  rw [hposition, hposition]
  exact .ok ⟨rfl, pos, list, trivial, rfl, rfl⟩

/-- Nothing else than a media list is entered, and then no list is open. -/
theorem outcome_enterMediaList_other (hstands : draft.Stands content start) (htag : content.tag ≠ Tag.list)
    (list : Option Chunk) :
    ∃ next, ∀ order, Container.enterMediaList.outcome (draft.reader order start list) =
      (.error (.unexpectedChunk Tag.list content.tag), draft.reader order next none) := by
  have hbegin (order : ByteOrder) : Container.beginMediaList.outcome (draft.reader order start list) =
      (.error (.unexpectedChunk Tag.list content.tag),
        draft.reader order (content.chunk start).finish list) :=
    Step.outcome_bind_error (outcome_expectNext_other hstands htag order list)
  cases list with
  | none =>
      refine ⟨(content.chunk start).finish, fun order => ?_⟩
      rw [Container.enterMediaList, Step.outcome_onFailure_error (hbegin order)]
      rfl
  | some chunk =>
      refine ⟨chunk.finish, fun order => ?_⟩
      rw [Container.enterMediaList, Step.outcome_onFailure_error (hbegin order)]
      rfl

/-- A media list is entered in front of its media. -/
theorem outcome_enterMediaList (hsize : draft.Small) {flags typeIndex : UInt32} {media : List Media}
    (hstands : draft.Stands (.mediaList flags typeIndex media) start) (list : Option Chunk) :
    media.length < UInt32.size ∧ ∃ chunk, draft.Lists media (start + 12 + 20) (some chunk) ∧
      ∀ order, Container.enterMediaList.outcome (draft.reader order start list) =
        (.ok ⟨flags, typeIndex, UInt32.ofNat media.length⟩,
          draft.reader order (start + 12 + 20) (some chunk)) := by
  have hat (order : ByteOrder) : At (draft.master order).encode start
      (Chunk.encodeForm order Tag.list Tag.mrfl
        (Container.infoChunk order ⟨flags, typeIndex, UInt32.ofNat media.length⟩ ++
          Container.mediaChunks order media)) := hstands order
  have hlength (order : ByteOrder) : (Container.infoChunk order ⟨flags, typeIndex, UInt32.ofNat media.length⟩ ++
      Container.mediaChunks order media).length = 20 + (Container.mediaChunks .big media).length := by
    rw [List.length_append, Container.length_infoChunk, Content.length_mediaChunks order .big]
  have hshort : start + 12 + (20 + (Container.mediaChunks .big media).length) < UInt32.size := by
    have hle := (hat .big).le
    have hsmall := hsize .big
    rw [Chunk.length_encodeForm, hlength] at hle
    omega
  have hmedia := Master.length_le_of_media .big media
  -- Only the length of the children shows in the chunk, and it does not depend on the order.
  let chunk : Chunk :=
    ⟨Tag.list, UInt32.ofNat (20 + (Container.mediaChunks .big media).length), Tag.mrfl, start + 12⟩
  have hchunk (order : ByteOrder) : Chunk.formAt Tag.list Tag.mrfl
      (Container.infoChunk order ⟨flags, typeIndex, UInt32.ofNat media.length⟩ ++
        Container.mediaChunks order media) start = chunk := by
    rw [Chunk.formAt, hlength]
  have hstop : chunk.stop = start + 12 + (20 + (Container.mediaChunks .big media).length) := by
    rw [← hchunk .big, Chunk.stop_formAt _ _ _ (by rw [hlength]; omega), hlength]
  refine ⟨by omega, chunk, ⟨chunk, rfl, ?_, fun order => ⟨?_, ?_⟩⟩, fun order => ?_⟩
  · have hroom : UInt32.size ≤ UInt64.size := by decide
    omega
  · have hentries := (Chunk.at_children (hat order)).right
    rwa [Container.length_infoChunk] at hentries
  · rw [Content.length_mediaChunks order .big]
    omega
  · have hchildren : (Container.infoChunk order ⟨flags, typeIndex, UInt32.ofNat media.length⟩ ++
        Container.mediaChunks order media).length < UInt32.size := by
      rw [hlength]
      omega
    have hbegin := @Container.outcome_beginMediaList (draft.reader order start list) start
      ⟨flags, typeIndex, UInt32.ofNat media.length⟩ _ hchildren (hat order)
    exact Step.outcome_onFailure_ok (hchunk order ▸ hbegin)

/-- The next of the media in an open list. -/
theorem outcome_readMedia (hsize : draft.Small) {entry : Media} {rest : List Media}
    (hlists : draft.Lists (entry :: rest) pos list) :
    ∃ next, draft.Lists rest next list ∧ ∀ order, Container.readMedia.outcome (draft.reader order pos list) =
      (.ok entry, draft.reader order next list) := by
  obtain ⟨chunk, rfl, hstop, hlists⟩ := hlists
  have hlength (order : ByteOrder) : (Chunk.encode order Tag.mref (entry.payload order)).length =
      (Chunk.encode .big Tag.mref (entry.payload .big)).length := by
    simp only [Chunk.length_encode, Container.length_payload]
  simp only [Container.mediaChunks_cons, List.length_append] at hlists
  refine ⟨pos + (Chunk.encode .big Tag.mref (entry.payload .big)).length,
    ⟨chunk, rfl, hstop, fun order => ?_⟩, fun order => ?_⟩
  all_goals obtain ⟨hat, hend⟩ := hlists order
  · rw [← hlength order]
    exact ⟨hat.right, by omega⟩
  · have hpayload : (entry.payload order).length < UInt32.size := by
      have hle := hat.left.le
      have hsmall := hsize order
      rw [Chunk.length_encode] at hle
      omega
    have hwithin : pos + (Chunk.encode order Tag.mref (entry.payload order)).length ≤ chunk.stop := by
      omega
    rw [← hlength order]
    exact @Container.outcome_readMedia (draft.reader order pos (some chunk)) pos entry chunk rfl
      hwithin hpayload hat.left

theorem paired_enterMediaList (hsize : draft.Small) (hstands : draft.Stands content start) :
    Paired (draft.Both fun pos _ => pos = start)
      (fun info info' one other => info = info' ∧ ∃ media, info.count.toNat = media.length ∧
        draft.Both (draft.Lists media) one other)
      draft.Anywhere Container.enterMediaList Container.enterMediaList := by
  rintro _ _ ⟨_, list, rfl, rfl, rfl⟩
  by_cases htag : content.tag = Tag.list
  · obtain ⟨flags, typeIndex, media, rfl⟩ := Content.eq_mediaList_of_tag htag
    obtain ⟨hcount, chunk, hlists, henter⟩ := outcome_enterMediaList hsize hstands list
    rw [henter, henter]
    exact .ok ⟨rfl, media, UInt32.toNat_ofNat_of_lt' hcount, _, _, hlists, rfl, rfl⟩
  · obtain ⟨next, henter⟩ := outcome_enterMediaList_other hstands htag list
    rw [henter, henter]
    exact .error ⟨next, none, trivial, rfl, rfl⟩

theorem paired_readMedia (hsize : draft.Small) (entry : Media) (rest : List Media) :
    Paired (draft.Both (draft.Lists (entry :: rest))) (Same (draft.Both (draft.Lists rest)))
      (draft.Both (draft.Lists rest)) Container.readMedia Container.readMedia := by
  rintro _ _ ⟨pos, list, hlists, rfl, rfl⟩
  obtain ⟨next, hrest, hread⟩ := outcome_readMedia hsize hlists
  rw [hread, hread]
  exact .ok ⟨rfl, next, list, hrest, rfl, rfl⟩

/-- Two containers of the draft with a media list open. -/
def Listing (draft : Draft) : Container → Container → Prop :=
  draft.Both fun _ list => list.isSome

theorem Both.listing {media : List Media} {one other : Container}
    (h : draft.Both (draft.Lists media) one other) : draft.Listing one other := by
  obtain ⟨pos, list, ⟨chunk, rfl, _⟩, hone, hother⟩ := h
  exact ⟨pos, some chunk, rfl, hone, hother⟩

theorem paired_endMediaList (draft : Draft) :
    Paired draft.Listing (Same draft.Anywhere) draft.Anywhere Container.endMediaList
      Container.endMediaList := by
  rintro _ _ ⟨pos, list, hlist, rfl, rfl⟩
  obtain ⟨chunk, rfl⟩ := Option.isSome_iff_exists.mp hlist
  have hleave (order : ByteOrder) : Container.endMediaList.outcome (draft.reader order pos (some chunk)) =
      (.ok (), draft.reader order chunk.finish none) := Container.outcome_endMediaList _ rfl
  rw [hleave, hleave]
  exact .ok ⟨rfl, chunk.finish, none, trivial, rfl, rfl⟩

end Draft

end Playprint
