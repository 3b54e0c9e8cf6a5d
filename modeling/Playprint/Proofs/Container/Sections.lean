import Playprint.Proofs.Container.Reading

/-!
The sections of a container as chunks. Every section is found where its table entry points, whatever was
written before it, and the siblings inside the outermost chunk are the sections in their order.
-/

namespace Playprint

open Bytes (At)

namespace Section

variable {order : ByteOrder} {data : Bytes} {pos : Nat} {part : Section}

/-- Whether the chunk of a section is taken for what it was written as. A raw section must not have the
tag of a chunk that holds other chunks. -/
def Readable : Section → Prop
  | raw tag _ => tag.hasForm = false
  | _ => True

/-- The chunk of a section whose header starts at a position. -/
def chunkAt (order : ByteOrder) (pos : Nat) (part : Section) : Chunk :=
  match part with
  | mediaList _ _ _ => Chunk.formAt Tag.list Tag.mrfl (part.payload order) pos
  | group _ | set _ | scene _ _ | raw _ _ => Chunk.plainAt part.tag (part.payload order) pos

@[simp] theorem tag_chunkAt (order : ByteOrder) (pos : Nat) (part : Section) :
    (part.chunkAt order pos).tag = part.tag := by
  cases part <;> rfl

/-- Sections are lists of media, or chunks without form. -/
theorem encode_eq (order : ByteOrder) (hreadable : part.Readable) :
    (∃ flags typeIndex media, part = mediaList flags typeIndex media) ∨
    (part.tag.hasForm = false ∧ part.encode order = Chunk.encode order part.tag (part.payload order) ∧
      ∀ pos, part.chunkAt order pos = Chunk.plainAt part.tag (part.payload order) pos) := by
  cases part with
  | mediaList flags typeIndex media => exact .inl ⟨flags, typeIndex, media, rfl⟩
  | raw tag payload => exact .inr ⟨hreadable, rfl, fun _ => rfl⟩
  | group payload | set payload | scene typeIndex groups => exact .inr ⟨rfl, rfl, fun _ => rfl⟩

theorem even_flatMap {α : Type} {items : List α} {encode : α → Bytes}
    (h : ∀ item ∈ items, (encode item).length % 2 = 0) : (items.flatMap encode).length % 2 = 0 := by
  induction items with
  | nil => rfl
  | cons item rest ih =>
      have hitem := h item List.mem_cons_self
      have hrest := ih fun other hother => h other (List.mem_cons_of_mem _ hother)
      rw [List.flatMap_cons, List.length_append]
      omega

theorem even_encode (order : ByteOrder) (tag : Tag) (payload : Bytes) :
    (Chunk.encode order tag payload).length % 2 = 0 := by
  rw [Chunk.length_encode]
  omega

theorem payload_mediaList (order : ByteOrder) (flags typeIndex : UInt32) (media : List Media) :
    (mediaList flags typeIndex media).payload order =
      Container.infoChunk order ⟨flags, typeIndex, UInt32.ofNat media.length⟩ ++
        Container.mediaChunks order media := rfl

theorem even_payload_mediaList (order : ByteOrder) (flags typeIndex : UInt32) (media : List Media) :
    ((mediaList flags typeIndex media).payload order).length % 2 = 0 := by
  have hmedia : (Container.mediaChunks order media).length % 2 = 0 :=
    even_flatMap fun entry _ => even_encode order Tag.mref (entry.payload order)
  rw [payload_mediaList, List.length_append, Container.length_infoChunk]
  omega

theorem even_length_encode (order : ByteOrder) (part : Section) :
    (part.encode order).length % 2 = 0 := by
  cases part with
  | mediaList flags typeIndex media =>
      have hpayload := even_payload_mediaList order flags typeIndex media
      rw [encode, Chunk.length_encodeForm]
      omega
  | group payload | set payload | scene typeIndex groups | raw tag payload =>
      exact even_encode order _ _

theorem length_payload_lt (order : ByteOrder) (part : Section) :
    (part.payload order).length + 8 ≤ (part.encode order).length := by
  cases part with
  | mediaList flags typeIndex media =>
      rw [encode, Chunk.length_encodeForm]
      omega
  | group payload | set payload | scene typeIndex groups | raw tag payload =>
      rw [encode, Chunk.length_encode]
      omega

theorem at?_chunkAt (hreadable : part.Readable) (h : At data pos (part.encode order)) :
    Chunk.at? order data pos = some (part.chunkAt order pos) := by
  rcases encode_eq order hreadable with ⟨flags, typeIndex, media, rfl⟩ | ⟨htag, hencode, hchunk⟩
  · exact Chunk.at?_encodeForm rfl h
  · rw [hchunk]
    exact Chunk.at?_encode htag (hencode ▸ h)

theorem finish_chunkAt (hreadable : part.Readable)
    (hsize : (part.encode order).length < UInt32.size) :
    (part.chunkAt order pos).finish = pos + (part.encode order).length := by
  have hpayload := length_payload_lt order part
  rcases encode_eq order hreadable with ⟨flags, typeIndex, media, rfl⟩ | ⟨htag, hencode, hchunk⟩
  · exact Chunk.finish_formAt order Tag.list Tag.mrfl pos (by omega)
      (even_payload_mediaList order flags typeIndex media)
  · rw [hchunk, hencode]
    exact Chunk.finish_plainAt order part.tag pos (by omega)

theorem start_chunkAt (hreadable : part.Readable) : (part.chunkAt order pos).start = pos := by
  rcases encode_eq order hreadable with ⟨flags, typeIndex, media, rfl⟩ | ⟨htag, hencode, hchunk⟩
  · exact Chunk.start_formAt rfl
  · rw [hchunk]
    exact Chunk.start_plainAt htag

end Section

namespace Chunk

variable {order : ByteOrder} {data : Bytes} {limit pos : Nat} {chunk : Chunk}

theorem siblings_next (hfits : headerFits pos limit = true) (h : at? order data pos = some chunk) :
    siblings order data limit pos = (siblings order data limit chunk.finish).map (chunk :: ·) := by
  rw [siblings, if_pos hfits]
  split <;> rename_i heq <;> rw [h] at heq <;> cases heq
  rfl

theorem siblings_cut (hfits : headerFits pos limit = true) (h : at? order data pos = none) :
    siblings order data limit pos = none := by
  rw [siblings, if_pos hfits]
  split
  · rfl
  · rename_i heq
    rw [h] at heq
    cases heq

theorem siblings_stop (hfits : ¬headerFits pos limit = true) : siblings order data limit pos = some [] := by
  rw [siblings, if_neg hfits]

theorem siblings_end (hlimit : limit + 8 < UInt64.size) :
    siblings order data limit limit = some [] :=
  siblings_stop (by rw [headerFits_self hlimit]; decide)

end Chunk

namespace Master

variable {order : ByteOrder} {data : Bytes} {pos index : Nat} {sections : List Section}

/-- The chunks of sections of which the first starts at a position. -/
def chunksFrom (order : ByteOrder) (pos : Nat) : List Section → List Chunk
  | [] => []
  | part :: rest => part.chunkAt order pos :: chunksFrom order (pos + (part.encode order).length) rest

/-- The table entries of sections from `index` on of which the first starts at a position. -/
def entriesFrom (order : ByteOrder) (index pos : Nat) : List Section → List TocEntry
  | [] => []
  | part :: rest => ⟨UInt32.ofNat index, UInt32.ofNat pos⟩ ::
      entriesFrom order (index + 1) (pos + (part.encode order).length) rest

/-- The words of table entries. -/
def entryWords (entries : List TocEntry) : List UInt32 :=
  entries.flatMap fun entry => [entry.label, entry.offset]

theorem length_entryWords (entries : List TocEntry) :
    (entryWords entries).length = 2 * entries.length := by
  induction entries with
  | nil => rfl
  | cons entry rest ih =>
      rw [entryWords, List.flatMap_cons, List.length_append, ← entryWords, ih, List.length_cons]
      simp only [List.length_cons, List.length_nil]
      omega

theorem tocWords_eq (order : ByteOrder) (index pos : Nat) (sections : List Section) :
    tocWords order index pos sections = entryWords (entriesFrom order index pos sections) := by
  induction sections generalizing index pos with
  | nil => rfl
  | cons part rest ih =>
      rw [tocWords, ih]
      rfl

theorem length_entriesFrom (order : ByteOrder) (index pos : Nat) (sections : List Section) :
    (entriesFrom order index pos sections).length = sections.length := by
  induction sections generalizing index pos with
  | nil => rfl
  | cons part rest ih => rw [entriesFrom, List.length_cons, ih, List.length_cons]

theorem entriesFrom_append (order : ByteOrder) (index pos : Nat) (done left : List Section) :
    entriesFrom order index pos (done ++ left) = entriesFrom order index pos done ++
      entriesFrom order (index + done.length) (pos + (done.flatMap (Section.encode order)).length) left := by
  induction done generalizing index pos with
  | nil => rfl
  | cons part rest ih =>
      rw [List.cons_append, entriesFrom, ih, entriesFrom, List.cons_append, List.length_cons,
        List.flatMap_cons, List.length_append, Nat.add_assoc index, Nat.add_comm 1, Nat.add_assoc pos]

theorem chunksFrom_append (order : ByteOrder) (pos : Nat) (done left : List Section) :
    chunksFrom order pos (done ++ left) = chunksFrom order pos done ++
      chunksFrom order (pos + (done.flatMap (Section.encode order)).length) left := by
  induction done generalizing pos with
  | nil => rfl
  | cons part rest ih =>
      rw [List.cons_append, chunksFrom, ih, chunksFrom, List.cons_append, List.flatMap_cons,
        List.length_append, Nat.add_assoc pos]

theorem length_le_of_sections (order : ByteOrder) (sections : List Section) :
    8 * sections.length ≤ (sections.flatMap (Section.encode order)).length := by
  induction sections with
  | nil => simp
  | cons part rest ih =>
      have hpart := Section.length_payload_lt order part
      rw [List.flatMap_cons, List.length_append, List.length_cons]
      omega

theorem length_le_of_media (order : ByteOrder) (media : List Media) :
    8 * media.length ≤ (Container.mediaChunks order media).length := by
  induction media with
  | nil => simp
  | cons entry rest ih =>
      rw [Container.mediaChunks_cons, List.length_append, Chunk.length_encode, List.length_cons]
      omega

/-- The entry of a section carries its position in the list and points at its chunk. -/
theorem entriesFrom_of_getElem? (index : Nat) {i : Nat} {part : Section} (hpart : sections[i]? = some part)
    (h : At data pos (sections.flatMap (Section.encode order))) :
    ∃ start, (entriesFrom order index pos sections)[i]? =
        some ⟨UInt32.ofNat (index + i), UInt32.ofNat start⟩ ∧
      pos ≤ start ∧ At data start (part.encode order) := by
  induction sections generalizing index pos i with
  | nil => simp at hpart
  | cons first rest ih =>
      rw [List.flatMap_cons] at h
      cases i with
      | zero =>
          obtain rfl : first = part := by simpa using hpart
          exact ⟨pos, rfl, Nat.le_refl pos, h.left⟩
      | succ i =>
          obtain ⟨start, hentry, hle, hat⟩ := ih (index + 1) (by simpa using hpart) h.right
          refine ⟨start, ?_, by omega, hat⟩
          rw [entriesFrom, List.getElem?_cons_succ, hentry, Nat.add_assoc, Nat.add_comm 1 i]

/-- The chunks inside the outermost one from the first section on. -/
theorem siblings_sections {limit : Nat} (hreadable : ∀ part ∈ sections, part.Readable)
    (hlimit : pos + (sections.flatMap (Section.encode order)).length = limit)
    (hend : limit < UInt32.size) (h : At data pos (sections.flatMap (Section.encode order))) :
    Chunk.siblings order data limit pos = some (chunksFrom order pos sections) := by
  have hroom : UInt32.size + 8 < UInt64.size := by decide
  induction sections generalizing pos with
  | nil =>
      obtain rfl : pos = limit := hlimit
      exact Chunk.siblings_end (by omega)
  | cons part rest ih =>
      have hpart := hreadable part List.mem_cons_self
      have hpayload := Section.length_payload_lt order part
      rw [List.flatMap_cons] at h
      rw [List.flatMap_cons, List.length_append] at hlimit
      rw [Chunk.siblings_next (Chunk.headerFits_of_le (by omega))
        (Section.at?_chunkAt hpart h.left), Section.finish_chunkAt hpart (by omega),
        ih (fun other hother => hreadable other (List.mem_cons_of_mem _ hother)) (by omega) h.right,
        Option.map_some, chunksFrom]

/-- Headers of sections start where their table entries point. -/
theorem starts_chunksFrom (hreadable : ∀ part ∈ sections, part.Readable)
    (hend : pos + (sections.flatMap (Section.encode order)).length < UInt32.size) :
    (chunksFrom order pos sections).map Chunk.start =
      (entriesFrom order index pos sections).map fun entry => entry.offset.toNat := by
  induction sections generalizing pos index with
  | nil => rfl
  | cons part rest ih =>
      rw [List.flatMap_cons, List.length_append] at hend
      have hpos : (UInt32.ofNat pos).toNat = pos := UInt32.toNat_ofNat_of_lt' (by omega)
      rw [chunksFrom, entriesFrom, List.map_cons, List.map_cons, hpos,
        Section.start_chunkAt (hreadable part List.mem_cons_self),
        ih (fun other hother => hreadable other (List.mem_cons_of_mem _ hother)) (by omega)]

theorem tags_chunksFrom (order : ByteOrder) (pos : Nat) (sections : List Section) :
    (chunksFrom order pos sections).map Chunk.tag = sections.map Section.tag := by
  induction sections generalizing pos with
  | nil => rfl
  | cons part rest ih => rw [chunksFrom, List.map_cons, ih, List.map_cons, Section.tag_chunkAt]

end Master

end Playprint
