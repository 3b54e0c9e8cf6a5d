import Mathlib.Data.List.Forall2
import Playprint.Proofs.Container.Sections

/-!
What was written is read back. A container that is loaded from the bytes of a master has the byte order,
the header and a table entry for each section; from then on every section can be read in any order of
calls and from any position, and closing it leaves the stream at the end of the data.
Main statement: `load_encode`.
-/

namespace Playprint

open Bytes (At)

namespace Container

variable {container : Container} {pos : Nat}

theorem outcome_detectOrder {order : ByteOrder} (stream : Stream)
    (h : At stream.data 0 (order.wordBytes order.formTag.code)) :
    detectOrder.outcome stream = (.ok order, stream) := by
  have htake := Stream.outcome_take (stream.seek 0) .readingFormTag h
  rw [ByteOrder.length_wordBytes] at htake
  have hposition : Stream.position.outcome stream = (.ok stream.pos, stream) := rfl
  rw [detectOrder, Step.outcome_bind_ok hposition, Stream.goto,
    Step.outcome_bind_ok (Step.outcome_update _ _), Step.outcome_bind_ok htake, Stream.goto,
    Step.outcome_bind_ok (Step.outcome_update _ _)]
  cases order with
  | big => rfl
  | little => rfl

theorem outcome_descend_outermost {order : ByteOrder} (stream : Stream) {chunk : Chunk}
    (htag : chunk.tag = order.formTag) (h : Chunk.at? order stream.data 0 = some chunk) :
    (Chunk.descend order (.outermost chunk.form) none).outcome stream =
      (.ok chunk, stream.seek chunk.offset) := by
  have hheader : (Chunk.readHeader order).outcome (stream.seek 0) =
      (.ok chunk, stream.seek chunk.offset) := by
    simp only [Chunk.readHeader, Step.outcome_of, Stream.seek, h]
  rw [Chunk.descend, Stream.goto, Step.outcome_bind_ok (Step.outcome_update _ _),
    Step.outcome_bind_ok hheader]
  simp only [htag, ne_eq, not_true_eq_false, ↓reduceIte, Step.outcome_pure]

/-- The container with its outermost chunk open. -/
def withForm (container : Container) (form : Chunk) : Container :=
  { container with form := some form }

theorem outcome_openForm (container : Container) (pos : Nat) {form : Chunk}
    (htag : form.tag = container.order.formTag)
    (hform : form.form = Tag.mlrt)
    (h : Chunk.at? container.order container.stream.data 0 = some form) :
    openForm.outcome (container.moved pos) =
      (.ok (), (container.withForm form).moved form.offset) := by
  have hdescend := outcome_onStream pos
    (outcome_descend_outermost (container.stream.seek pos) htag h)
  rw [hform] at hdescend
  rw [openForm, descend, Step.outcome_bind_ok
    ((Step.outcome_bind_ok (Step.outcome_get _)).trans hdescend), Step.outcome_modify]
  rfl

/-- The container with a header. -/
def withHeader (container : Container) (header : Header) : Container :=
  { container with header := some header }

/-- The payload of a header chunk. -/
def headerPayload (order : ByteOrder) (header : Header) : Bytes :=
  Chunk.encodeWords order [header.version, header.date]

theorem outcome_readHeader (container : Container) (header : Header) {pos : Nat} {form : Chunk}
    (hform : container.form = some form)
    (h : At container.stream.data pos
      (Chunk.encode container.order Tag.hdr (headerPayload container.order header))) :
    readHeader.outcome (container.moved pos) =
      (.ok header, (container.withHeader header).moved (pos + 16)) := by
  have hsize : (headerPayload container.order header).length < UInt32.size := by
    simp only [headerPayload, Chunk.length_encodeWords, List.length_cons, List.length_nil]
    decide
  have hwords := Chunk.at_payload h
  have hchunk := outcome_expectNext Tag.hdr rfl (Chunk.at?_encode rfl h)
  have hfinish := Chunk.finish_plainAt container.order Tag.hdr pos hsize
  have hlength : (Chunk.encode container.order Tag.hdr
      (headerPayload container.order header)).length = 16 := by
    simp [headerPayload]
  rw [hlength] at hfinish
  rw [Chunk.offset_plainAt] at hchunk
  generalize Chunk.plainAt Tag.hdr (headerPayload container.order header) pos = chunk
    at hchunk hfinish
  have hread : (do
      let version ← readWord
      let date ← readWord
      return { version, date } : ContainerStep Header).outcome (container.moved (pos + 8)) =
        (.ok header, container.moved (pos + 8 + 4 + 4)) := by
    rw [Step.outcome_bind_ok (outcome_readWord_head container hwords),
      Step.outcome_bind_ok (outcome_readWord_head container (Chunk.at_tail hwords)),
      Step.outcome_pure]
  have hbody := outcome_inside chunk hread
  rw [readHeader, Step.outcome_bind_ok (outcome_openedForm pos hform), Step.outcome_bind_ok hchunk,
    Step.outcome_bind_ok hbody, Step.outcome_bind_ok (Step.outcome_modify _ _), Step.outcome_pure,
    moved_moved, hfinish]
  rfl

/-! ### The table of contents -/

/-- The container with a table of contents under construction. -/
def withPending (container : Container) (toc : Toc) : Container :=
  { container with pendingToc := some toc }

/-- Reads one entry of the table under construction. -/
def readTocEntry : ContainerStep UInt32 := do
  let label ← readWord
  let offset ← readWord
  addTocEntry label offset

theorem outcome_readTocEntry {reserved : Nat} {done : Array TocEntry} {label offset : UInt32}
    (hroom : done.size < reserved)
    (hlabel : Chunk.wordAt? container.order container.stream.data pos = some label)
    (hoffset : Chunk.wordAt? container.order container.stream.data (pos + 4) = some offset) :
    readTocEntry.outcome ((container.withPending ⟨reserved, done⟩).moved pos) =
      (.ok (UInt32.ofNat done.size),
        (container.withPending ⟨reserved, done.push ⟨label, offset⟩⟩).moved (pos + 8)) := by
  have hfirst : readWord.outcome ((container.withPending ⟨reserved, done⟩).moved pos) =
      (.ok label, (container.withPending ⟨reserved, done⟩).moved (pos + 4)) :=
    outcome_readWord_some hlabel
  have hsecond : readWord.outcome ((container.withPending ⟨reserved, done⟩).moved (pos + 4)) =
      (.ok offset, (container.withPending ⟨reserved, done⟩).moved (pos + 8)) :=
    outcome_readWord_some hoffset
  have hadd : (Toc.mk reserved done).add label offset =
      .ok (UInt32.ofNat done.size, ⟨reserved, done.push ⟨label, offset⟩⟩) := if_pos hroom
  have htable : pendingTable.outcome ((container.withPending ⟨reserved, done⟩).moved (pos + 8)) =
      (.ok ⟨reserved, done⟩, (container.withPending ⟨reserved, done⟩).moved (pos + 8)) := rfl
  rw [readTocEntry, Step.outcome_bind_ok hfirst, Step.outcome_bind_ok hsecond, addTocEntry,
    Step.outcome_bind_ok htable, hadd]
  rfl

theorem outcome_times_readTocEntry (reserved : Nat) (done : Array TocEntry)
    {entries : List TocEntry} (hroom : done.size + entries.length ≤ reserved)
    (h : At container.stream.data pos
      (Chunk.encodeWords container.order (Master.entryWords entries))) :
    ∃ indices, (Step.times readTocEntry entries.length).outcome
        ((container.withPending ⟨reserved, done⟩).moved pos) =
      (.ok indices, (container.withPending ⟨reserved, done ++ entries.toArray⟩).moved
        (pos + 8 * entries.length)) := by
  induction entries generalizing done pos with
  | nil => exact ⟨[], by simp [Step.times]⟩
  | cons entry rest ih =>
      rw [List.length_cons] at hroom
      have hentry := outcome_readTocEntry (by omega : done.size < reserved)
        (Chunk.wordAt?_head h) (Chunk.wordAt?_head (Chunk.at_tail h))
      obtain ⟨indices, hrest⟩ := ih (done.push entry) (by rw [Array.size_push]; omega)
        (Chunk.at_tail (Chunk.at_tail h))
      refine ⟨UInt32.ofNat done.size :: indices, ?_⟩
      rw [List.length_cons, Step.times, Step.outcome_bind_ok hentry, Step.outcome_bind_ok hrest,
        Step.outcome_pure]
      have hpos : pos + 4 + 4 + 8 * rest.length = pos + 8 * (rest.length + 1) := by omega
      rw [hpos]
      simp

/-- The container with a table of contents. -/
def withToc (container : Container) (toc : Toc) : Container :=
  { container with toc := some toc }

theorem outcome_beginToc (container : Container) (pos : Nat) {reserved : Nat} (hreserved : reserved ≠ 0) :
    (beginToc reserved).outcome (container.moved pos) =
      (.ok (), (container.withPending ⟨reserved, #[]⟩).moved pos) := by
  rw [beginToc, Toc.withRoom, if_neg hreserved]
  rfl

theorem outcome_endToc (pos : Nat) (toc : Toc) (hpending : container.pendingToc = none) :
    endToc.outcome ((container.withPending toc).moved pos) =
      (.ok toc.size, (container.withToc toc).moved pos) := by
  have hsame : { container with pendingToc := none, toc := some toc } = container.withToc toc := by
    rw [withToc, ← hpending]
  have htable : pendingTable.outcome ((container.withPending toc).moved pos) =
      (.ok toc, (container.withPending toc).moved pos) := rfl
  rw [endToc, Step.outcome_bind_ok htable, Step.outcome_bind_ok (Step.outcome_modify _ _),
    Step.outcome_pure, ← hsame]
  rfl

/-- The payload of a table of contents. -/
def tocPayload (order : ByteOrder) (entries : List TocEntry) : Bytes :=
  Chunk.encodeWords order (UInt32.ofNat entries.length :: Master.entryWords entries)

theorem length_tocPayload (order : ByteOrder) (entries : List TocEntry) :
    (tocPayload order entries).length = 4 + 8 * entries.length := by
  rw [tocPayload, Chunk.length_encodeWords, List.length_cons, Master.length_entryWords]
  omega

theorem outcome_decodeToc {entries : List TocEntry} (hne : entries ≠ [])
    (hpending : container.pendingToc = none)
    (hsize : (tocPayload container.order entries).length < UInt32.size)
    (h : At container.stream.data (pos + 8) (tocPayload container.order entries)) :
    (decodeToc (Chunk.plainAt Tag.toc (tocPayload container.order entries) pos)).outcome
        (container.moved (pos + 8)) =
      (.ok entries.length, (container.withToc ⟨entries.length, entries.toArray⟩).moved
        (pos + 8 + (tocPayload container.order entries).length)) := by
  have hlength := length_tocPayload container.order entries
  have hcount : (UInt32.ofNat entries.length).toNat = entries.length :=
    UInt32.toNat_ofNat_of_lt' (by omega)
  have hroom : ¬((Chunk.plainAt Tag.toc (tocPayload container.order entries) pos).size.toNat - 4) / 8 <
      entries.length := by
    rw [Chunk.size_plainAt _ _ hsize]
    omega
  have hstart := outcome_beginToc container (pos + 8 + 4)
    (mt List.eq_nil_of_length_eq_zero hne)
  obtain ⟨indices, hentries⟩ := outcome_times_readTocEntry entries.length #[] (by simp)
    (Chunk.at_tail h)
  have hend := outcome_endToc (pos + 8 + 4 + 8 * entries.length)
    ⟨entries.length, #[] ++ entries.toArray⟩ hpending
  rw [decodeToc, Step.outcome_bind_ok (outcome_readWord_head container h)]
  simp only [hcount, if_neg hroom]
  rw [Step.outcome_bind_ok hstart]
  refine (Step.outcome_bind_ok hentries).trans (hend.trans ?_)
  rw [hlength, ← Nat.add_assoc, List.append_toArray, List.nil_append]
  rfl

theorem outcome_readToc (container : Container) {pos : Nat} {form : Chunk}
    {entries : List TocEntry} (hform : container.form = some form)
    (hne : entries ≠ []) (hpending : container.pendingToc = none)
    (hsize : (tocPayload container.order entries).length < UInt32.size)
    (h : At container.stream.data pos
      (Chunk.encode container.order Tag.toc (tocPayload container.order entries))) :
    readToc.outcome (container.moved pos) =
      (.ok entries.length, (container.withToc ⟨entries.length, entries.toArray⟩).moved
        (pos + (Chunk.encode container.order Tag.toc (tocPayload container.order entries)).length)) := by
  have hchunk := outcome_expectNext Tag.toc rfl (Chunk.at?_encode rfl h)
  have hdecode := outcome_inside (Chunk.plainAt Tag.toc (tocPayload container.order entries) pos)
    (outcome_decodeToc hne hpending hsize (Chunk.at_payload h))
  rw [readToc, Step.outcome_bind_ok (outcome_openedForm pos hform), Step.outcome_bind_ok hchunk]
  refine hdecode.trans ?_
  rw [moved_moved, Chunk.finish_plainAt container.order Tag.toc pos hsize]

end Container

namespace Master

variable {master : Master}

/-- What is inside the outermost chunk. -/
def children (master : Master) : Bytes :=
  master.headerChunk ++ master.tocChunk ++ master.sections.flatMap (Section.encode master.order)

/-- The table of contents of the container. -/
def entries (master : Master) : List TocEntry :=
  entriesFrom master.order 0 master.firstOffset master.sections

/-- The outermost chunk. -/
def form (master : Master) : Chunk :=
  Chunk.formAt master.order.formTag Tag.mlrt master.children 0

/-- The container as it is opened, with its stream behind the table of contents. -/
def loaded (master : Master) : Container where
  order := master.order
  stream := ⟨master.encode, master.firstOffset⟩
  path := none
  form := some master.form
  header := some master.header
  toc := some ⟨master.sections.length, master.entries.toArray⟩
  pendingToc := none
  mediaList := none

theorem tocChunk_eq (master : Master) :
    master.tocChunk =
      Chunk.encode master.order Tag.toc (Container.tocPayload master.order master.entries) := by
  rw [tocChunk, tocWords_eq, Container.tocPayload, entries, length_entriesFrom]

theorem length_headerChunk (master : Master) : master.headerChunk.length = 16 := by
  simp [headerChunk]

theorem length_tocChunk (master : Master) :
    master.tocChunk.length = 12 + 8 * master.sections.length := by
  rw [tocChunk_eq, Chunk.length_encode, Container.length_tocPayload, entries, length_entriesFrom]
  omega

theorem firstOffset_eq (master : Master) : master.firstOffset = 40 + 8 * master.sections.length := by
  rw [firstOffset, length_headerChunk]
  omega

theorem length_encode (master : Master) :
    master.encode.length =
      master.firstOffset + (master.sections.flatMap (Section.encode master.order)).length := by
  rw [encode, Chunk.length_encodeForm, List.length_append, List.length_append, length_headerChunk,
    length_tocChunk, firstOffset_eq]
  omega

theorem length_children (master : Master) : 12 + master.children.length = master.encode.length := by
  rw [encode, Chunk.length_encodeForm, children]

theorem at_headerChunk (master : Master) : At master.encode 12 master.headerChunk :=
  (Chunk.at_children (At.whole master.encode)).left.left

theorem at_tocChunk (master : Master) : At master.encode (12 + 16) master.tocChunk := by
  have h := (Chunk.at_children (At.whole master.encode)).left.right
  rwa [length_headerChunk] at h

theorem at_sections (master : Master) :
    At master.encode master.firstOffset (master.sections.flatMap (Section.encode master.order)) := by
  have h := (Chunk.at_children (At.whole master.encode)).right
  rw [List.length_append, length_headerChunk, length_tocChunk] at h
  rw [firstOffset_eq]
  have hpos : 0 + 12 + (16 + (12 + 8 * master.sections.length)) = 40 + 8 * master.sections.length := by
    omega
  exact hpos ▸ h

theorem at_form (master : Master) :
    Chunk.at? master.order master.encode 0 = some master.form := by
  refine Chunk.at?_encodeForm ?_ (At.whole master.encode)
  cases master.order <;> rfl

theorem at_formTag (master : Master) :
    At master.encode 0 (master.order.wordBytes master.order.formTag.code) :=
  (At.whole master.encode).left.left

theorem entries_ne_nil (hne : master.sections ≠ []) : master.entries ≠ [] := by
  intro hempty
  have hlength := length_entriesFrom master.order 0 master.firstOffset master.sections
  rw [← entries, hempty] at hlength
  exact hne (List.eq_nil_of_length_eq_zero hlength.symm)

theorem length_entries (master : Master) : master.entries.length = master.sections.length :=
  length_entriesFrom master.order 0 master.firstOffset master.sections

/-- The bytes of a master open as a container with its header and its table of contents. -/
theorem load_eq_loaded (hne : master.sections ≠ []) (hsize : master.encode.length < UInt32.size) :
    Container.load master.encode = .ok master.loaded := by
  have hdetect := Container.outcome_detectOrder (Stream.ofBytes master.encode) master.at_formTag
  have hlength := master.length_encode
  rw [firstOffset_eq] at hlength
  have hsmall := Container.length_tocPayload master.order master.entries
  rw [length_entries] at hsmall
  have hpayload : (Container.tocPayload master.order master.entries).length < UInt32.size := by omega
  have hend : 12 + 16 + (Chunk.encode master.order Tag.toc
      (Container.tocPayload master.order master.entries)).length = master.firstOffset := by
    rw [← tocChunk_eq, length_tocChunk, firstOffset_eq]
    omega
  let fresh := Container.ofStream master.order (Stream.ofBytes master.encode)
  have hform := Container.outcome_openForm fresh 0 rfl rfl master.at_form
  have hheader := Container.outcome_readHeader (fresh.withForm master.form) master.header rfl
    master.at_headerChunk
  have htoc := Container.outcome_readToc
    ((fresh.withForm master.form).withHeader master.header) rfl (entries_ne_nil hne) rfl hpayload
    (tocChunk_eq master ▸ master.at_tocChunk)
  have hopen : (do
      Container.openForm
      let _ ← Container.readHeader
      let _ ← Container.readToc : ContainerStep Unit).outcome fresh = (.ok (), master.loaded) := by
    refine (Step.outcome_bind_ok hform).trans ?_
    refine (Step.outcome_bind_ok hheader).trans ?_
    refine (Step.outcome_bind_ok htoc).trans ?_
    rw [Step.outcome_pure, loaded, ← length_entries, ← hend]
    rfl
  have hbytes : Container.ofBytes master.encode = .ok fresh := by
    rw [Container.ofBytes, hdetect]
    rfl
  rw [Container.load, hbytes]
  exact congrArg (fun result => result.1.map fun () => result.2) hopen

/-! ### Reading sections -/

/-- The chunks inside the outermost one: header, table of contents, sections. -/
def chunks (master : Master) : List Chunk :=
  Chunk.plainAt Tag.hdr (Container.headerPayload master.order master.header) 12 ::
    Chunk.plainAt Tag.toc (Container.tocPayload master.order master.entries) 28 ::
    chunksFrom master.order master.firstOffset master.sections

/-- The table entry of a section leads to its chunk. -/
theorem offset_of_section (hsize : master.encode.length < UInt32.size) {index : Nat} {part : Section}
    (hpart : master.sections[index]? = some part) :
    ∃ start, (Toc.mk master.sections.length master.entries.toArray).offset index = .ok start ∧
      At master.encode start (part.encode master.order) := by
  obtain ⟨start, hentry, hfirst, hat⟩ := entriesFrom_of_getElem? 0 hpart master.at_sections
  have hle := hat.le
  have hpayload := Section.length_payload_lt master.order part
  have hstart : (UInt32.ofNat start).toNat = start := UInt32.toNat_ofNat_of_lt' (by omega)
  have hpos : UInt32.ofNat start ≠ 0 := by
    intro hzero
    rw [firstOffset_eq] at hfirst
    rw [hzero, UInt32.toNat_zero] at hstart
    omega
  refine ⟨start, ?_, hat⟩
  simp only [Toc.offset, List.getElem?_toArray, entries, hentry, if_neg hpos, hstart]

theorem stop_form (hsize : master.encode.length < UInt32.size) :
    master.form.stop = master.encode.length := by
  have hlength := master.length_children
  rw [form, Chunk.stop_formAt _ _ _ (by omega)]
  omega

theorem even_children (master : Master) : master.children.length % 2 = 0 := by
  have hsections : (master.sections.flatMap (Section.encode master.order)).length % 2 = 0 :=
    Section.even_flatMap fun part _ => Section.even_length_encode master.order part
  have hlength := master.length_children
  rw [length_encode, firstOffset_eq] at hlength
  omega

theorem finish_form (hsize : master.encode.length < UInt32.size) :
    master.form.finish = master.encode.length := by
  have hlength := master.length_children
  rw [form, Chunk.finish_formAt master.order _ _ _ (by omega) master.even_children, Chunk.length_encodeForm]
  omega

/-- The header chunk comes first inside the outermost one, -/
theorem at?_headerChunk (master : Master) :
    Chunk.at? master.order master.encode 12 =
        some (Chunk.plainAt Tag.hdr (Container.headerPayload master.order master.header) 12) ∧
      (Chunk.plainAt Tag.hdr (Container.headerPayload master.order master.header) 12).finish = 28 := by
  have hsize : (Container.headerPayload master.order master.header).length < UInt32.size := by
    simp only [Container.headerPayload, Chunk.length_encodeWords, List.length_cons, List.length_nil]
    decide
  refine ⟨Chunk.at?_encode rfl master.at_headerChunk, ?_⟩
  rw [Chunk.finish_plainAt master.order Tag.hdr 12 hsize]
  simp only [Chunk.length_encode, Container.headerPayload, Chunk.length_encodeWords, List.length_cons,
    List.length_nil]

/-- then the table of contents, and the sections are behind it. -/
theorem at?_tocChunk (hsize : master.encode.length < UInt32.size) :
    Chunk.at? master.order master.encode 28 =
        some (Chunk.plainAt Tag.toc (Container.tocPayload master.order master.entries) 28) ∧
      (Chunk.plainAt Tag.toc (Container.tocPayload master.order master.entries) 28).finish =
        master.firstOffset := by
  have hlength := master.length_encode
  have hfirst := master.firstOffset_eq
  have htoc := Container.length_tocPayload master.order master.entries
  rw [length_entries] at htoc
  have hat := master.at_tocChunk
  rw [tocChunk_eq] at hat
  refine ⟨Chunk.at?_encode rfl hat, ?_⟩
  rw [Chunk.finish_plainAt master.order Tag.toc 28 (by omega), ← tocChunk_eq, length_tocChunk]
  omega

theorem siblings_eq_chunks (hreadable : ∀ part ∈ master.sections, part.Readable)
    (hsize : master.encode.length < UInt32.size) :
    Chunk.siblings master.order master.encode master.form.stop master.form.offset =
      some master.chunks := by
  have hlength := master.length_encode
  have hfirst := master.firstOffset_eq
  have hsections := siblings_sections hreadable hlength.symm hsize master.at_sections
  obtain ⟨hheader, hbehindHeader⟩ := master.at?_headerChunk
  obtain ⟨htoc, hbehindToc⟩ := at?_tocChunk hsize
  rw [stop_form hsize, form, Chunk.offset_formAt,
    Chunk.siblings_next (Chunk.headerFits_of_le (by omega)) hheader, hbehindHeader,
    Chunk.siblings_next (Chunk.headerFits_of_le (by omega)) htoc, hbehindToc, hsections]
  rfl

theorem toc_loaded (master : Master) :
    master.loaded.toc = some ⟨master.sections.length, master.entries.toArray⟩ := rfl

theorem form_loaded (master : Master) : master.loaded.form = some master.form := rfl

theorem tocEntries_loaded (master : Master) : master.loaded.tocEntries = master.entries := rfl

/-- A section other than a media list is read by its table entry. -/
theorem outcome_readChunkAt (pos : Nat) {index : Nat} {part : Section} {payload : Bytes}
    (hsize : master.encode.length < UInt32.size) (hpart : master.sections[index]? = some part)
    (htag : part.tag.hasForm = false)
    (hencode : part.encode master.order = Chunk.encode master.order part.tag payload) :
    ∃ next, (Container.readChunkAt index part.tag).outcome (master.loaded.moved pos) =
      (.ok payload, master.loaded.moved next) := by
  obtain ⟨start, hoffset, hat⟩ := offset_of_section hsize hpart
  have hle := hat.le
  rw [hencode, Chunk.length_encode] at hle
  rw [hencode] at hat
  have htoc : (master.loaded.moved pos).toc = some _ := master.toc_loaded
  exact ⟨_, Container.outcome_readChunkAt htoc hoffset htag (by omega) hat⟩

/-- A media list is read after going to its table entry. -/
theorem outcome_readList (pos : Nat) {index : Nat} {flags typeIndex : UInt32} {media : List Media}
    (hsize : master.encode.length < UInt32.size)
    (hpart : master.sections[index]? = some (.mediaList flags typeIndex media)) :
    ∃ start next, (Container.tocOffset index).outcome (master.loaded.moved pos) =
        (.ok start, master.loaded.moved pos) ∧
      Container.readList.outcome (master.loaded.moved start) =
        (.ok (⟨flags, typeIndex, UInt32.ofNat media.length⟩, media), master.loaded.moved next) := by
  obtain ⟨start, hoffset, hat⟩ := offset_of_section hsize hpart
  have hle := hat.le
  have heven := Section.even_payload_mediaList master.order flags typeIndex media
  have hpayload := Section.length_payload_lt master.order (.mediaList flags typeIndex media)
  have hmedia := length_le_of_media master.order media
  have hcount : (UInt32.ofNat media.length).toNat = media.length := by
    rw [Section.payload_mediaList, List.length_append] at hpayload
    exact UInt32.toNat_ofNat_of_lt' (by omega)
  refine ⟨start, _, ?_, Container.outcome_readList master.loaded hcount rfl
    (Section.payload_mediaList master.order flags typeIndex media) heven (by omega) hat⟩
  simp only [Container.tocOffset, Step.outcome_bind, Step.outcome_get, Container.moved, toc_loaded,
    hoffset, Step.outcome_ofExcept]

theorem outcome_topLevelChunks (pos : Nat) (hreadable : ∀ part ∈ master.sections, part.Readable)
    (hsize : master.encode.length < UInt32.size) :
    Container.topLevelChunks.outcome (master.loaded.moved pos) =
      (.ok master.chunks, master.loaded.moved pos) :=
  Container.outcome_topLevelChunks_some master.form_loaded (siblings_eq_chunks hreadable hsize)

theorem outcome_close (pos : Nat) (hsize : master.encode.length < UInt32.size) :
    Container.close.outcome (master.loaded.moved pos) =
      (.ok master.encode.length,
        { master.loaded with form := none }.moved master.encode.length) := by
  have hopen := Container.outcome_openedForm pos master.form_loaded
  rw [Container.close, Step.outcome_bind_ok hopen, Step.outcome_bind_ok (Step.outcome_modify _ _),
    Step.outcome_bind_ok (Container.outcome_ascend _ _), finish_form hsize]
  rfl

end Master

namespace Container

/-- What can be asked of a container that was loaded. -/
inductive Call
  /-- The payload of the chunk of a table entry. -/
  | payload (index : Nat) (tag : Tag)
  /-- The media list of a table entry, with all of its media. -/
  | mediaList (index : Nat)
  /-- The chunks inside the outermost one. -/
  | listing
  /-- Moving the stream anywhere. -/
  | goto (pos : Nat)

/-- What a call answers. -/
inductive Reply
  | payload (data : Bytes)
  | mediaList (info : MediaInfo) (media : List Media)
  | listing (chunks : List Chunk)
  | moved

/-- Makes a call. -/
def Call.run : Call → ContainerStep Reply
  | payload index tag => .payload <$> readChunkAt index tag
  | mediaList index => do
    Container.goto (← tocOffset index)
    let (info, media) ← readList
    return .mediaList info media
  | listing => .listing <$> topLevelChunks
  | goto pos => do
    Container.goto pos
    return .moved

/-- Makes calls one after another. -/
def Call.runAll : List Call → ContainerStep (List Reply)
  | [] => pure []
  | call :: rest => do
    let reply ← call.run
    let replies ← runAll rest
    return reply :: replies

/-- The replies that are due for the sections of a master. -/
inductive Due (master : Master) : Call → Reply → Prop
  | group {index : Nat} {payload : Bytes} (h : master.sections[index]? = some (.group payload)) :
      Due master (.payload index Tag.grp) (.payload payload)
  | set {index : Nat} {payload : Bytes} (h : master.sections[index]? = some (.set payload)) :
      Due master (.payload index Tag.set) (.payload payload)
  | scene {index : Nat} {typeIndex : UInt32} {groups : List UInt32}
      (h : master.sections[index]? = some (.scene typeIndex groups)) :
      Due master (.payload index Tag.scn) (.payload
        (Chunk.encodeWords master.order (typeIndex :: UInt32.ofNat groups.length :: groups)))
  | raw {index : Nat} {tag : Tag} {payload : Bytes}
      (h : master.sections[index]? = some (.raw tag payload)) :
      Due master (.payload index tag) (.payload payload)
  | mediaList {index : Nat} {flags typeIndex : UInt32} {media : List Media}
      (h : master.sections[index]? = some (.mediaList flags typeIndex media)) :
      Due master (.mediaList index)
        (.mediaList ⟨flags, typeIndex, UInt32.ofNat media.length⟩ media)
  | listing : Due master .listing (.listing master.chunks)
  | goto (pos : Nat) : Due master (.goto pos) .moved

variable {master : Master}

/-- One call is answered from any position, and changes only the position. -/
theorem Due.outcome_run {call : Call} {reply : Reply} (h : Due master call reply) (pos : Nat)
    (hreadable : ∀ part ∈ master.sections, part.Readable)
    (hsize : master.encode.length < UInt32.size) :
    ∃ next, call.run.outcome (master.loaded.moved pos) = (.ok reply, master.loaded.moved next) := by
  cases h with
  | group h | set h | scene h =>
      obtain ⟨next, hread⟩ := Master.outcome_readChunkAt pos hsize h rfl rfl
      exact ⟨next, Step.outcome_map_ok Reply.payload hread⟩
  | raw h =>
      have hform := hreadable _ (List.mem_of_getElem? h)
      obtain ⟨next, hread⟩ := Master.outcome_readChunkAt pos hsize h hform rfl
      exact ⟨next, Step.outcome_map_ok Reply.payload hread⟩
  | mediaList h =>
      obtain ⟨start, next, hentry, hlist⟩ := Master.outcome_readList pos hsize h
      refine ⟨next, ?_⟩
      rw [Call.run, Step.outcome_bind_ok hentry, Step.outcome_bind_ok (outcome_goto _ _), moved_moved,
        Step.outcome_bind_ok hlist, Step.outcome_pure]
  | listing =>
      exact ⟨pos, Step.outcome_map_ok Reply.listing (Master.outcome_topLevelChunks pos hreadable hsize)⟩
  | goto target => exact ⟨target, rfl⟩

/-- Calls are answered in any order. -/
theorem outcome_runAll {calls : List Call} {replies : List Reply}
    (h : List.Forall₂ (Due master) calls replies) (pos : Nat)
    (hreadable : ∀ part ∈ master.sections, part.Readable)
    (hsize : master.encode.length < UInt32.size) :
    ∃ next, (Call.runAll calls).outcome (master.loaded.moved pos) =
      (.ok replies, master.loaded.moved next) := by
  induction h generalizing pos with
  | nil => exact ⟨pos, rfl⟩
  | cons hcall _ ih =>
      obtain ⟨mid, hfirst⟩ := hcall.outcome_run pos hreadable hsize
      obtain ⟨next, hrest⟩ := ih mid
      refine ⟨next, ?_⟩
      rw [Call.runAll, Step.outcome_bind_ok hfirst, Step.outcome_bind_ok hrest, Step.outcome_pure]

end Container

namespace Master

/-- The bytes of a master load as what the master says, and are read back as its sections. -/
theorem load_encode (master : Master) (hne : master.sections ≠ [])
    (hreadable : ∀ part ∈ master.sections, part.Readable)
    (hsize : master.encode.length < UInt32.size) :
    ∃ container, Container.load master.encode = .ok container ∧
      container.order = master.order ∧ container.header = some master.header ∧
      container.tocEntries.length = master.sections.length ∧
      (∀ (index : Nat) (entry : TocEntry), container.tocEntries[index]? = some entry →
        entry.label.toNat = index) ∧
      (∀ calls replies, List.Forall₂ (Container.Due master) calls replies → ∀ pos, ∃ next,
        (Container.Call.runAll calls).outcome (container.moved pos) =
          (.ok replies, container.moved next)) ∧
      master.chunks.map Chunk.tag = Tag.hdr :: Tag.toc :: master.sections.map Section.tag ∧
      (master.chunks.drop 2).map Chunk.start =
        container.tocEntries.map (fun entry => entry.offset.toNat) ∧
      (∀ pos, Container.close.outcome (container.moved pos) =
        (.ok master.encode.length,
          { container with form := none }.moved master.encode.length)) := by
  have hlength := master.length_encode
  have hsections := length_le_of_sections master.order master.sections
  refine ⟨master.loaded, load_eq_loaded hne hsize, rfl, rfl, master.length_entries, ?labels, ?calls,
    ?tags, ?starts, fun pos => outcome_close pos hsize⟩
  case labels =>
    intro index entry hentry
    obtain ⟨hindex, _⟩ := List.getElem?_eq_some_iff.mp hentry
    rw [tocEntries_loaded, length_entries] at hindex
    obtain ⟨start, hfound, _⟩ := entriesFrom_of_getElem? 0
      (List.getElem?_eq_getElem hindex) master.at_sections
    rw [tocEntries_loaded, entries, hfound] at hentry
    cases hentry
    rw [Nat.zero_add]
    exact UInt32.toNat_ofNat_of_lt' (by omega)
  case calls => exact fun calls replies hdue pos => Container.outcome_runAll hdue pos hreadable hsize
  case tags =>
    rw [chunks, List.map_cons, List.map_cons, tags_chunksFrom]
    rfl
  case starts => exact starts_chunksFrom hreadable (hlength ▸ hsize)

/-- A container of every kind of section, with payloads of odd sizes. -/
def motley : Master where
  order := .little
  header := ⟨1, 2⟩
  sections := [.group [0x8a], .scene 0 [0], .mediaList 0 1 [⟨1, 2, [7, 8, 9]⟩], .raw Tag.info [1, 2, 3]]

theorem motley_encode_loads :
    motley.sections ≠ [] ∧ (∀ part ∈ motley.sections, part.Readable) ∧
      motley.encode.length < UInt32.size ∧
      ∃ container, Container.load motley.encode = .ok container ∧
        ∃ next, (Container.Call.runAll [.mediaList 2, .listing, .payload 3 Tag.info, .goto 5,
            .payload 0 Tag.grp]).outcome (container.moved 0) =
          (.ok [.mediaList ⟨0, 1, 1⟩ [⟨1, 2, [7, 8, 9]⟩], .listing motley.chunks, .payload [1, 2, 3],
            .moved, .payload [0x8a]], container.moved next) := by
  have hne : motley.sections ≠ [] := by simp [motley]
  have hreadable : ∀ part ∈ motley.sections, part.Readable := by
    simp [motley, Section.Readable]
    decide
  have hsize : motley.encode.length < UInt32.size := by decide +kernel
  obtain ⟨container, hload, _, _, _, _, hcalls, _⟩ := load_encode motley hne hreadable hsize
  have hlist : motley.sections[2]? = some (.mediaList 0 1 [⟨1, 2, [7, 8, 9]⟩]) := rfl
  refine ⟨hne, hreadable, hsize, container, hload, hcalls _ _ ?_ 0⟩
  exact .cons (.mediaList hlist) (.cons .listing (.cons (.raw rfl) (.cons (.goto 5)
    (.cons (.group rfl) .nil))))

end Master

end Playprint
