import Playprint.Proofs.Container.Confinement
import Playprint.Proofs.Container.Descents

/-!
Raw sections, which are chunks of any tag. In front of a payload stand eight bytes, whatever the tag; a reader
takes twelve for the header when the tag is one of a chunk that holds other chunks. Main statement: every raw
section is read back and every section is listed where its table entry points exactly when no raw section has
such a tag; one that has is read from four bytes too far on.
-/

namespace Playprint

open Bytes (At)

namespace Chunk

variable {order : ByteOrder} {data payload : Bytes} {tag : Tag} {pos : Nat} {chunk : Chunk}

/-- The first four bytes of a payload are taken for a form when the tag asks for one. -/
theorem at?_encode_late (htag : tag.hasForm = true) (hsize : payload.length < UInt32.size)
    (h : At data pos (encode order tag payload)) (hat : at? order data pos = some chunk) :
    chunk.tag = tag ∧ chunk.size.toNat = payload.length ∧ chunk.offset = pos + 12 := by
  have hwords := h.left.left
  rw [at?, wordAt?_head hwords, Option.bind_eq_bind, Option.bind_some, wordAt?_head (at_tail hwords),
    Option.bind_some] at hat
  simp only [htag, if_true, Option.bind_eq_some_iff, pure, Option.some.injEq] at hat
  obtain ⟨form, _, rfl⟩ := hat
  exact ⟨rfl, UInt32.toNat_ofNat_of_lt' hsize, rfl⟩

end Chunk

namespace Master

variable {master : Master} {before after : List Section} {part : Section} {tag : Tag}
  {payload bytes : Bytes} {index pos : Nat}

/-! ### Where sections stand -/

/-- The table entry of a section points where the sections from it on start. -/
theorem entryOffset_loaded (hsize : master.encode.length < UInt32.size)
    (hsections : before ++ part :: after = master.sections) (pos : Nat) :
    (master.loaded.moved pos).entryOffset before.length = .ok (master.startOf (part :: after)) := by
  have hstart := startOf_append hsections
  have hfirst := master.firstOffset_eq
  have hlength : master.startOf (part :: after) ≤ master.encode.length := Nat.sub_le _ _
  have hword : (UInt32.ofNat (master.startOf (part :: after))).toNat = master.startOf (part :: after) :=
    UInt32.toNat_ofNat_of_lt' (by omega)
  have hpos : UInt32.ofNat (master.startOf (part :: after)) ≠ 0 := by
    intro hzero
    rw [hzero, UInt32.toNat_zero] at hword
    omega
  have hentry : master.entries[before.length]? =
      some ⟨UInt32.ofNat before.length, UInt32.ofNat (master.startOf (part :: after))⟩ := by
    rw [entries, ← hsections, entriesFrom_append, List.getElem?_append_right
      (Nat.le_of_eq (length_entriesFrom _ _ _ _)), length_entriesFrom, Nat.sub_self, ← hstart, Nat.zero_add]
    rfl
  have htoc : (master.loaded.moved pos).toc = some _ := master.toc_loaded
  simp only [Container.entryOffset, htoc, Toc.offset, List.getElem?_toArray, hentry, if_neg hpos, hword]

/-- The chunks in front of the sections, and those of leading sections, are a chain. -/
theorem chain_loaded (hsize : master.encode.length < UInt32.size)
    (hsections : before ++ after = master.sections) (hreadable : ∀ part ∈ before, part.Readable) :
    ∃ passed, Chunk.Chain master.order master.encode master.form.stop master.form.offset passed
      (master.startOf after) := by
  have hfirst := master.firstOffset_eq
  have hstop := stop_form hsize
  have hoffset : master.form.offset = 12 := rfl
  have hstart := startOf_append hsections
  have hlength : master.startOf after ≤ master.encode.length := Nat.sub_le _ _
  obtain ⟨hheader, hbehindHeader⟩ := master.at?_headerChunk
  obtain ⟨htoc, hbehindToc⟩ := at?_tocChunk hsize
  have hat := master.at_sections
  rw [← hsections, List.flatMap_append] at hat
  have hlimit : master.form.stop < UInt32.size := by omega
  have hchain := chain_sections hreadable hlimit (by omega) hat.left
  rw [← hstart, ← hbehindToc, Chunk.finish_of_at? htoc] at hchain
  have hrest := Chunk.Chain.past (by omega) htoc hchain
  rw [← hbehindHeader, Chunk.finish_of_at? hheader] at hrest
  exact ⟨_, .past (by omega) hheader hrest⟩

/-! ### Reading raw sections -/

theorem getElem?_of_append (h : before ++ part :: after = master.sections) :
    master.sections[before.length]? = some part := by
  rw [← h, List.getElem?_append_right (Nat.le_refl _), Nat.sub_self, List.getElem?_cons_zero]

theorem exists_append_of_getElem? (h : master.sections[index]? = some part) :
    ∃ before after, before ++ part :: after = master.sections ∧ before.length = index := by
  obtain ⟨hlt, rfl⟩ := List.getElem?_eq_some_iff.mp h
  refine ⟨master.sections.take index, master.sections.drop (index + 1), ?_, ?_⟩
  · rw [← List.drop_eq_getElem_cons hlt, List.take_append_drop]
  · exact List.length_take_of_le (Nat.le_of_lt hlt)

theorem at_raw (hsections : before ++ .raw tag payload :: after = master.sections) :
    At master.encode (master.startOf (.raw tag payload :: after))
      (Chunk.encode master.order tag payload) := by
  have hleft : .raw tag payload :: after <:+ master.sections := ⟨before, hsections⟩
  have hsection := (at_startOf hleft).1
  rw [List.flatMap_cons] at hsection
  exact hsection.left

/-- The payload of a raw section whose tag asks for a form is taken to start four bytes behind where it was
written. -/
theorem late_of_at? {chunk : Chunk} (hsize : master.encode.length < UInt32.size)
    (hsections : before ++ .raw tag payload :: after = master.sections) (htag : tag.hasForm = true)
    (hat : Chunk.at? master.order master.encode (master.startOf (.raw tag payload :: after)) =
      some chunk) :
    chunk.offset = master.startOf (.raw tag payload :: after) + 12 ∧
      chunk.size.toNat = payload.length := by
  have hwritten := at_raw hsections
  have hinside := hwritten.le
  rw [Chunk.length_encode] at hinside
  obtain ⟨_, hcount, hoffset⟩ := Chunk.at?_encode_late htag (by omega) hwritten hat
  exact ⟨hoffset, hcount⟩

/-- So what is read of such a section, if anything, is not its payload. -/
theorem readChunkAt_late (hsize : master.encode.length < UInt32.size)
    (hsections : before ++ .raw tag payload :: after = master.sections) (htag : tag.hasForm = true)
    (h : ((Container.readChunkAt before.length tag).outcome (master.loaded.moved pos)).1 = .ok bytes) :
    (∃ chunk, Chunk.at? master.order master.encode (master.startOf (.raw tag payload :: after)) =
        some chunk) ∧
      master.startOf (.raw tag payload :: after) + 12 + payload.length ≤ master.encode.length ∧
      bytes = (master.encode.drop (master.startOf (.raw tag payload :: after) + 12)).take
        payload.length := by
  obtain ⟨start, chunk, hstart, hat, _, hstop, hbytes⟩ := Container.readChunkAt_ok h
  rw [entryOffset_loaded hsize hsections] at hstart
  cases hstart
  obtain ⟨hoffset, hcount⟩ := late_of_at? hsize hsections htag hat
  refine ⟨⟨chunk, hat⟩, ?_, ?_⟩
  · rwa [Chunk.stop, hoffset, hcount] at hstop
  · rwa [Chunk.payloadIn, hoffset, hcount] at hbytes

/-- Whether every raw section is read back by its table entry, wherever the stream stands. -/
def ReadsBack (master : Master) : Prop :=
  ∀ index tag payload, master.sections[index]? = some (.raw tag payload) → ∀ pos,
    ((Container.readChunkAt index tag).outcome (master.loaded.moved pos)).1 = .ok payload

/-- Whether every section is listed, as a chunk of its tag, where its table entry points. -/
def Lists (master : Master) : Prop :=
  ∃ chunks, (Container.topLevelChunks.outcome master.loaded).1 = .ok chunks ∧
    ∀ index part, master.sections[index]? = some part →
      ∃ chunk ∈ chunks, chunk.tag = part.tag ∧ master.loaded.entryOffset index = .ok chunk.start

/-- The section behind such a section is not listed: it starts inside the chunk that the one before is taken
for, and siblings do not overlap. -/
theorem not_lists {chunk : Chunk} {next : Section} (hsize : master.encode.length < UInt32.size)
    (hsections : before ++ .raw tag payload :: next :: after = master.sections)
    (hbefore : ∀ other ∈ before, other.Readable) (htag : tag.hasForm = true)
    (hat : Chunk.at? master.order master.encode (master.startOf (.raw tag payload :: next :: after)) =
      some chunk) : ¬master.Lists := by
  rintro ⟨chunks, hchunks, hlisted⟩
  obtain ⟨hoffset, hcount⟩ := late_of_at? hsize hsections htag hat
  have hbehind : (before ++ [.raw tag payload]) ++ next :: after = master.sections := by
    rw [List.append_assoc, List.singleton_append, hsections]
  have hlength : (Section.encode master.order (.raw tag payload)).length =
      8 + payload.length + payload.length % 2 := Chunk.length_encode master.order tag payload
  have hnext : master.startOf (next :: after) =
      master.startOf (.raw tag payload :: next :: after) + 8 + payload.length + payload.length % 2 := by
    rw [startOf_append hbehind, startOf_append hsections, List.flatMap_append, List.length_append,
      List.flatMap_singleton, hlength]
    omega
  obtain ⟨other, hmem, _, hentry⟩ := hlisted _ next (getElem?_of_append hbehind)
  have hother : other.start = master.startOf (next :: after) :=
    Except.ok.inj (hentry.symm.trans (entryOffset_loaded hsize hbehind master.firstOffset))
  obtain ⟨form, hform, hsiblings⟩ := Container.topLevelChunks_ok_iff.mp hchunks
  cases hform
  have hlimit := stop_form hsize
  have hfirst : master.form.offset = 12 := rfl
  have hroom : UInt32.size ≤ 2 * UInt32.size ∧ 12 ≤ Chunk.lastStart := by decide
  obtain ⟨_, hchain, _⟩ := Chunk.chain_of_siblings (by omega) (by omega) hsiblings
  obtain ⟨_, hleads⟩ := chain_loaded hsize hsections hbefore
  have hstart := Chunk.start_of_at? hat
  rcases hleads.apart hat hchain hmem with rfl | hahead | hbeyond
  · omega
  · have hheader : other.start ≤ other.offset := Nat.sub_le _ _
    have hpayload := other.offset_le_finish
    omega
  · rw [Chunk.finish, Chunk.paddedSize, hcount, hoffset] at hbeyond
    omega

/-- Behind readable sections stands another one, if raw sections are read back and all sections are listed. -/
theorem readable_next (hsize : master.encode.length < UInt32.size) (hreads : master.ReadsBack)
    (hlists : master.Lists) (hsections : before ++ part :: after = master.sections)
    (hbefore : ∀ other ∈ before, other.Readable) : part.Readable := by
  cases part with
  | group payload | set payload | scene typeIndex groups | mediaList flags typeIndex media => trivial
  | raw tag payload =>
      refine Bool.eq_false_iff.mpr fun htag => ?_
      obtain ⟨⟨chunk, hat⟩, hstop, _⟩ := readChunkAt_late hsize hsections htag
        (hreads before.length tag payload (getElem?_of_append hsections) 0)
      cases after with
      | nil =>
          -- Nothing is behind the last section, so the payload would run past the data.
          have hlast : [.raw tag payload] <:+ master.sections := ⟨before, hsections⟩
          obtain ⟨_, hend, _⟩ := at_startOf hlast
          have hlength : (Section.encode master.order (.raw tag payload)).length =
              8 + payload.length + payload.length % 2 := Chunk.length_encode master.order tag payload
          rw [List.flatMap_singleton, hlength] at hend
          omega
      | cons next rest => exact not_lists hsize hsections hbefore htag hat hlists

/-- From the first section on, one after another. -/
theorem forall_readable (hsize : master.encode.length < UInt32.size) (hreads : master.ReadsBack)
    (hlists : master.Lists) (hsections : before ++ after = master.sections)
    (hbefore : ∀ other ∈ before, other.Readable) : ∀ other ∈ after, other.Readable := by
  induction after generalizing before with
  | nil => exact List.forall_mem_nil _
  | cons part rest ih =>
      have hpart := readable_next hsize hreads hlists hsections hbefore
      have hbehind : (before ++ [part]) ++ rest = master.sections := by
        rw [List.append_assoc, List.singleton_append, hsections]
      have hpassed : ∀ other ∈ before ++ [part], other.Readable :=
        List.forall_mem_append.mpr ⟨hbefore, List.forall_mem_singleton.mpr hpart⟩
      exact List.forall_mem_cons.mpr ⟨hpart, ih hbehind hpassed⟩

/-! ### Sections that are taken for what they were written as -/

theorem outcome_readRaw (hsize : master.encode.length < UInt32.size)
    (hpart : master.sections[index]? = some (.raw tag payload)) (htag : tag.hasForm = false) (pos : Nat) :
    ((Container.readChunkAt index tag).outcome (master.loaded.moved pos)).1 = .ok payload := by
  obtain ⟨_, hread⟩ := outcome_readChunkAt pos hsize hpart htag rfl
  exact congrArg Prod.fst hread

theorem lists_of_readable (hsize : master.encode.length < UInt32.size)
    (hreadable : ∀ part ∈ master.sections, part.Readable) : master.Lists := by
  refine ⟨master.chunks, congrArg Prod.fst
    (outcome_topLevelChunks master.firstOffset hreadable hsize), fun index part hpart => ?_⟩
  obtain ⟨before, after, hsections, rfl⟩ := exists_append_of_getElem? hpart
  have hmem : part.chunkAt master.order (master.startOf (part :: after)) ∈ master.chunks := by
    refine List.mem_cons_of_mem _ (List.mem_cons_of_mem _ ?_)
    rw [← hsections, chunksFrom_append, ← startOf_append hsections]
    exact List.mem_append_right _ List.mem_cons_self
  refine ⟨_, hmem, Section.tag_chunkAt _ _ _, ?_⟩
  rw [Section.start_chunkAt (hreadable part (List.mem_of_getElem? hpart))]
  exact entryOffset_loaded hsize hsections master.firstOffset

/-! ### All sections -/

/-- What becomes of the raw sections of a master, and of the sections around them, when it is loaded. -/
structure RawFaithful (master : Master) : Prop where
  /-- Its bytes are a container. -/
  loads : Container.load master.encode = .ok master.loaded
  /-- A raw section whose tag asks for no form is read back, whatever the others are. -/
  plain : ∀ index tag payload, master.sections[index]? = some (.raw tag payload) →
    tag.hasForm = false → ∀ pos,
      ((Container.readChunkAt index tag).outcome (master.loaded.moved pos)).1 = .ok payload
  /-- Of one whose tag asks for a form, as many bytes are read, from twelve behind its start on. -/
  late : ∀ index tag payload, master.sections[index]? = some (.raw tag payload) →
    tag.hasForm = true → ∀ pos bytes,
      ((Container.readChunkAt index tag).outcome (master.loaded.moved pos)).1 = .ok bytes →
      ∃ start, master.loaded.entryOffset index = .ok start ∧
        start + 12 + payload.length ≤ master.encode.length ∧
        bytes = (master.encode.drop (start + 12)).take payload.length
  /-- All raw sections are read back and all sections listed exactly when there is none of these. -/
  faithful_iff : master.ReadsBack ∧ master.Lists ↔ ∀ part ∈ master.sections, part.Readable

/-- Whatever the sections are, as long as there is one and the container has less than 4 GiB. -/
theorem raw_sections_faithful_iff (hne : master.sections ≠ [])
    (hsize : master.encode.length < UInt32.size) : master.RawFaithful where
  loads := load_eq_loaded hne hsize
  plain index tag payload hpart htag := outcome_readRaw hsize hpart htag
  late index tag payload hpart htag pos bytes h := by
    obtain ⟨before, after, hsections, rfl⟩ := exists_append_of_getElem? hpart
    obtain ⟨_, hlate⟩ := readChunkAt_late hsize hsections htag h
    exact ⟨_, entryOffset_loaded hsize hsections master.firstOffset, hlate⟩
  faithful_iff := by
    constructor
    · rintro ⟨hreads, hlists⟩
      exact forall_readable hsize hreads hlists (List.nil_append _) (List.forall_mem_nil _)
    · intro hreadable
      refine ⟨fun index tag payload hpart => ?_, lists_of_readable hsize hreadable⟩
      exact outcome_readRaw hsize hpart (hreadable _ (List.mem_of_getElem? hpart))

/-- A raw section of some tag, and a group behind it. -/
def rawAhead (tag : Tag) : Master :=
  ⟨.big, ⟨1, 0⟩, [.raw tag [1, 2, 3, 4], .group [0x8a]]⟩

theorem rawAhead_small (tag : Tag) : (rawAhead tag).encode.length < UInt32.size := by
  have hlength : (rawAhead tag).encode.length = 78 := by
    rw [length_encode, firstOffset_eq]
    simp [rawAhead, Section.encode, Section.payload]
  rw [hlength]
  decide

/-- With the tag of a scene both are faithful, with that of a list they are not. -/
theorem rawAhead_faithful :
    ((rawAhead Tag.scn).ReadsBack ∧ (rawAhead Tag.scn).Lists) ∧
      ¬((rawAhead Tag.list).ReadsBack ∧ (rawAhead Tag.list).Lists) := by
  constructor
  · refine (raw_sections_faithful_iff (List.cons_ne_nil _ _) (rawAhead_small Tag.scn)).faithful_iff.mpr ?_
    exact List.forall_mem_cons.mpr
      ⟨show Tag.scn.hasForm = false from rfl, List.forall_mem_singleton.mpr trivial⟩
  · intro h
    have hlist := raw_sections_faithful_iff (List.cons_ne_nil _ _) (rawAhead_small Tag.list)
    have hraw : Tag.list.hasForm = false := hlist.faithful_iff.mp h _ List.mem_cons_self
    cases hraw

/-- Instead of the payload of the list the tag of the group is read, and the group is not listed. -/
theorem rawList_misread :
    Container.load (rawAhead Tag.list).encode = .ok (rawAhead Tag.list).loaded ∧
    ((Container.readChunkAt 0 Tag.list).outcome (rawAhead Tag.list).loaded).1 = .ok Tag.grp.bytes ∧
    Tag.grp.bytes ≠ [1, 2, 3, 4] ∧ ¬(rawAhead Tag.list).ReadsBack ∧ ¬(rawAhead Tag.list).Lists := by
  have hread : ((Container.readChunkAt 0 Tag.list).outcome (rawAhead Tag.list).loaded).1 =
      .ok Tag.grp.bytes := rfl
  have hgroup : Tag.grp.bytes ≠ [1, 2, 3, 4] := by decide +kernel
  refine ⟨load_eq_loaded (List.cons_ne_nil _ _) (rawAhead_small Tag.list), hread, hgroup,
    fun hreads => ?_, ?_⟩
  · exact hgroup (Except.ok.inj (hread.symm.trans
      (hreads 0 Tag.list [1, 2, 3, 4] rfl (rawAhead Tag.list).firstOffset)))
  · have hat : Chunk.at? .big (rawAhead Tag.list).encode
        ((rawAhead Tag.list).startOf (rawAhead Tag.list).sections) =
          some ⟨Tag.list, 4, ⟨0x01020304⟩, 68⟩ := by decide +kernel
    exact not_lists (rawAhead_small Tag.list) (List.nil_append _) (List.forall_mem_nil _) rfl hat

end Master

end Playprint
