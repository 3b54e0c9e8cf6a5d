import Mathlib.Data.List.TakeWhile
import Playprint.Proofs.Container.Locality
import Playprint.Proofs.Container.RoundTrip
import Playprint.Proofs.Container.Siblings

/-!
Reading the sections of a container in sequence. Each call follows the chain of siblings from where the
stream stands to the first chunk of its tag, and leaves the stream behind that chunk; calls of all kinds
share one position. Main statement: on any data whose outermost chunk was opened, what a call answers and
where it stops is what the chain says; on a container that was written, calls take the sections in their
order.
-/

namespace Playprint

open Bytes (At)

namespace Container

open Chunk (Chain LeadsTo lastStart)

variable {container : Container} {form : Chunk} {pos start stop : Nat} {tag : Tag} {chunk : Chunk}
  {passed : List Chunk} {α : Type}

/-! ### One call -/

theorem skips (h : ∀ other ∈ passed, other.tag ≠ tag) :
    ∀ other ∈ passed, sectionVerdict tag other = .skip :=
  fun other hother => if_neg (h other hother)

theorem walk_of_leadsTo {order : ByteOrder} {data : Bytes} {limit : Nat}
    (hleads : LeadsTo order data limit pos passed start chunk)
    (hskip : ∀ other ∈ passed, other.tag ≠ tag) (htag : chunk.tag = tag) :
    Chunk.walk order data limit (sectionVerdict tag) pos = .found chunk := by
  rw [hleads.chain.walk_eq (skips hskip)]
  exact walk_found (Chunk.headerFits_of_le hleads.below) hleads.found (if_pos htag)

/-- What a call comes to, by the end of its walk over the siblings. -/
theorem outcome_readSection (use : Bytes → Except FormatError α) (hform : container.form = some form) :
    (readSection tag use).outcome (container.moved pos) =
      match Chunk.walk container.order container.stream.data form.stop (sectionVerdict tag) pos with
      | .found chunk => ((inside chunk (onStream chunk.readPayload)) >>= fun payload =>
          Step.ofExcept (use payload)).outcome (container.moved chunk.offset)
      | .ended stop => (.error (.chunkNotFound tag form.tag), container.moved stop)
      | .cut => (.error (.io .readingWord .endOfData),
          container.moved container.stream.data.length) := by
  rw [readSection, Step.outcome_bind_ok (outcome_openedForm pos hform),
    Step.outcome_bind_ok (Step.outcome_get _)]
  cases hwalk : Chunk.walk container.order container.stream.data form.stop (sectionVerdict tag) pos with
  | found chunk =>
      refine Step.outcome_bind_ok (outcome_onStream pos ?_)
      simp only [Chunk.seekSibling, Step.outcome_of, Stream.seek, moved, hwalk]
  | ended stop =>
      refine Step.outcome_bind_error (outcome_onStream pos ?_)
      simp only [Chunk.seekSibling, Step.outcome_of, Stream.seek, moved, hwalk]
  | cut =>
      refine Step.outcome_bind_error (outcome_onStream pos ?_)
      simp only [Chunk.seekSibling, Step.outcome_of, Stream.seek, moved, hwalk]

/-- The first chunk of the tag is read, and the stream ends behind it. -/
theorem outcome_readSection_reached (use : Bytes → Except FormatError α)
    (hform : container.form = some form)
    (hleads : LeadsTo container.order container.stream.data form.stop pos passed start chunk)
    (hskip : ∀ other ∈ passed, other.tag ≠ tag) (hoffers : chunk.Offers container.stream.data tag) :
    (readSection tag use).outcome (container.moved pos) =
      (use (chunk.payloadIn container.stream.data), container.moved chunk.finish) := by
  have hpayload : (onStream chunk.readPayload).outcome (container.moved chunk.offset) =
      (.ok (chunk.payloadIn container.stream.data), container.moved chunk.stop) :=
    outcome_onStream chunk.offset
      (Chunk.outcome_readPayload_within (container.stream.seek chunk.offset) hoffers.2)
  rw [outcome_readSection use hform, walk_of_leadsTo hleads hskip hoffers.1]
  exact (Step.outcome_bind_ok (outcome_inside chunk hpayload)).trans (Step.outcome_ofExcept _ _)

/-- Nothing is done with a chunk of the tag whose payload runs past the data. -/
theorem outcome_readSection_beyond (use : Bytes → Except FormatError α)
    (hform : container.form = some form) (hlimit : form.stop ≤ 2 * UInt32.size)
    (hleads : LeadsTo container.order container.stream.data form.stop pos passed start chunk)
    (hskip : ∀ other ∈ passed, other.tag ≠ tag) (htag : chunk.tag = tag)
    (hbeyond : container.stream.data.length < chunk.stop) :
    (readSection tag use).outcome (container.moved pos) =
      (.error (.truncated container.stream.data.length (chunk.stop - container.stream.data.length)),
        container.moved chunk.finish) := by
  have hfinish := Chunk.finish_le_of_at? hleads.below hleads.found
  have hstop : chunk.stop ≤ chunk.finish := by
    rw [Chunk.stop, Chunk.finish, Chunk.paddedSize]
    omega
  have hroom : 3 * UInt32.size + 4 < UInt64.size := by decide
  have hpayload : (onStream chunk.readPayload).outcome (container.moved chunk.offset) =
      (.error (.truncated container.stream.data.length (chunk.stop - container.stream.data.length)),
        container.moved chunk.offset) :=
    outcome_onStream chunk.offset
      (Chunk.outcome_readPayload_beyond (container.stream.seek chunk.offset) (by omega) hbeyond)
  have hinside := outcome_inside chunk hpayload
  rw [outcome_readSection use hform, walk_of_leadsTo hleads hskip htag]
  exact Step.outcome_bind_error hinside

/-- Without a chunk of the tag the stream stops at the end of the chain. -/
theorem outcome_readSection_ended (use : Bytes → Except FormatError α)
    (hform : container.form = some form) (hlimit : form.stop ≤ 2 * UInt32.size)
    (hpos : pos ≤ lastStart)
    (hchain : Chain container.order container.stream.data form.stop pos passed stop)
    (hend : form.stop < stop + 8) (hskip : ∀ other ∈ passed, other.tag ≠ tag) :
    (readSection tag use).outcome (container.moved pos) =
      (.error (.chunkNotFound tag form.tag), container.moved stop) := by
  have hfits : ¬Chunk.headerFits stop form.stop = true := by
    rw [Chunk.headerFits_iff (hchain.le_lastStart hpos hlimit)]
    omega
  rw [outcome_readSection use hform, hchain.walk_eq (skips hskip), Chunk.walk, if_neg hfits]

/-- At a header that is not wholly in the data the stream fails. -/
theorem outcome_readSection_cut (use : Bytes → Except FormatError α)
    (hform : container.form = some form)
    (hchain : Chain container.order container.stream.data form.stop pos passed stop)
    (hbelow : stop + 8 ≤ form.stop)
    (hcut : Chunk.at? container.order container.stream.data stop = none)
    (hskip : ∀ other ∈ passed, other.tag ≠ tag) :
    (readSection tag use).outcome (container.moved pos) =
      (.error (.io .readingWord .endOfData), container.moved container.stream.data.length) := by
  rw [outcome_readSection use hform, hchain.walk_eq (skips hskip),
    Chunk.walk_of_cut (Chunk.headerFits_of_le hbelow) hcut]

/-! ### Calls in any order -/

/-- A call of a sequential reader: which section it wants, and what it does with the payload. -/
structure SectionCall where
  {α : Type}
  tag : Tag
  use : Bytes → Except FormatError α

/-- The container after calls, whatever they answered. -/
def afterCalls (container : Container) : List SectionCall → Container
  | [] => container
  | call :: rest => afterCalls ((readSection call.tag call.use).outcome container).2 rest

/-- What the chain of siblings from a position says about the calls there. -/
structure FollowsChain (container : Container) (form : Chunk) (here : Nat) : Prop where
  /-- No chain goes on forever. -/
  bounded : ∀ passed stop, Chain container.order container.stream.data form.stop here passed stop →
    8 * passed.length ≤ container.stream.data.length - here
  /-- The first chunk of the tag with its payload in the data is read, whatever is done with it. -/
  reached : ∀ {α : Type} (tag : Tag) (use : Bytes → Except FormatError α) passed start chunk,
    LeadsTo container.order container.stream.data form.stop here passed start chunk →
    chunk.Offers container.stream.data tag →
    (∀ other ∈ passed, ¬other.Offers container.stream.data tag) →
    (readSection tag use).outcome (container.moved here) =
      (use (chunk.payloadIn container.stream.data),
        container.moved (start + chunk.headerLength + chunk.paddedSize))
  /-- If the chain ends without one, this call and all later ones say so. -/
  missing : ∀ (tag : Tag) passed stop,
    Chain container.order container.stream.data form.stop here passed stop →
    form.stop < stop + 8 → (∀ other ∈ passed, other.tag ≠ tag) →
    (∀ {α : Type} (use : Bytes → Except FormatError α),
      (readSection tag use).outcome (container.moved here) =
        (.error (.chunkNotFound tag form.tag), container.moved stop)) ∧
    ∀ {α : Type} (later : List SectionCall) (wanted : Tag) (use : Bytes → Except FormatError α),
      (readSection wanted use).outcome ((container.moved stop).afterCalls later) =
        (.error (.chunkNotFound wanted form.tag), container.moved stop)
  /-- Otherwise the chain comes to a header that is not wholly in the data, or to a chunk of the tag whose
  payload runs past it, and nothing is handed over. -/
  otherwise : ∀ tag : Tag,
    (¬∃ passed start chunk,
      LeadsTo container.order container.stream.data form.stop here passed start chunk ∧
        chunk.Offers container.stream.data tag) →
    (¬∃ passed stop, Chain container.order container.stream.data form.stop here passed stop ∧
      form.stop < stop + 8 ∧ ∀ other ∈ passed, other.tag ≠ tag) →
    ∃ error next,
      (error = .io .readingWord .endOfData ∧
          (∃ passed stop, Chain container.order container.stream.data form.stop here passed stop ∧
            stop + 8 ≤ form.stop ∧
            Chunk.at? container.order container.stream.data stop = none) ∨
        ∃ passed start chunk,
          LeadsTo container.order container.stream.data form.stop here passed start chunk ∧
            chunk.tag = tag ∧ container.stream.data.length < chunk.stop ∧
            error = .truncated container.stream.data.length
              (chunk.stop - container.stream.data.length)) ∧
      ∀ {α : Type} (use : Bytes → Except FormatError α),
        (readSection tag use).outcome (container.moved here) = (.error error, container.moved next)

/-- Where a chain has ended, all calls say that there is nothing more. -/
theorem afterCalls_of_ended (hform : container.form = some form)
    (hlimit : form.stop ≤ 2 * UInt32.size) (hstop : stop ≤ lastStart) (hend : form.stop < stop + 8)
    (later : List SectionCall) : (container.moved stop).afterCalls later = container.moved stop := by
  induction later with
  | nil => rfl
  | cons call rest ih =>
      rw [afterCalls, outcome_readSection_ended call.use hform hlimit hstop (.here stop) hend
        fun _ hother => by cases hother]
      exact ih

theorem followsChain (hform : container.form = some form) (hlimit : form.stop ≤ 2 * UInt32.size)
    (hpos : pos ≤ lastStart) : FollowsChain container form pos where
  bounded passed stop hchain := hchain.length_le
  reached tag use passed start chunk hleads hoffers hfirst := by
    have hpassed := hleads.stop_le.2
    have hskip : ∀ other ∈ passed, other.tag ≠ tag := fun other hother htag =>
      hfirst other hother ⟨htag, hpassed other hother⟩
    rw [outcome_readSection_reached use hform hleads hskip hoffers,
      Chunk.finish_of_at? hleads.found]
  missing tag passed stop hchain hend hskip := by
    have hstop := hchain.le_lastStart hpos hlimit
    refine ⟨fun use => outcome_readSection_ended use hform hlimit hpos hchain hend hskip,
      fun later wanted use => ?_⟩
    rw [afterCalls_of_ended hform hlimit hstop hend later]
    exact outcome_readSection_ended use hform hlimit hstop (.here stop) hend
      fun _ hother => by cases hother
  otherwise tag hnowhere hnoend := by
    cases Chunk.search container.order container.stream.data form.stop pos tag with
    | reached passed start chunk hleads htag hskip =>
        have hbeyond : container.stream.data.length < chunk.stop :=
          Nat.lt_of_not_le fun hle => hnowhere ⟨passed, start, chunk, hleads, htag, hle⟩
        exact ⟨_, _, .inr ⟨passed, start, chunk, hleads, htag, hbeyond, rfl⟩, fun use =>
          outcome_readSection_beyond use hform hlimit hleads hskip htag hbeyond⟩
    | ended passed stop hchain hend hskip => exact absurd ⟨passed, stop, hchain, hend, hskip⟩ hnoend
    | cut passed stop hchain hbelow hcut hskip =>
        exact ⟨_, _, .inl ⟨rfl, passed, stop, hchain, hbelow, hcut⟩, fun use =>
          outcome_readSection_cut use hform hchain hbelow hcut hskip⟩

/-- A call stops at a position from which the next one can go on. -/
theorem exists_outcome_readSection (tag : Tag) (use : Bytes → Except FormatError α)
    (hform : container.form = some form) (hlimit : form.stop ≤ 2 * UInt32.size)
    (hpos : pos ≤ lastStart) :
    ∃ next ≤ lastStart,
      ((readSection tag use).outcome (container.moved pos)).2 = container.moved next := by
  have hroom : 3 * UInt32.size + 12 ≤ lastStart := by decide
  cases Chunk.search container.order container.stream.data form.stop pos tag with
  | reached passed start chunk hleads htag hskip =>
      have hfinish := Chunk.finish_le_of_at? hleads.below hleads.found
      refine ⟨chunk.finish, by omega, ?_⟩
      by_cases hstop : chunk.stop ≤ container.stream.data.length
      · rw [outcome_readSection_reached use hform hleads hskip ⟨htag, hstop⟩]
      · rw [outcome_readSection_beyond use hform hlimit hleads hskip htag (Nat.lt_of_not_le hstop)]
  | ended passed stop hchain hend hskip =>
      refine ⟨stop, hchain.le_lastStart hpos hlimit, ?_⟩
      rw [outcome_readSection_ended use hform hlimit hpos hchain hend hskip]
  | cut passed stop hchain hbelow hcut hskip =>
      refine ⟨container.stream.data.length, ?_, ?_⟩
      · have hshort := Chunk.length_lt_of_at?_eq_none hcut
        omega
      · rw [outcome_readSection_cut use hform hchain hbelow hcut hskip]

/-- Calls move the stream and change nothing else. -/
theorem exists_afterCalls (hform : container.form = some form) (hlimit : form.stop ≤ 2 * UInt32.size)
    (hpos : pos ≤ lastStart) (calls : List SectionCall) :
    ∃ here ≤ lastStart, (container.moved pos).afterCalls calls = container.moved here := by
  induction calls generalizing pos with
  | nil => exact ⟨pos, hpos, rfl⟩
  | cons call rest ih =>
      obtain ⟨next, hnext, hcall⟩ := exists_outcome_readSection call.tag call.use hform hlimit hpos
      rw [afterCalls, hcall]
      exact ih hnext

/-! ### Containers that were opened -/

theorem moves_detectOrder : Step.Along Stream.Moves detectOrder := by
  refine Stream.moves_position.bind fun saved => (Stream.moves_goto 0).bind fun _ =>
    (Stream.moves_take _ _).bind fun _ => (Stream.moves_goto saved).bind fun _ => ?_
  split
  · exact .pure _
  split
  · exact .pure _
  · exact .throw _

theorem data_of_ofBytes {data : Bytes} (h : ofBytes data = .ok container) :
    container.stream.data = data := by
  obtain ⟨pos, hmoved⟩ := moves_detectOrder (Stream.ofBytes data)
  rw [ofBytes] at h
  rcases hdetect : detectOrder.outcome (Stream.ofBytes data) with ⟨_ | order, stream⟩
  · rw [hdetect] at h
    cases h
  · rw [hdetect] at h hmoved
    cases h
    exact congrArg Stream.data hmoved

/-- The outermost chunk is the one at the start of the data. -/
theorem descend_outermost_ok {order : ByteOrder} {expected : Tag} {stream left : Stream}
    (h : (Chunk.descend order (.outermost expected) none).outcome stream = (.ok chunk, left)) :
    Chunk.at? order stream.data 0 = some chunk ∧ left = stream.seek chunk.offset := by
  obtain ⟨_, mid, hgoto, hrest⟩ := Step.outcome_bind_eq_ok_iff.mp h
  cases hgoto
  obtain ⟨found, behind, hheader, hchecks⟩ := Step.outcome_bind_eq_ok_iff.mp hrest
  have hsame : chunk = found ∧ left = behind := by
    by_cases htag : found.tag = order.formTag <;> by_cases hform : found.form = expected <;>
      simp [htag, hform] at hchecks
    exact ⟨hchecks.1.symm, hchecks.2.symm⟩
  obtain ⟨rfl, rfl⟩ := hsame
  exact Chunk.readHeader_ok hheader

theorem openForm_ok {fresh opened : Container} (h : openForm.outcome fresh = (.ok (), opened)) :
    ∃ form, opened.form = some form ∧ form.stop ≤ 2 * UInt32.size ∧
      opened.stream.data = fresh.stream.data := by
  obtain ⟨form, mid, hdescend, hmodify⟩ := Step.outcome_bind_eq_ok_iff.mp h
  cases hmodify
  obtain ⟨container, left, hget, hstream⟩ := Step.outcome_bind_eq_ok_iff.mp hdescend
  cases hget
  rw [onStream, Step.outcome_on] at hstream
  obtain ⟨hanswer, hleft⟩ := Prod.mk.inj hstream
  obtain ⟨hat, hstands⟩ := descend_outermost_ok (Prod.ext hanswer rfl)
  have hoffset := (Chunk.offset_of_at? hat).1
  have hheader := form.headerLength_le
  have hsize := form.size_lt
  have hroom : 12 ≤ UInt32.size := by decide
  refine ⟨form, rfl, ?_, ?_⟩
  · rw [Chunk.stop]
    omega
  · rw [← hleft]
    exact (congrArg Stream.data hstands :)

end Container

namespace Section

variable {order : ByteOrder} {data : Bytes} {pos : Nat} {part : Section}

/-- The chunk of a section holds its payload. -/
theorem payloadIn_chunkAt (hreadable : part.Readable) (hsize : (part.encode order).length < UInt32.size)
    (h : At data pos (part.encode order)) :
    (part.chunkAt order pos).Offers data part.tag ∧
      (part.chunkAt order pos).payloadIn data = part.payload order := by
  have hlength := length_payload_lt order part
  have hpayload : At data (part.chunkAt order pos).offset (part.payload order) ∧
      (part.chunkAt order pos).size.toNat = (part.payload order).length := by
    rcases encode_eq order hreadable with ⟨flags, typeIndex, media, rfl⟩ | ⟨_, hencode, hchunk⟩
    · exact ⟨Chunk.at_children h, Chunk.size_formAt Tag.list Tag.mrfl pos (by omega)⟩
    · rw [hchunk]
      exact ⟨Chunk.at_payload (hencode ▸ h), Chunk.size_plainAt part.tag pos (by omega)⟩
  obtain ⟨hat, hcount⟩ := hpayload
  refine ⟨⟨tag_chunkAt order pos part, ?_⟩, ?_⟩
  · rw [Chunk.stop, hcount]
    exact hat.le
  · have hslice := hat.slice?
    rw [Bytes.slice?] at hslice
    rw [Chunk.payloadIn, hcount]
    split at hslice
    · exact Option.some.inj hslice
    · cases hslice

end Section

namespace Master

variable {master : Master} {left : List Section} {tag : Tag}

/-- Where the sections that are left start: they reach to the end of the container. -/
def startOf (master : Master) (left : List Section) : Nat :=
  master.encode.length - (left.flatMap (Section.encode master.order)).length

/-- The sections behind the first one of a tag; none if there is no such section. -/
def behind (tag : Tag) (left : List Section) : List Section :=
  (left.dropWhile fun part => part.tag ≠ tag).tail

/-- The sections that are left after calls. -/
def leftAfter (left : List Section) (calls : List Container.SectionCall) : List Section :=
  calls.foldl (fun left call => behind call.tag left) left

theorem startOf_nil (master : Master) : master.startOf [] = master.encode.length := rfl

theorem behind_of_forall (h : ∀ part ∈ left, part.tag ≠ tag) : behind tag left = [] := by
  rw [behind, List.dropWhile_eq_nil_iff.mpr (by simpa using h), List.tail_nil]

theorem behind_append {passed rest : List Section} {part : Section}
    (h : ∀ other ∈ passed, other.tag ≠ part.tag) : behind part.tag (passed ++ part :: rest) = rest := by
  rw [behind, List.dropWhile_append_of_pos (by simpa using h), List.dropWhile_cons_of_neg (by simp),
    List.tail_cons]

theorem startOf_append {done : List Section} (h : done ++ left = master.sections) :
    master.startOf left =
      master.firstOffset + (done.flatMap (Section.encode master.order)).length := by
  have hlength := master.length_encode
  rw [← h, List.flatMap_append, List.length_append] at hlength
  rw [startOf]
  omega

/-- What is left of sections stands at the end of the container. -/
theorem at_startOf (hleft : left <:+ master.sections) :
    At master.encode (master.startOf left) (left.flatMap (Section.encode master.order)) ∧
      master.startOf left + (left.flatMap (Section.encode master.order)).length =
        master.encode.length ∧ master.firstOffset ≤ master.startOf left := by
  obtain ⟨done, hdone⟩ := hleft
  have hat := master.at_sections
  have hlength := master.length_encode
  rw [← hdone, List.flatMap_append] at hat hlength
  rw [List.length_append] at hlength
  rw [startOf_append hdone]
  exact ⟨hat.right, by omega, by omega⟩

/-- A chain passes over sections that stand one after another. -/
theorem chain_sections {order : ByteOrder} {data : Bytes} {limit pos : Nat} {passed : List Section}
    (hreadable : ∀ part ∈ passed, part.Readable) (hlimit : limit < UInt32.size)
    (hend : pos + (passed.flatMap (Section.encode order)).length ≤ limit)
    (h : At data pos (passed.flatMap (Section.encode order))) :
    Chunk.Chain order data limit pos (chunksFrom order pos passed)
      (pos + (passed.flatMap (Section.encode order)).length) := by
  induction passed generalizing pos with
  | nil => exact .here pos
  | cons part rest ih =>
      have hpart := hreadable part List.mem_cons_self
      have hpayload := Section.length_payload_lt order part
      rw [List.flatMap_cons] at h
      rw [List.flatMap_cons, List.length_append] at hend ⊢
      have hat := Section.at?_chunkAt hpart h.left
      have hrest := ih (fun other hother => hreadable other (List.mem_cons_of_mem _ hother))
        (by omega) h.right
      refine .past (by omega) hat ?_
      rw [← Chunk.finish_of_at? hat, Section.finish_chunkAt hpart (by omega), ← Nat.add_assoc]
      exact hrest

theorem forall_mem_chunksFrom {order : ByteOrder} {pos : Nat} {passed : List Section}
    (h : ∀ part ∈ passed, part.tag ≠ tag) : ∀ chunk ∈ chunksFrom order pos passed, chunk.tag ≠ tag := by
  intro chunk hchunk
  have htag := List.mem_map_of_mem (f := Chunk.tag) hchunk
  rw [tags_chunksFrom] at htag
  obtain ⟨part, hpart, heq⟩ := List.mem_map.mp htag
  exact heq ▸ h part hpart

/-- A call takes the first section of its tag from those that are left. -/
theorem outcome_readSection {α : Type} (use : Bytes → Except FormatError α)
    (hreadable : ∀ part ∈ master.sections, part.Readable)
    (hsize : master.encode.length < UInt32.size) (hleft : left <:+ master.sections) :
    (Container.readSection tag use).outcome (master.loaded.moved (master.startOf left)) =
      (match left.find? (·.tag = tag) with
        | some part => use (part.payload master.order)
        | none => .error (.chunkNotFound tag master.order.formTag),
      master.loaded.moved (master.startOf (behind tag left))) := by
  have hstop := stop_form hsize
  have hsections := hleft.subset
  obtain ⟨hat, hend, _⟩ := at_startOf hleft
  have hroom : UInt32.size ≤ 2 * UInt32.size ∧ UInt32.size ≤ Chunk.lastStart := by decide
  have hlimit : master.form.stop ≤ 2 * UInt32.size := by omega
  cases hfind : left.find? (·.tag = tag) with
  | none =>
      have hskip : ∀ part ∈ left, part.tag ≠ tag := by simpa using hfind
      have hchain : Chunk.Chain master.order master.encode master.form.stop (master.startOf left)
          (chunksFrom master.order (master.startOf left) left) _ :=
        chain_sections (fun part hpart => hreadable part (hsections hpart)) (by omega) (by omega) hat
      rw [hend] at hchain
      rw [behind_of_forall hskip, startOf_nil]
      exact Container.outcome_readSection_ended use master.form_loaded hlimit (by omega) hchain
        (by omega) (forall_mem_chunksFrom hskip)
  | some part =>
      obtain ⟨hfound, passed, rest, rfl, hpassed⟩ := List.find?_eq_some_iff_append.mp hfind
      obtain rfl : part.tag = tag := by simpa using hfound
      have hskip : ∀ other ∈ passed, other.tag ≠ part.tag := by simpa using hpassed
      have hpart := hreadable part (hsections (by simp))
      have hpayload := Section.length_payload_lt master.order part
      rw [List.flatMap_append, List.flatMap_cons] at hat hend
      rw [List.length_append, List.length_append] at hend
      have hchunk := Section.at?_chunkAt hpart hat.right.left
      have hchain := chain_sections (fun other hother => hreadable other (hsections (by simp [hother])))
        (by omega : master.form.stop < UInt32.size) (by omega) hat.left
      obtain ⟨hoffers, hdata⟩ := Section.payloadIn_chunkAt hpart (by omega) hat.right.left
      have hread := Container.outcome_readSection_reached use master.form_loaded
        ⟨hchain, by omega, hchunk⟩ (forall_mem_chunksFrom hskip) hoffers
      rw [Section.finish_chunkAt hpart (by omega)] at hread
      rw [behind_append hskip]
      refine hread.trans (Prod.ext (congrArg use hdata) ?_)
      have hstart : master.startOf rest = master.startOf (passed ++ part :: rest) +
          (passed.flatMap (Section.encode master.order)).length +
            (part.encode master.order).length := by
        rw [startOf]
        omega
      rw [hstart]

theorem behind_suffix (tag : Tag) (left : List Section) : behind tag left <:+ left :=
  (List.tail_suffix _).trans (List.dropWhile_suffix _)

/-- Calls go through the sections in their order. -/
theorem afterCalls_eq (hreadable : ∀ part ∈ master.sections, part.Readable)
    (hsize : master.encode.length < UInt32.size) (hleft : left <:+ master.sections)
    (calls : List Container.SectionCall) :
    (master.loaded.moved (master.startOf left)).afterCalls calls =
        master.loaded.moved (master.startOf (leftAfter left calls)) ∧
      leftAfter left calls <:+ master.sections := by
  induction calls generalizing left with
  | nil => exact ⟨rfl, hleft⟩
  | cons call rest ih =>
      rw [Container.afterCalls, outcome_readSection call.use hreadable hsize hleft]
      exact ih ((behind_suffix call.tag left).trans hleft)

/-- Calls for the tags of the leading sections take just these. -/
theorem leftAfter_append {done rest : List Section} {calls : List Container.SectionCall}
    (h : calls.map Container.SectionCall.tag = done.map Section.tag) :
    leftAfter (done ++ rest) calls = rest := by
  induction calls generalizing done with
  | nil =>
      obtain rfl : done = [] := List.map_eq_nil_iff.mp h.symm
      rfl
  | cons call later ih =>
      cases done with
      | nil => cases h
      | cons part done =>
          obtain ⟨htag, hlater⟩ := List.cons.inj h
          have hbehind : behind call.tag ((part :: done) ++ rest) = done ++ rest := by
            rw [htag]
            exact behind_append (List.forall_mem_nil _)
          rw [leftAfter, List.foldl_cons, hbehind]
          exact ih hlater

end Master

namespace Container

/-- Sections are read in sequence as the chain of siblings has them, on any data whose outermost chunk was
opened, by calls of any tags in any order. On a container that was written each call takes the first section
of its tag from those that are left, so calls for the tags in their order meet every section once. -/
theorem reads_follow_siblings :
    (∀ (data : Bytes) (fresh opened : Container), ofBytes data = .ok fresh →
      openForm.outcome fresh = (.ok (), opened) →
      opened.stream.data = data ∧ ∃ form, opened.form = some form ∧
        ∀ pos ≤ Chunk.lastStart, ∀ calls : List SectionCall, ∃ here ≤ Chunk.lastStart,
          (opened.moved pos).afterCalls calls = opened.moved here ∧ FollowsChain opened form here) ∧
    ∀ master : Master, master.sections ≠ [] → (∀ part ∈ master.sections, part.Readable) →
      master.encode.length < UInt32.size →
      ∃ container, load master.encode = .ok container ∧
        (∀ (calls : List SectionCall) {α : Type} (tag : Tag) (use : Bytes → Except FormatError α),
          ((readSection tag use).outcome (container.afterCalls calls)).1 =
            match (Master.leftAfter master.sections calls).find? (·.tag = tag) with
            | some part => use (part.payload master.order)
            | none => .error (.chunkNotFound tag master.order.formTag)) ∧
        ∀ done part rest, master.sections = done ++ part :: rest →
          ∀ calls : List SectionCall, calls.map SectionCall.tag = done.map Section.tag →
          ∀ {α : Type} (use : Bytes → Except FormatError α),
            ((readSection part.tag use).outcome (container.afterCalls calls)).1 =
              use (part.payload master.order) := by
  constructor
  · intro data fresh opened hfresh hopened
    obtain ⟨form, hform, hlimit, hdata⟩ := openForm_ok hopened
    refine ⟨hdata.trans (data_of_ofBytes hfresh), form, hform, fun pos hpos calls => ?_⟩
    obtain ⟨here, hhere, hcalls⟩ := exists_afterCalls hform hlimit hpos calls
    exact ⟨here, hhere, hcalls, followsChain hform hlimit hhere⟩
  · intro master hne hreadable hsize
    have hanswer : ∀ (calls : List SectionCall) {α : Type} (tag : Tag)
        (use : Bytes → Except FormatError α),
        ((readSection tag use).outcome (master.loaded.afterCalls calls)).1 =
          match (Master.leftAfter master.sections calls).find? (·.tag = tag) with
          | some part => use (part.payload master.order)
          | none => .error (.chunkNotFound tag master.order.formTag) := by
      intro calls α tag use
      have hstart : master.loaded.moved (master.startOf master.sections) = master.loaded := by
        rw [Master.startOf, Master.length_encode, Nat.add_sub_cancel]
        rfl
      obtain ⟨hcalls, hleft⟩ := Master.afterCalls_eq hreadable hsize (List.suffix_refl _) calls
      rw [← hstart, hcalls, Master.outcome_readSection use hreadable hsize hleft]
    refine ⟨master.loaded, Master.load_eq_loaded hne hsize, hanswer, ?_⟩
    intro done part rest hsections calls htags α use
    rw [hanswer, hsections, Master.leftAfter_append htags, List.find?_cons_of_pos (by simp)]

/-- A container with a group of one byte and a set of four bytes, of which the last two are missing. -/
def torn : Bytes :=
  Tag.ppbe.bytes ++ [0, 0, 0, 22] ++ Tag.mlrt.bytes ++ Tag.grp.bytes ++ [0, 0, 0, 1, 0x8a, 0] ++
    Tag.set.bytes ++ [0, 0, 0, 4, 1, 2]

/-- What was opened of it, with the stream at a position. -/
def tornAt (form : Option Chunk) (pos : Nat) : Container :=
  { ofStream .big ⟨torn, pos⟩ with form }

/-- The group is read, the set is not, and the chain ends behind the data. -/
theorem torn_follows_siblings :
    ofBytes torn = .ok (tornAt none 0) ∧
    openForm.outcome (tornAt none 0) = (.ok (), tornAt (some ⟨Tag.ppbe, 22, Tag.mlrt, 12⟩) 12) ∧
    12 ≤ Chunk.lastStart ∧
    (readSection Tag.grp Except.ok).outcome (tornAt (some ⟨Tag.ppbe, 22, Tag.mlrt, 12⟩) 12) =
      (.ok [0x8a], tornAt (some ⟨Tag.ppbe, 22, Tag.mlrt, 12⟩) 22) ∧
    (readSection Tag.scn Except.ok).outcome (tornAt (some ⟨Tag.ppbe, 22, Tag.mlrt, 12⟩) 12) =
      (.error (.chunkNotFound Tag.scn Tag.ppbe), tornAt (some ⟨Tag.ppbe, 22, Tag.mlrt, 12⟩) 34) ∧
    Master.motley.sections ≠ [] ∧ (∀ part ∈ Master.motley.sections, part.Readable) ∧
    Master.motley.encode.length < UInt32.size ∧
    ∃ container, load Master.motley.encode = .ok container ∧
      ((readSection Tag.info Except.ok).outcome
        (container.afterCalls [⟨Tag.scn, fun _ => (.error .emptyToc : Except FormatError Unit)⟩])).1 =
          .ok [1, 2, 3] := by
  have ⟨hopened, hwritten⟩ := reads_follow_siblings
  have hfresh : ofBytes torn = .ok (tornAt none 0) := rfl
  have hform : openForm.outcome (tornAt none 0) =
      (.ok (), tornAt (some ⟨Tag.ppbe, 22, Tag.mlrt, 12⟩) 12) := rfl
  have hpos : 12 ≤ Chunk.lastStart := by decide
  obtain ⟨_, form, hopen, hcalls⟩ := hopened _ _ _ hfresh hform
  cases hopen
  obtain ⟨here, _, hmoved, hchain⟩ := hcalls 12 hpos []
  obtain rfl : 12 = here := congrArg (fun container => container.stream.pos) hmoved
  have hgroup : Chunk.at? .big torn 12 = some ⟨Tag.grp, 1, Tag.blank, 20⟩ := by decide +kernel
  have hset : Chunk.at? .big torn 22 = some ⟨Tag.set, 4, Tag.blank, 30⟩ := by decide +kernel
  have hread := hchain.reached Tag.grp Except.ok [] 12 _ ⟨.here 12, by decide, hgroup⟩
    ⟨rfl, by decide⟩ (List.forall_mem_nil _)
  have hmissing := (hchain.missing Tag.scn _ 34
    (.past (by decide) hgroup (.past (by decide) hset (.here 34))) (by decide) (by decide)).1 Except.ok
  have hreadable : ∀ part ∈ Master.motley.sections, part.Readable := by
    simp [Master.motley, Section.Readable]
    decide
  have hsize : Master.motley.encode.length < UInt32.size := by decide +kernel
  obtain ⟨container, hload, hanswer, _⟩ := hwritten Master.motley (by simp [Master.motley]) hreadable hsize
  exact ⟨hfresh, hform, hpos, hread, hmissing, by simp [Master.motley], hreadable, hsize, container, hload,
    (hanswer _ Tag.info Except.ok).trans rfl⟩

end Container

end Playprint
