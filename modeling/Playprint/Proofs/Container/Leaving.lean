import Playprint.Proofs.Container.Sequence

/-!
Leaving chunks. A reader of a single section reads the headers of some chunks, does something with the
payload of the last one if that has the right tag, and then leaves the chunk. Main statement: a reader that
has read a header, and did not fail at one, leaves the stream exactly behind the last chunk whose header it
read, whatever became of the payload; and what became of the payload is what it reports.
-/

namespace Playprint

namespace Chunk

variable {order : ByteOrder} {data : Bytes} {limit pos start : Nat} {tag : Tag} {chunk : Chunk}
  {trail : List (Nat × Chunk)}

/-- The header at a position, as the only one that is read; nothing when it is not wholly in the data. -/
def headerAt (order : ByteOrder) (data : Bytes) (pos : Nat) : Option (List (Nat × Chunk)) :=
  (at? order data pos).map fun chunk => [(pos, chunk)]

/-- The headers that a search for a tag reads along a chain of siblings, each with its position: all up to
the first one of the tag. Nothing when one of them is not wholly in the data. -/
def headersTo (order : ByteOrder) (data : Bytes) (limit : Nat) (tag : Tag) (pos : Nat) :
    Option (List (Nat × Chunk)) :=
  if headerFits pos limit then
    match _h : at? order data pos with
    | none => none
    | some chunk =>
      if chunk.tag = tag then some [(pos, chunk)]
      else (headersTo order data limit tag chunk.finish).map ((pos, chunk) :: ·)
  else some []
termination_by data.length - pos
decreasing_by exact finish_measure _h

/-- Where a search for a tag ends, by the last header it has read. -/
theorem walk_section (order : ByteOrder) (data : Bytes) (limit : Nat) (tag : Tag) (pos : Nat) :
    walk order data limit (Container.sectionVerdict tag) pos =
      match headersTo order data limit tag pos with
      | none => .cut
      | some trail =>
        match trail.getLast? with
        | none => .ended pos
        | some (_, chunk) => if chunk.tag = tag then .found chunk else .ended chunk.finish := by
  fun_induction headersTo order data limit tag pos with
  | case1 pos hfits hat =>
      rw [walk, if_pos hfits]
      split
      · rfl
      · rename_i heq
        rw [hat] at heq
        cases heq
  | case2 pos hfits chunk hat htag =>
      rw [walk_of_at? hfits hat, Container.sectionVerdict, if_pos htag]
      simp only [List.getLast?_singleton, if_pos htag]
  | case3 pos hfits chunk hat htag ih =>
      rw [walk_of_at? hfits hat, Container.sectionVerdict, if_neg htag]
      refine ih.trans ?_
      cases headersTo order data limit tag chunk.finish with
      | none => rfl
      | some rest =>
          simp only [Option.map_some, List.getLast?_cons]
          cases rest.getLast? with
          | none => simp only [Option.getD_none, if_neg htag]
          | some last => rfl
  | case4 pos hfits => rw [walk, if_neg hfits]; rfl

theorem at?_of_mem_headersTo (h : headersTo order data limit tag pos = some trail)
    (hmem : (start, chunk) ∈ trail) : at? order data start = some chunk := by
  fun_induction headersTo order data limit tag pos generalizing trail with
  | case1 => cases h
  | case2 pos hfits found hat htag =>
      cases h
      obtain ⟨rfl, rfl⟩ := Prod.mk.inj (List.mem_singleton.mp hmem)
      exact hat
  | case3 pos hfits passed hat htag ih =>
      obtain ⟨rest, hrest, rfl⟩ := Option.map_eq_some_iff.mp h
      rcases List.mem_cons.mp hmem with heq | hlater
      · obtain ⟨rfl, rfl⟩ := Prod.mk.inj heq
        exact hat
      · exact ih hrest hlater
  | case4 =>
      cases h
      cases hmem

/-- Where the next chunk starts, by where the header of this one does. -/
theorem finish_eq_of_at? (h : at? order data start = some chunk) :
    chunk.finish = start + chunk.headerLength + chunk.size.toNat +
      (if chunk.size.toNat % 2 = 1 then 1 else 0) := by
  rw [finish_of_at? h, paddedSize]
  split <;> omega

/-- What a walk finds is a chunk in the data. -/
theorem at?_of_walk {verdict : Chunk → Verdict} (h : walk order data limit verdict pos = .found chunk) :
    ∃ start, at? order data start = some chunk := by
  fun_induction walk order data limit verdict pos with
  | case1 => cases h
  | case2 pos hfits found hat hverdict =>
      cases h
      exact ⟨pos, hat⟩
  | case3 => cases h
  | case4 pos hfits skipped hat hverdict ih => exact ih h
  | case5 => cases h

/-- What a search among the children of a parent comes to, by the end of its walk from the payload of the
parent. -/
theorem outcome_seekChild (order : ByteOrder) (parent : Chunk) (name : Tag) (wanted : Chunk → Bool)
    (stream : Stream) :
    (seekChild order parent name wanted).outcome stream =
      match walk order stream.data parent.stop (childVerdict parent.stop wanted) parent.offset with
      | .found child => (.ok child, stream.seek child.offset)
      | .ended stop => (.error (.chunkNotFound name parent.tag), stream.seek stop)
      | .cut => (.error (.io .readingWord .endOfData), stream.seek stream.data.length) := by
  rw [seekChild, Stream.goto, Step.outcome_bind_ok (Step.outcome_update _ _), seekSibling,
    Step.outcome_of]
  rfl

/-- The search succeeds when the walk does. -/
theorem outcome_seekChild_eq_ok_iff {parent : Chunk} {name : Tag} {wanted : Chunk → Bool}
    {stream inside : Stream} :
    (seekChild order parent name wanted).outcome stream = (.ok chunk, inside) ↔
      walk order stream.data parent.stop (childVerdict parent.stop wanted) parent.offset = .found chunk ∧
        inside = stream.seek chunk.offset := by
  rw [outcome_seekChild]
  constructor
  · intro h
    split at h
    · rename_i found hwalk
      cases h
      exact ⟨hwalk, rfl⟩
    · cases h
    · cases h
  · rintro ⟨hwalk, rfl⟩
    rw [hwalk]

/-- A descent that succeeds has read the header of its chunk last. -/
theorem at?_of_descend {descent : Descent} {parent : Option Chunk} {stream inside : Stream}
    (h : (descend order descent parent).outcome stream = (.ok chunk, inside)) :
    ∃ start, at? order stream.data start = some chunk ∧ inside = stream.seek chunk.offset := by
  cases descent with
  | next =>
      obtain ⟨hat, hinside⟩ := readHeader_ok h
      exact ⟨stream.pos, hat, hinside⟩
  | child tag | list form =>
      cases parent with
      | none => cases h
      | some parent =>
          obtain ⟨hwalk, hinside⟩ := outcome_seekChild_eq_ok_iff.mp h
          obtain ⟨start, hat⟩ := at?_of_walk hwalk
          exact ⟨start, hat, hinside⟩
  | outermost form =>
      cases parent with
      | some parent => cases h
      | none =>
          obtain ⟨hat, hinside⟩ := Container.descend_outermost_ok h
          exact ⟨0, hat, hinside⟩

end Chunk

namespace Container

variable {container : Container} {pos : Nat} {α : Type}

/-- A descent in a container is one in its stream. -/
theorem outcome_descend_eq_ok_iff {descent : Descent} {parent : Option Chunk} {chunk : Chunk}
    {left : Container} :
    (descend descent parent).outcome container = (.ok chunk, left) ↔
      ∃ stream, (Chunk.descend container.order descent parent).outcome container.stream =
        (.ok chunk, stream) ∧ left = { container with stream } := by
  rw [descend, Step.outcome_bind_ok (Step.outcome_get _), onStream, Step.outcome_on, Prod.mk.injEq]
  constructor
  · rintro ⟨hanswer, rfl⟩
    exact ⟨_, Prod.ext hanswer rfl, rfl⟩
  · rintro ⟨stream, hdescend, rfl⟩
    rw [hdescend]
    exact ⟨rfl, rfl⟩

/-- What is read of the header chunk. -/
def decodeHeader : ContainerStep Header := do
  let version ← readWord
  let date ← readWord
  return { version, date }

/-- Enters the next chunk, which must have a tag, and runs `body` inside. -/
def reading (expected : Tag) (body : Chunk → ContainerStep α) : ContainerStep α := do
  let chunk ← expectNext expected
  inside chunk (body chunk)

theorem outcome_reading_cut (expected : Tag) (body : Chunk → ContainerStep α)
    (h : Chunk.at? container.order container.stream.data pos = none) :
    (reading expected body).outcome (container.moved pos) =
      (.error (.io .readingWord .endOfData), container.moved container.stream.data.length) := by
  rw [reading, expectNext]
  exact Step.outcome_bind_error (Step.outcome_bind_error (outcome_descend_next_cut h none))

theorem outcome_reading_other (expected : Tag) (body : Chunk → ContainerStep α) {chunk : Chunk}
    (h : Chunk.at? container.order container.stream.data pos = some chunk)
    (htag : chunk.tag ≠ expected) :
    (reading expected body).outcome (container.moved pos) =
      (.error (.unexpectedChunk expected chunk.tag), container.moved chunk.finish) :=
  Step.outcome_bind_error (outcome_expectNext_other expected htag h)

theorem outcome_reading (expected : Tag) (body : Chunk → ContainerStep α) {chunk : Chunk}
    (h : Chunk.at? container.order container.stream.data pos = some chunk)
    (htag : chunk.tag = expected) :
    (reading expected body).outcome (container.moved pos) =
      (((body chunk).outcome (container.moved chunk.offset)).1,
        ((body chunk).outcome (container.moved chunk.offset)).2.moved chunk.finish) := by
  rw [reading, Step.outcome_bind_ok (outcome_expectNext expected htag h)]
  exact outcome_inside chunk rfl

/-- What is made of the payload after the chunk was left changes nothing any more. -/
theorem outcome_inside_use {β : Type} (chunk : Chunk) (body : ContainerStep β)
    (use : β → Except FormatError α) (container : Container) :
    (inside chunk body >>= fun payload => Step.ofExcept (use payload)).outcome container =
      (((body >>= fun payload => Step.ofExcept (use payload)).outcome container).1,
        (body.outcome container).2.moved chunk.finish) := by
  rcases hbody : body.outcome container with ⟨e | payload, inner⟩
  · rw [Step.outcome_bind_error (outcome_inside chunk hbody), Step.outcome_bind_error hbody]
  · rw [Step.outcome_bind_ok (outcome_inside chunk hbody), Step.outcome_bind_ok hbody]
    rfl

theorem readHeader_eq : readHeader = (do
    let _ ← openedForm
    let header ← reading Tag.hdr fun _ => decodeHeader
    modify fun container => { container with header := some header }
    return header) := by
  simp only [readHeader, reading, decodeHeader, bind_assoc]

theorem readToc_eq : readToc = (do let _ ← openedForm; reading Tag.toc decodeToc) := rfl

/-- Looking up a table entry changes nothing. -/
theorem outcome_tocOffset (index : Nat) (container : Container) :
    (tocOffset index).outcome container = (((tocOffset index).outcome container).1, container) := by
  rw [tocOffset_eq]

theorem outcome_openMediaList {list : Chunk} (h : container.mediaList = some list) :
    openMediaList.outcome container = (.ok list, container) := by
  simp only [openMediaList, Step.outcome_bind, Step.outcome_get, h, Step.outcome_pure]

theorem outcome_openMediaList_none (h : container.mediaList = none) :
    openMediaList.outcome container = (.error .missingParent, container) := by
  simp only [openMediaList, Step.outcome_bind, Step.outcome_get, h, Step.outcome_throw]

theorem outcome_readMedia_eq {list : Chunk} (h : container.mediaList = some list) :
    readMedia.outcome container =
      if Chunk.headerFits container.stream.pos list.stop then
        (reading Tag.mref decodeMedia).outcome container
      else (.error (.chunkNotFound Tag.mref Tag.mrfl), container) := by
  have hposition : position.outcome container = (.ok container.stream.pos, container) := rfl
  rw [readMedia, Step.outcome_bind_ok (outcome_openMediaList h), Step.outcome_bind_ok hposition]
  by_cases hfits : Chunk.headerFits container.stream.pos list.stop
  · simp only [hfits, Bool.not_true, Bool.false_eq_true, if_false, if_true]
    rfl
  · simp only [hfits, Bool.not_false, Bool.false_eq_true, if_false, if_true]
    rfl

end Container

/-! ### Readers of single sections -/

/-- The readers of single sections. What a sequential reader finds goes to a function of the caller's, which
makes something of type `τ` of it, or fails. -/
inductive SectionRead (τ : Type)
  | header
  | toc
  | entry (index : Nat) (expected : Tag)
  | media
  | next (tag : Tag) (use : Bytes → Except FormatError τ)

namespace SectionRead

variable {τ : Type}

/-- The type of what is answered. -/
def Answer : SectionRead τ → Type
  | header => Header
  | toc => Nat
  | entry .. => Bytes
  | media => Media
  | next .. => τ

def run : (read : SectionRead τ) → ContainerStep read.Answer
  | header => Container.readHeader
  | toc => Container.readToc
  | entry index expected => Container.readChunkAt index expected
  | media => Container.readMedia
  | next tag use => Container.readSection tag use

/-- The tag that the chunk must have. -/
def tag : SectionRead τ → Tag
  | header => Tag.hdr
  | toc => Tag.toc
  | entry _ expected => expected
  | media => Tag.mref
  | next tag _ => tag

/-- What is done with a chunk of the tag once its header was read: the decoder, and the function of the
caller's if there is one. -/
def body : (read : SectionRead τ) → Chunk → ContainerStep read.Answer
  | header, _ => Container.decodeHeader
  | toc, chunk => Container.decodeToc chunk
  | entry .., chunk => Container.onStream chunk.readPayload
  | media, chunk => Container.decodeMedia chunk
  | next _ use, chunk => do Step.ofExcept (use (← Container.onStream chunk.readPayload))

/-- The headers that are read in a container, each with its position; nothing when one of them is not wholly
in the data. None is read before the outermost chunk was opened, for a table entry that points nowhere, or
where no list is open or no header fits any more. -/
def headers (read : SectionRead τ) (container : Container) : Option (List (Nat × Chunk)) :=
  let next := Chunk.headerAt container.order container.stream.data
  match read, container.form, container.mediaList with
  | header, some _, _ | toc, some _, _ => next container.stream.pos
  | entry index _, _, _ =>
    match ((Container.tocOffset index).outcome container).1 with
    | .ok offset => next offset
    | .error _ => some []
  | media, _, some list =>
    if Chunk.headerFits container.stream.pos list.stop then next container.stream.pos else some []
  | .next tag _, some form, _ =>
    Chunk.headersTo container.order container.stream.data form.stop tag container.stream.pos
  | header, none, _ | toc, none, _ | .next .., none, _ | media, _, none => some []

/-- Where a reader leaves a container and what it reports, by the headers it reads there. -/
structure Leaves (read : SectionRead τ) (container : Container) : Prop where
  /-- A reader that reads no header fails and leaves everything as it was. -/
  untouched : read.headers container = some [] →
    ∃ error, read.run.outcome container = (.error error, container)
  /-- At a header that is not wholly in the data the stream fails. -/
  cut : read.headers container = none →
    read.run.outcome container =
      (.error (.io .readingWord .endOfData), container.moved container.stream.data.length)
  /-- In all other cases the stream ends behind the last chunk whose header was read. -/
  behind : ∀ trail start chunk, read.headers container = some trail →
    trail.getLast? = some (start, chunk) →
    Chunk.at? container.order container.stream.data start = some chunk ∧
      (read.run.outcome container).2.stream.pos =
        start + chunk.headerLength + chunk.size.toNat + (if chunk.size.toNat % 2 = 1 then 1 else 0)
  /-- What became of a chunk of the tag is what is reported. -/
  reports : ∀ trail start chunk, read.headers container = some trail →
    trail.getLast? = some (start, chunk) → chunk.tag = read.tag →
    (read.run.outcome container).1 = ((read.body chunk).outcome (container.moved chunk.offset)).1
  /-- A chunk of another tag is refused, or passed over as the last one. -/
  refuses : ∀ trail start chunk, read.headers container = some trail →
    trail.getLast? = some (start, chunk) → chunk.tag ≠ read.tag →
    (read.run.outcome container).1 = .error (.unexpectedChunk read.tag chunk.tag) ∨
      ∃ form, container.form = some form ∧
        (read.run.outcome container).1 = .error (.chunkNotFound read.tag form.tag)

variable {read : SectionRead τ} {container : Container}

/-- A reader that reads no header, -/
theorem leaves_of_fails (error : FormatError) (hheaders : read.headers container = some [])
    (hrun : read.run.outcome container = (.error error, container)) : Leaves read container where
  untouched _ := ⟨error, hrun⟩
  cut h := by cases hheaders.symm.trans h
  behind trail start chunk htrail hlast := by
    cases hheaders.symm.trans htrail
    cases hlast
  reports trail start chunk htrail hlast := by
    cases hheaders.symm.trans htrail
    cases hlast
  refuses trail start chunk htrail hlast := by
    cases hheaders.symm.trans htrail
    cases hlast

/-- one that fails at a header, -/
theorem leaves_of_cut (hheaders : read.headers container = none)
    (hrun : read.run.outcome container =
      (.error (.io .readingWord .endOfData), container.moved container.stream.data.length)) :
    Leaves read container where
  untouched h := by cases hheaders.symm.trans h
  cut _ := hrun
  behind trail start chunk htrail := by cases hheaders.symm.trans htrail
  reports trail start chunk htrail := by cases hheaders.symm.trans htrail
  refuses trail start chunk htrail := by cases hheaders.symm.trans htrail

/-- and one that has read a last one. -/
theorem leaves_of_last {trail : List (Nat × Chunk)} {start : Nat} {chunk : Chunk}
    (hheaders : read.headers container = some trail) (hlast : trail.getLast? = some (start, chunk))
    (hat : Chunk.at? container.order container.stream.data start = some chunk)
    (hpos : (read.run.outcome container).2.stream.pos = chunk.finish)
    (hreports : chunk.tag = read.tag →
      (read.run.outcome container).1 = ((read.body chunk).outcome (container.moved chunk.offset)).1)
    (hrefuses : chunk.tag ≠ read.tag →
      (read.run.outcome container).1 = .error (.unexpectedChunk read.tag chunk.tag) ∨
        ∃ form, container.form = some form ∧
          (read.run.outcome container).1 = .error (.chunkNotFound read.tag form.tag)) :
    Leaves read container where
  untouched h := by
    cases hheaders.symm.trans h
    cases hlast
  cut h := by cases hheaders.symm.trans h
  behind trail' start' chunk' htrail hlast' := by
    cases hheaders.symm.trans htrail
    cases hlast.symm.trans hlast'
    exact ⟨hat, hpos.trans (Chunk.finish_eq_of_at? hat)⟩
  reports trail' start' chunk' htrail hlast' := by
    cases hheaders.symm.trans htrail
    cases hlast.symm.trans hlast'
    exact hreports
  refuses trail' start' chunk' htrail hlast' := by
    cases hheaders.symm.trans htrail
    cases hlast.symm.trans hlast'
    exact hrefuses

/-- A reader that enters the chunk at a position and afterwards moves the stream no more. -/
theorem leaves_of_reading (pos : Nat)
    (hheaders : read.headers container =
      Chunk.headerAt container.order container.stream.data pos)
    (hrun : ∀ answer left,
      (Container.reading read.tag read.body).outcome (container.moved pos) = (answer, left) →
        ∃ last : Container, read.run.outcome container = (answer, last) ∧
          last.stream = left.stream ∧ ∀ e, answer = .error e → last = left) :
    Leaves read container := by
  cases hat : Chunk.at? container.order container.stream.data pos with
  | none =>
      rw [Chunk.headerAt, hat, Option.map_none] at hheaders
      obtain ⟨last, hlast, _, hleft⟩ := hrun _ _ (Container.outcome_reading_cut read.tag read.body hat)
      rw [hleft _ rfl] at hlast
      exact leaves_of_cut hheaders hlast
  | some chunk =>
      rw [Chunk.headerAt, hat, Option.map_some] at hheaders
      by_cases htag : chunk.tag = read.tag
      · obtain ⟨last, houtcome, hstream, _⟩ :=
          hrun _ _ (Container.outcome_reading read.tag read.body hat htag)
        refine leaves_of_last hheaders rfl hat ?_ (fun _ => ?_) fun hother => absurd htag hother
        · rw [houtcome]
          exact congrArg Stream.pos hstream
        · rw [houtcome]
      · obtain ⟨last, houtcome, hstream, _⟩ :=
          hrun _ _ (Container.outcome_reading_other read.tag read.body hat htag)
        refine leaves_of_last hheaders rfl hat ?_ (fun hsame => absurd hsame htag) fun _ => .inl ?_
        · rw [houtcome]
          exact congrArg Stream.pos hstream
        · rw [houtcome]

/-- A reader that does just what entering the chunk at a position does. -/
theorem leaves_of_eq (pos : Nat)
    (hheaders : read.headers container =
      Chunk.headerAt container.order container.stream.data pos)
    (hrun : read.run.outcome container =
      (Container.reading read.tag read.body).outcome (container.moved pos)) :
    Leaves read container :=
  leaves_of_reading pos hheaders fun _ left h => ⟨left, hrun.trans h, rfl, fun _ _ => rfl⟩

theorem leaves_header (container : Container) : Leaves (header : SectionRead τ) container := by
  cases hform : container.form with
  | none =>
      refine leaves_of_fails .notStarted ?_ ?_
      · simp only [headers, hform]
      · exact Step.outcome_bind_error (Container.outcome_openedForm_none hform)
  | some form =>
      refine leaves_of_reading container.stream.pos ?_ fun answer left h => ?_
      · simp only [headers, hform]
      have hrun : Container.readHeader.outcome container = _ :=
        (congrArg (Step.outcome · container) Container.readHeader_eq).trans
          (Step.outcome_bind_ok (Container.outcome_openedForm container.stream.pos hform))
      cases answer with
      | error e => exact ⟨left, hrun.trans (Step.outcome_bind_error h), rfl, fun _ _ => rfl⟩
      | ok found =>
          refine ⟨left.withHeader found, hrun.trans (Step.outcome_bind_ok h), rfl, ?_⟩
          rintro e ⟨⟩

theorem leaves_toc (container : Container) : Leaves (toc : SectionRead τ) container := by
  cases hform : container.form with
  | none =>
      refine leaves_of_fails .notStarted ?_ ?_
      · simp only [headers, hform]
      · exact Step.outcome_bind_error (Container.outcome_openedForm_none hform)
  | some form =>
      refine leaves_of_eq container.stream.pos ?_ ?_
      · simp only [headers, hform]
      · exact Step.outcome_bind_ok (Container.outcome_openedForm container.stream.pos hform)

theorem leaves_entry (index : Nat) (expected : Tag) (container : Container) :
    Leaves (entry index expected : SectionRead τ) container := by
  have hentry := Container.outcome_tocOffset index container
  cases hoffset : ((Container.tocOffset index).outcome container).1 with
  | error e =>
      rw [hoffset] at hentry
      refine leaves_of_fails e ?_ ?_
      · simp only [headers, hoffset]
      · exact Step.outcome_bind_error hentry
  | ok offset =>
      rw [hoffset] at hentry
      refine leaves_of_eq offset ?_ ?_
      · simp only [headers, hoffset]
      · exact (Step.outcome_bind_ok hentry).trans
          (Step.outcome_bind_ok (Container.outcome_goto offset container))

theorem leaves_media (container : Container) : Leaves (media : SectionRead τ) container := by
  cases hlist : container.mediaList with
  | none =>
      refine leaves_of_fails .missingParent ?_ ?_
      · simp only [headers, hlist]
      · exact Step.outcome_bind_error (Container.outcome_openMediaList_none hlist)
  | some list =>
      have hrun := Container.outcome_readMedia_eq hlist
      by_cases hfits : Chunk.headerFits container.stream.pos list.stop
      · refine leaves_of_eq container.stream.pos ?_ (hrun.trans (if_pos hfits))
        simp only [headers, hlist, if_pos hfits]
      · refine leaves_of_fails (.chunkNotFound Tag.mref Tag.mrfl) ?_ (hrun.trans (if_neg hfits))
        simp only [headers, hlist, if_neg hfits]

theorem leaves_next (tag : Tag) (use : Bytes → Except FormatError τ) (container : Container) :
    Leaves (next tag use) container := by
  cases hform : container.form with
  | none =>
      refine leaves_of_fails .notStarted ?_ ?_
      · simp only [headers, hform]
      · exact Step.outcome_bind_error (Container.outcome_openedForm_none hform)
  | some form =>
      have hheaders : (next tag use).headers container = Chunk.headersTo container.order
          container.stream.data form.stop tag container.stream.pos := by
        simp only [headers, hform]
      have hrun : (Container.readSection tag use).outcome
          (container.moved container.stream.pos) = _ := Container.outcome_readSection use hform
      rw [Chunk.walk_section, ← hheaders] at hrun
      change (next tag use).run.outcome container = _ at hrun
      cases htrail : (next tag use).headers container with
      | none =>
          rw [htrail] at hrun
          exact leaves_of_cut htrail hrun
      | some trail =>
          rw [htrail] at hrun
          cases hlast : trail.getLast? with
          | none =>
              obtain rfl := List.getLast?_eq_none_iff.mp hlast
              exact leaves_of_fails _ htrail hrun
          | some last =>
              obtain ⟨start, chunk⟩ := last
              simp only [hlast] at hrun
              have hat := Chunk.at?_of_mem_headersTo (hheaders.symm.trans htrail)
                (List.mem_of_getLast? hlast)
              by_cases htag : chunk.tag = tag
              · rw [if_pos htag] at hrun
                have hends := hrun.trans (Container.outcome_inside_use chunk _ use _)
                refine leaves_of_last htrail hlast hat ?_ (fun _ => ?_) fun hother => absurd htag hother
                · rw [hends]
                  rfl
                · rw [hends]
                  rfl
              · rw [if_neg htag] at hrun
                refine leaves_of_last htrail hlast hat ?_ (fun hsame => absurd hsame htag)
                  fun _ => .inr ⟨form, hform, ?_⟩
                · rw [hrun]
                  rfl
                · rw [hrun]
                  rfl

/-- Every reader of single sections leaves its chunk. -/
theorem leaves (read : SectionRead τ) (container : Container) : Leaves read container := by
  cases read with
  | header => exact leaves_header container
  | toc => exact leaves_toc container
  | entry index expected => exact leaves_entry index expected container
  | media => exact leaves_media container
  | next tag use => exact leaves_next tag use container

end SectionRead

/-- No reader of a section leaves the stream inside a chunk. In every state of a container a reader that has
read a header, and did not fail at one, leaves the stream behind the padded payload of the last chunk whose
header it read, and it reports what its decoder, or the function of the caller's, has come to. A body that
runs inside a chunk is closed in the same way wherever it stops. -/
theorem reads_leave_chunks (τ : Type) :
    (∀ (read : SectionRead τ) (container : Container), read.Leaves container) ∧
    ∀ (order : ByteOrder) (descent : Descent) (parent : Option Chunk) (stream inside : Stream)
      (chunk : Chunk), (Chunk.descend order descent parent).outcome stream = (.ok chunk, inside) →
      ∃ start, Chunk.at? order stream.data start = some chunk ∧
        inside = stream.seek (start + chunk.headerLength) ∧
        ∀ (α : Type) (body : Chunk → Reading α),
          (Chunk.visit order descent parent body).outcome stream =
            (((body chunk).outcome inside).1, ((body chunk).outcome inside).2.seek
              (start + chunk.headerLength + chunk.size.toNat +
                (if chunk.size.toNat % 2 = 1 then 1 else 0))) := by
  refine ⟨SectionRead.leaves, ?_⟩
  intro order descent parent stream inside chunk hdescend
  obtain ⟨start, hat, hinside⟩ := Chunk.at?_of_descend hdescend
  rw [(Chunk.offset_of_at? hat).1] at hinside
  refine ⟨start, hat, hinside, fun α body => ?_⟩
  rw [Chunk.visit, Step.outcome_bind_ok hdescend, ← Chunk.finish_eq_of_at? hat]
  exact Step.outcome_closing rfl (Step.outcome_update _ _)

/-- A step that reads three words, and then fails for a reason of its own. -/
def readsOn : Chunk → Reading Unit := fun _ => do
  let _ ← Step.times (Stream.readWord .big) 3
  throw .noActiveActor

/-- The set of the container that was cut off runs past its data, and so does a body that reads on behind the
group: the stream ends behind the chunk in both cases. -/
theorem torn_leaves_chunks :
    (SectionRead.next Tag.set Except.ok : SectionRead Bytes).headers
        (Container.tornAt (some ⟨Tag.ppbe, 22, Tag.mlrt, 12⟩) 12) =
      some [(12, ⟨Tag.grp, 1, Tag.blank, 20⟩), (22, ⟨Tag.set, 4, Tag.blank, 30⟩)] ∧
    ((Container.readSection Tag.set Except.ok).outcome
      (Container.tornAt (some ⟨Tag.ppbe, 22, Tag.mlrt, 12⟩) 12)).2.stream.pos = 34 ∧
    (Chunk.descend .big .next none).outcome ⟨Container.torn, 12⟩ =
      (.ok ⟨Tag.grp, 1, Tag.blank, 20⟩, ⟨Container.torn, 20⟩) ∧
    (Chunk.visit .big .next none readsOn).outcome ⟨Container.torn, 12⟩ =
      (.error .noActiveActor, ⟨Container.torn, 22⟩) := by
  have ⟨hreads, hvisits⟩ := reads_leave_chunks Bytes
  have hheaders : (SectionRead.next Tag.set Except.ok : SectionRead Bytes).headers
      (Container.tornAt (some ⟨Tag.ppbe, 22, Tag.mlrt, 12⟩) 12) =
        some [(12, ⟨Tag.grp, 1, Tag.blank, 20⟩), (22, ⟨Tag.set, 4, Tag.blank, 30⟩)] := by
    decide +kernel
  have hdescend : (Chunk.descend .big .next none).outcome ⟨Container.torn, 12⟩ =
      (.ok ⟨Tag.grp, 1, Tag.blank, 20⟩, ⟨Container.torn, 20⟩) := rfl
  obtain ⟨start, hat, hinside, hvisit⟩ := hvisits _ _ _ _ _ _ hdescend
  refine ⟨hheaders, ((hreads _ _).behind _ 22 _ hheaders rfl).2, hdescend, ?_⟩
  have hstart : 20 = start + 8 := congrArg Stream.pos hinside
  obtain rfl : start = 12 := by omega
  exact (hvisit Unit readsOn).trans rfl

end Playprint
