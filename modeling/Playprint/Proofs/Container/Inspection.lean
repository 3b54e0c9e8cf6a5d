import Playprint.Proofs.Container.Leaving

/-!
Looking at a container without reading on. Telling its byte order and listing the chunks inside the outermost
one both go elsewhere and come back. Main statement: they come back whether they succeed or fail, unless the
data ends early, within the first four bytes or within the header of a chunk; then they fail and leave the
position at the end of the data, and in no case is anything else changed.
-/

namespace Playprint

/-- The byte order that the leading bytes of data announce. -/
def announcedOrder (data : Bytes) : Except FormatError ByteOrder :=
  let word := ByteOrder.big.word (data.take 4)
  if word = Tag.ppbe.code then .ok .big
  else if word = ByteOrder.swapWord Tag.pple.code then .ok .little
  else .error (.unknownForm ⟨word⟩)

/-- With four bytes of data the stream is where it was, whether or not they announce an order. -/
theorem outcome_detectOrder_long {stream : Stream} (h : 4 ≤ stream.data.length) :
    detectOrder.outcome stream = (announcedOrder stream.data, stream) := by
  have hslice : stream.data.slice? 0 4 = some (stream.data.take 4) := by
    rw [Bytes.slice?, List.drop_zero, if_pos (List.length_take_of_le h)]
  have hposition : Stream.position.outcome stream = (.ok stream.pos, stream) := rfl
  have htake : (Stream.take .readingFormTag 4).outcome (stream.seek 0) =
      (.ok (stream.data.take 4), stream.seek 4) := by
    simp only [Stream.take, Step.outcome_of, Stream.seek, hslice]
    rfl
  rw [detectOrder, Step.outcome_bind_ok hposition, Stream.goto,
    Step.outcome_bind_ok (Step.outcome_update _ _), Step.outcome_bind_ok htake, Stream.goto,
    Step.outcome_bind_ok (Step.outcome_update _ _), announcedOrder]
  split
  · rfl
  split
  · rfl
  · rfl

/-- With less the stream is left at the end of the data. -/
theorem outcome_detectOrder_short {stream : Stream} (h : stream.data.length < 4) :
    detectOrder.outcome stream =
      (.error (.io .readingFormTag .endOfData), stream.seek stream.data.length) := by
  have hslice : stream.data.slice? 0 4 = none := by
    rw [Bytes.slice?, List.drop_zero, if_neg]
    rw [List.length_take]
    omega
  have hposition : Stream.position.outcome stream = (.ok stream.pos, stream) := rfl
  have htake : (Stream.take .readingFormTag 4).outcome (stream.seek 0) =
      (.error (.io .readingFormTag .endOfData), stream.seek stream.data.length) := by
    simp only [Stream.take, Step.outcome_of, Stream.seek, hslice]
    rfl
  rw [detectOrder, Step.outcome_bind_ok hposition, Stream.goto,
    Step.outcome_bind_ok (Step.outcome_update _ _), Step.outcome_bind_error htake]

namespace Container

variable {container : Container} {form : Chunk} {chunks : List Chunk} {limit pos : Nat}

/-! ### Listing chunk by chunk -/

/-- Lists the chunks from where the stream stands on, at most as many as there are rounds: descends into the
next one and leaves it again. -/
def listFrom (limit : Nat) : Nat → ContainerStep (List Chunk)
  | 0 => return []
  | rounds + 1 => do
    if Chunk.headerFits (← position) limit then
      let chunk ← descend .next none
      ascend chunk
      let rest ← listFrom limit rounds
      return chunk :: rest
    else return []

/-- Lists the chunks inside the outermost one, one by one from its payload on, and goes back to where the
stream stood. -/
def listAndReturn (rounds : Nat) : ContainerStep (List Chunk) := do
  let form ← openedForm
  let saved ← position
  goto form.offset
  let chunks ← listFrom form.stop rounds
  goto saved
  return chunks

theorem outcome_position (container : Container) :
    position.outcome container = (.ok container.stream.pos, container) := rfl

theorem outcome_listFrom_end {rounds : Nat} (h : ¬Chunk.headerFits pos limit = true) :
    (listFrom limit (rounds + 1)).outcome (container.moved pos) = (.ok [], container.moved pos) := by
  rw [listFrom, Step.outcome_bind_ok (outcome_position _)]
  exact congrArg (Step.outcome · (container.moved pos)) (if_neg h)

theorem outcome_listFrom_cut {rounds : Nat} (hfits : Chunk.headerFits pos limit = true)
    (h : Chunk.at? container.order container.stream.data pos = none) :
    (listFrom limit (rounds + 1)).outcome (container.moved pos) =
      (.error (.io .readingWord .endOfData), container.moved container.stream.data.length) := by
  rw [listFrom, Step.outcome_bind_ok (outcome_position _)]
  refine (congrArg (Step.outcome · (container.moved pos)) (if_pos hfits)).trans ?_
  exact Step.outcome_bind_error (outcome_descend_next_cut h none)

theorem outcome_listFrom_next {rounds : Nat} {chunk : Chunk} (hfits : Chunk.headerFits pos limit = true)
    (h : Chunk.at? container.order container.stream.data pos = some chunk) :
    (listFrom limit (rounds + 1)).outcome (container.moved pos) =
      (do let rest ← listFrom limit rounds
          return chunk :: rest : ContainerStep (List Chunk)).outcome (container.moved chunk.finish) := by
  rw [listFrom, Step.outcome_bind_ok (outcome_position _)]
  refine (congrArg (Step.outcome · (container.moved pos)) (if_pos hfits)).trans ?_
  rw [Step.outcome_bind_ok (outcome_descend_next h none), Step.outcome_bind_ok (outcome_ascend chunk _),
    moved_moved]

/-- With rounds enough, going from chunk to chunk lists all siblings, or fails at a header that is not wholly
in the data. -/
theorem outcome_listFrom {rounds : Nat} (limit : Nat)
    (hrounds : container.stream.data.length - pos < rounds) :
    (∀ chunks, Chunk.siblings container.order container.stream.data limit pos = some chunks →
      ∃ stop, (listFrom limit rounds).outcome (container.moved pos) =
        (.ok chunks, container.moved stop)) ∧
    (Chunk.siblings container.order container.stream.data limit pos = none →
      (listFrom limit rounds).outcome (container.moved pos) =
        (.error (.io .readingWord .endOfData), container.moved container.stream.data.length)) := by
  induction rounds generalizing pos with
  | zero => exact absurd hrounds (Nat.not_lt_zero _)
  | succ rounds ih =>
      by_cases hfits : Chunk.headerFits pos limit = true
      · cases hat : Chunk.at? container.order container.stream.data pos with
        | none =>
            rw [Chunk.siblings_cut hfits hat, outcome_listFrom_cut hfits hat]
            exact ⟨fun _ h => absurd h (Option.some_ne_none _).symm, fun _ => rfl⟩
        | some chunk =>
            have hmeasure := Chunk.finish_measure hat
            have hfewer : container.stream.data.length - chunk.finish < rounds := by omega
            obtain ⟨hsome, hnone⟩ := ih hfewer
            rw [Chunk.siblings_next hfits hat, outcome_listFrom_next hfits hat]
            constructor
            · intro chunks h
              obtain ⟨rest, hrest, rfl⟩ := Option.map_eq_some_iff.mp h
              obtain ⟨stop, hlist⟩ := hsome rest hrest
              exact ⟨stop, Step.outcome_bind_ok hlist⟩
            · intro h
              exact Step.outcome_bind_error (hnone (Option.map_eq_none_iff.mp h))
      · rw [Chunk.siblings_stop hfits, outcome_listFrom_end hfits]
        exact ⟨fun _ h => ⟨pos, by rw [← Option.some.inj h]⟩, fun h => by cases h⟩

/-! ### Listing at once -/

/-- Listing at once does what listing chunk by chunk does. -/
theorem outcome_listAndReturn {rounds : Nat} (hrounds : container.stream.data.length < rounds) :
    (listAndReturn rounds).outcome container = topLevelChunks.outcome container := by
  cases hform : container.form with
  | none =>
      rw [outcome_topLevelChunks_closed hform, listAndReturn,
        Step.outcome_bind_error (outcome_openedForm_none hform)]
  | some form =>
      have hopen : openedForm.outcome container = _ := outcome_openedForm container.stream.pos hform
      rw [listAndReturn, Step.outcome_bind_ok hopen, Step.outcome_bind_ok (outcome_position _),
        Step.outcome_bind_ok (outcome_goto _ _), moved_moved]
      have hfewer : container.stream.data.length - form.offset < rounds := by omega
      obtain ⟨hsome, hnone⟩ := outcome_listFrom form.stop hfewer
      cases hlist : Chunk.siblings container.order container.stream.data form.stop form.offset with
      | none =>
          rw [outcome_topLevelChunks_none hform hlist]
          exact Step.outcome_bind_error (hnone hlist)
      | some chunks =>
          obtain ⟨stop, hchunks⟩ := hsome chunks hlist
          rw [outcome_topLevelChunks_some hform hlist, Step.outcome_bind_ok hchunks,
            Step.outcome_bind_ok (outcome_goto _ _)]
          rfl

/-- Whether a chain of chunks inside the outermost one comes to a header that is not wholly in the data. -/
def Cut (container : Container) : Prop :=
  ∃ form passed stop, container.form = some form ∧
    Chunk.Chain container.order container.stream.data form.stop form.offset passed stop ∧
    stop + 8 ≤ form.stop ∧ Chunk.at? container.order container.stream.data stop = none

/-- What becomes of a container that is looked at. -/
structure Inspected (container : Container) : Prop where
  /-- The byte order is told, or not, from four bytes, and the stream stays as it was. -/
  order_long : 4 ≤ container.stream.data.length →
    detectOrder.outcome container.stream = (announcedOrder container.stream.data, container.stream)
  /-- When there are fewer, the position is lost. -/
  order_short : container.stream.data.length < 4 →
    detectOrder.outcome container.stream =
      (.error (.io .readingFormTag .endOfData), container.stream.seek container.stream.data.length)
  /-- So the stream stays as it was exactly when there are four or it stood at the end anyway. -/
  order_stays_iff : (detectOrder.outcome container.stream).2 = container.stream ↔
    4 ≤ container.stream.data.length ∨ container.stream.pos = container.stream.data.length
  /-- A listing goes from chunk to chunk and back. -/
  listing : ∀ rounds, container.stream.data.length < rounds →
    (listAndReturn rounds).outcome container = topLevelChunks.outcome container
  /-- At a header that is not wholly in the data it does not come back, -/
  listing_cut : container.Cut → topLevelChunks.outcome container =
    (.error (.io .readingWord .endOfData), container.moved container.stream.data.length)
  /-- and only there: the container stays as it was exactly when there is no such header or the stream stood at
  the end anyway. -/
  listing_stays_iff : (topLevelChunks.outcome container).2 = container ↔
    ¬container.Cut ∨ container.stream.pos = container.stream.data.length

theorem seek_eq_self_iff {stream : Stream} : stream.seek pos = stream ↔ stream.pos = pos := by
  constructor
  · intro h
    exact (congrArg Stream.pos h).symm
  · rintro rfl
    rfl

theorem moved_eq_self_iff : container.moved pos = container ↔ container.stream.pos = pos := by
  constructor
  · intro h
    exact (congrArg (fun container => container.stream.pos) h).symm
  · rintro rfl
    rfl

theorem Cut.outcome_topLevelChunks (h : container.Cut) : topLevelChunks.outcome container =
    (.error (.io .readingWord .endOfData), container.moved container.stream.data.length) := by
  obtain ⟨form, passed, stop, hform, hchain, hbelow, hcut⟩ := h
  exact outcome_topLevelChunks_none hform (hchain.siblings_eq_none hbelow hcut)

/-- A listing that comes to no such header changes nothing. -/
theorem topLevelChunks_stays (hlimit : ∀ form, container.form = some form → form.stop ≤ 2 * UInt32.size)
    (h : ¬container.Cut) : (topLevelChunks.outcome container).2 = container := by
  cases hform : container.form with
  | none => rw [outcome_topLevelChunks_closed hform]
  | some form =>
      have hstop := hlimit form hform
      have hoffset : form.offset ≤ form.stop := Nat.le_add_right _ _
      have hroom : 2 * UInt32.size ≤ Chunk.lastStart := by decide
      cases hlist : Chunk.siblings container.order container.stream.data form.stop form.offset with
      | none =>
          obtain ⟨passed, stop, hcut⟩ := (Chunk.siblings_eq_none_iff (by omega) hstop).mp hlist
          exact absurd ⟨form, passed, stop, hform, hcut⟩ h
      | some chunks => rw [outcome_topLevelChunks_some hform hlist]

/-- Whatever is known or open of a container, and wherever its stream stands, looking at it changes nothing
unless the data ends early. The outermost chunk, once opened, ends below the bound by `openForm_ok`. -/
theorem inspection_stays_iff (hlimit : ∀ form, container.form = some form → form.stop ≤ 2 * UInt32.size) :
    container.Inspected where
  order_long := outcome_detectOrder_long
  order_short := outcome_detectOrder_short
  order_stays_iff := by
    by_cases hlong : 4 ≤ container.stream.data.length
    · rw [outcome_detectOrder_long hlong]
      exact ⟨fun _ => .inl hlong, fun _ => rfl⟩
    · rw [outcome_detectOrder_short (Nat.lt_of_not_le hlong), seek_eq_self_iff]
      exact ⟨.inr, fun h => h.resolve_left hlong⟩
  listing _ := outcome_listAndReturn
  listing_cut := Cut.outcome_topLevelChunks
  listing_stays_iff := by
    by_cases hcut : container.Cut
    · rw [hcut.outcome_topLevelChunks, moved_eq_self_iff]
      exact ⟨.inr, fun h => h.resolve_left (not_not_intro hcut)⟩
    · rw [topLevelChunks_stays hlimit hcut]
      exact ⟨fun _ => .inl hcut, fun _ => rfl⟩

/-- A container whose data ends within the header of its first chunk. -/
def headless : Bytes :=
  Tag.ppbe.bytes ++ [0, 0, 0, 12] ++ Tag.mlrt.bytes ++ Tag.grp.bytes

/-- What is opened of it, with the stream before that chunk. -/
def headlessOpened : Container :=
  { ofStream .big ⟨headless, 12⟩ with form := some ⟨Tag.ppbe, 12, Tag.mlrt, 12⟩ }

theorem headless_cut : headlessOpened.Cut :=
  ⟨⟨Tag.ppbe, 12, Tag.mlrt, 12⟩, [], 12, rfl, .here 12, by decide, by decide +kernel⟩

/-- A listing of it does not come back, though telling its byte order does. -/
theorem headless_inspected :
    openForm.outcome (ofStream .big ⟨headless, 0⟩) = (.ok (), headlessOpened) ∧
    (topLevelChunks.outcome headlessOpened).2 ≠ headlessOpened ∧
    (detectOrder.outcome headlessOpened.stream).2 = headlessOpened.stream := by
  have hlooks : headlessOpened.Inspected := inspection_stays_iff (by rintro form ⟨⟩; decide)
  refine ⟨rfl, fun hstays => ?_, hlooks.order_stays_iff.mpr (.inl (by decide))⟩
  rcases hlooks.listing_stays_iff.mp hstays with hwhole | hend
  · exact hwhole headless_cut
  · exact absurd hend (by decide)

/-- Neither look leaves every stream where it was: three bytes announce no order, and the listing above does
not come back. -/
theorem inspection_moves :
    detectOrder.outcome ⟨[0x50, 0x50, 0x42], 1⟩ =
      (.error (.io .readingFormTag .endOfData), ⟨[0x50, 0x50, 0x42], 3⟩) ∧
    headlessOpened.stream.pos = 12 ∧
    topLevelChunks.outcome headlessOpened =
      (.error (.io .readingWord .endOfData), headlessOpened.moved 16) ∧
    ¬((∀ stream, (detectOrder.outcome stream).2.pos = stream.pos) ∧
      ∀ container, (topLevelChunks.outcome container).2.stream.pos = container.stream.pos) := by
  refine ⟨rfl, rfl, headless_cut.outcome_topLevelChunks, fun h => ?_⟩
  have hpos := h.1 ⟨[0x50, 0x50, 0x42], 1⟩
  rw [outcome_detectOrder_short (by decide)] at hpos
  exact absurd hpos (by decide)

end Container

end Playprint
