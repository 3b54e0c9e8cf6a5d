import Playprint.Proofs.Container.Truncation

/-!
Chains of siblings, as the chunks of a container lie one behind the other, and what a search along a chain
can come to: a chunk of the tag, the end of the chain, or a header that is not wholly in the data. Every
chunk takes at least eight bytes, so no chain goes on forever.
-/

namespace Playprint

open Bytes (At)

namespace Chunk

variable {order : ByteOrder} {data : Bytes} {limit pos start stop : Nat} {chunk : Chunk}
  {passed : List Chunk}

/-- The last position with eight more positions of 64 bits behind it. -/
def lastStart : Nat := UInt64.size - 9

/-- A chain of siblings over chunks, from one position to another. The header of each starts at least
eight bytes before the limit, and the next one starts behind its header and its padded payload. -/
inductive Chain (order : ByteOrder) (data : Bytes) (limit : Nat) : Nat → List Chunk → Nat → Prop
  | here (pos : Nat) : Chain order data limit pos [] pos
  | past {pos stop : Nat} {chunk : Chunk} {passed : List Chunk} (hbelow : pos + 8 ≤ limit)
      (hat : at? order data pos = some chunk)
      (hrest : Chain order data limit (pos + chunk.headerLength + chunk.paddedSize) passed stop) :
      Chain order data limit pos (chunk :: passed) stop

/-- A chain leads to a chunk, which may be the next one on it. -/
structure LeadsTo (order : ByteOrder) (data : Bytes) (limit pos : Nat) (passed : List Chunk)
    (start : Nat) (chunk : Chunk) : Prop where
  chain : Chain order data limit pos passed start
  below : start + 8 ≤ limit
  found : at? order data start = some chunk

theorem start_of_at? (h : at? order data pos = some chunk) : chunk.start = pos := by
  rw [start, (offset_of_at? h).1, Nat.add_sub_cancel]

theorem finish_of_at? (h : at? order data pos = some chunk) :
    chunk.finish = pos + chunk.headerLength + chunk.paddedSize := by
  rw [finish, (offset_of_at? h).1]

theorem size_lt (chunk : Chunk) : chunk.size.toNat < UInt32.size := chunk.size.toNat_lt

theorem headerLength_le (chunk : Chunk) : chunk.headerLength ≤ 12 := by
  rw [headerLength]
  split <;> omega

/-- A chunk whose header starts below the limit finishes not far above it. -/
theorem finish_le_of_at? (hbelow : pos + 8 ≤ limit) (h : at? order data pos = some chunk) :
    chunk.finish ≤ limit + 4 + UInt32.size := by
  have hheader := chunk.headerLength_le
  have hsize := chunk.size_lt
  rw [finish_of_at? h, paddedSize]
  omega

namespace Chain

/-- Every chunk on a chain takes eight bytes of the data, so no chain goes on forever. -/
theorem length_le (h : Chain order data limit pos passed stop) :
    8 * passed.length ≤ data.length - pos := by
  induction h with
  | here => exact Nat.zero_le _
  | @past pos stop chunk passed _ hat _ ih =>
      have ⟨hoffset, hle⟩ := offset_of_at? hat
      have hheader := chunk.le_headerLength
      rw [List.length_cons]
      omega

/-- A chain from a position of 64 bits stops at one. -/
theorem le_lastStart (h : Chain order data limit pos passed stop) (hpos : pos ≤ lastStart)
    (hlimit : limit ≤ 2 * UInt32.size) : stop ≤ lastStart := by
  induction h with
  | here => exact hpos
  | past hbelow hat _ ih =>
      have hfinish := finish_le_of_at? hbelow hat
      have hroom : 3 * UInt32.size + 4 ≤ lastStart := by decide
      rw [finish_of_at? hat] at hfinish
      exact ih (by omega)

/-- Every chunk on a chain lies between its ends. -/
theorem between (h : Chain order data limit pos passed stop) :
    pos ≤ stop ∧ ∀ other ∈ passed, pos ≤ other.start ∧ other.finish ≤ stop := by
  induction h with
  | here => exact ⟨Nat.le_refl _, List.forall_mem_nil _⟩
  | @past pos stop first passed _ hat _ ih =>
      obtain ⟨hle, hpassed⟩ := ih
      have hfinish := finish_of_at? hat
      refine ⟨by omega, List.forall_mem_cons.mpr ⟨⟨Nat.le_of_eq (start_of_at? hat).symm, by omega⟩, ?_⟩⟩
      intro other hother
      obtain ⟨hstart, hstop⟩ := hpassed other hother
      exact ⟨by omega, hstop⟩

/-- So every chunk on a chain stops before the chain does. -/
theorem stop_le (h : Chain order data limit pos passed stop) :
    pos ≤ stop ∧ ∀ other ∈ passed, other.stop ≤ stop := by
  obtain ⟨hle, hpassed⟩ := h.between
  refine ⟨hle, fun other hother => Nat.le_trans ?_ (hpassed other hother).2⟩
  rw [Chunk.stop, Chunk.finish, Chunk.paddedSize]
  omega

/-- A walk passes over all siblings that its verdict skips. -/
theorem walk_eq {verdict : Chunk → Verdict} (h : Chain order data limit pos passed stop)
    (hskip : ∀ other ∈ passed, verdict other = .skip) :
    walk order data limit verdict pos = walk order data limit verdict stop := by
  induction h with
  | here => rfl
  | past hbelow hat _ ih =>
      rw [walk_of_at? (headerFits_of_le hbelow) hat, hskip _ List.mem_cons_self, finish_of_at? hat]
      exact ih fun other hother => hskip other (List.mem_cons_of_mem _ hother)

end Chain

theorem headerFits_iff (hpos : pos ≤ lastStart) : headerFits pos limit = true ↔ pos + 8 ≤ limit := by
  have hroom : lastStart + 8 < UInt64.size := by decide
  rw [headerFits, Nat.mod_eq_of_lt (by omega), decide_eq_true_iff]

/-- How the search for a tag along a chain comes out. -/
inductive Search (order : ByteOrder) (data : Bytes) (limit pos : Nat) (tag : Tag) : Prop
  /-- The chain leads to a chunk of the tag, and to none before. -/
  | reached (passed : List Chunk) (start : Nat) (chunk : Chunk)
      (hleads : LeadsTo order data limit pos passed start chunk) (htag : chunk.tag = tag)
      (hskip : ∀ other ∈ passed, other.tag ≠ tag)
  /-- The chain ends without a chunk of the tag. -/
  | ended (passed : List Chunk) (stop : Nat) (hchain : Chain order data limit pos passed stop)
      (hend : limit < stop + 8) (hskip : ∀ other ∈ passed, other.tag ≠ tag)
  /-- The chain comes to a header that is not wholly in the data. -/
  | cut (passed : List Chunk) (stop : Nat) (hchain : Chain order data limit pos passed stop)
      (hbelow : stop + 8 ≤ limit) (hcut : at? order data stop = none)
      (hskip : ∀ other ∈ passed, other.tag ≠ tag)

/-- Every search comes out in one of these ways. -/
theorem search (order : ByteOrder) (data : Bytes) (limit pos : Nat) (tag : Tag) :
    Search order data limit pos tag := by
  by_cases hbelow : pos + 8 ≤ limit
  · cases hat : at? order data pos with
    | none => exact .cut [] pos (.here pos) hbelow hat fun _ hother => by cases hother
    | some chunk =>
        by_cases htag : chunk.tag = tag
        · exact .reached [] pos chunk ⟨.here pos, hbelow, hat⟩ htag fun _ hother => by cases hother
        · have hmeasure := finish_measure hat
          rw [finish_of_at? hat] at hmeasure
          have hskips : ∀ {passed : List Chunk}, (∀ other ∈ passed, other.tag ≠ tag) →
              ∀ other ∈ chunk :: passed, other.tag ≠ tag := fun hskip =>
            List.forall_mem_cons.mpr ⟨htag, hskip⟩
          cases search order data limit (pos + chunk.headerLength + chunk.paddedSize) tag with
          | reached passed start found hleads hfound hskip =>
              exact .reached _ start found ⟨.past hbelow hat hleads.chain, hleads.below, hleads.found⟩
                hfound (hskips hskip)
          | ended passed stop hchain hend hskip =>
              exact .ended _ stop (.past hbelow hat hchain) hend (hskips hskip)
          | cut passed stop hchain hstop hcut hskip =>
              exact .cut _ stop (.past hbelow hat hchain) hstop hcut (hskips hskip)
  · exact .ended [] pos (.here pos) (by omega) fun _ hother => by cases hother
termination_by data.length - pos
decreasing_by exact finish_of_at? hat ▸ finish_measure hat

/-- A header that is not in the data starts near its end, or behind it. -/
theorem length_lt_of_at?_eq_none (h : at? order data pos = none) : data.length < pos + 12 := by
  refine Nat.lt_of_not_le fun hle => ?_
  have hsecond : pos + 4 + 4 ≤ data.length := by omega
  obtain ⟨tag, htag⟩ := exists_wordAt? order (Nat.le_of_add_right_le hsecond)
  obtain ⟨size, hsize⟩ := exists_wordAt? order hsecond
  obtain ⟨form, hform⟩ := exists_wordAt? order hle
  simp only [at?, htag, hsize, hform, bind, Option.bind_some, pure] at h
  split at h <;> cases h

/-- A header that was read is in the data, and the stream stands behind it. -/
theorem readHeader_ok {stream inside : Stream}
    (h : (readHeader order).outcome stream = (.ok chunk, inside)) :
    at? order stream.data stream.pos = some chunk ∧ inside = stream.seek chunk.offset := by
  rw [readHeader, Step.outcome_of] at h
  split at h
  · rename_i hat
    cases h
    exact ⟨hat, rfl⟩
  · cases h

/-! ### Listings -/

/-- A listing goes along a chain. -/
theorem Chain.siblings_eq (h : Chain order data limit pos passed stop) :
    siblings order data limit pos = (siblings order data limit stop).map (passed ++ ·) := by
  induction h with
  | here => simp
  | past hbelow hat _ ih =>
      rw [siblings_next (headerFits_of_le hbelow) hat, finish_of_at? hat, ih, Option.map_map]
      rfl

/-- What is listed is a chain that has come to its end. -/
theorem chain_of_siblings {chunks : List Chunk} (hpos : pos ≤ lastStart) (hlimit : limit ≤ 2 * UInt32.size)
    (h : siblings order data limit pos = some chunks) :
    ∃ stop, Chain order data limit pos chunks stop ∧ limit < stop + 8 := by
  fun_induction siblings order data limit pos generalizing chunks with
  | case1 => cases h
  | case2 pos hfits chunk hat ih =>
      obtain ⟨rest, hrest, rfl⟩ := Option.map_eq_some_iff.mp h
      have hbelow := (headerFits_iff hpos).mp hfits
      have hroom : 3 * UInt32.size + 4 ≤ lastStart := by decide
      have hfinish := finish_le_of_at? hbelow hat
      obtain ⟨stop, hchain, hend⟩ := ih (by omega) hrest
      rw [finish_of_at? hat] at hchain
      exact ⟨stop, .past hbelow hat hchain, hend⟩
  | case3 pos hfits =>
      cases h
      exact ⟨pos, .here pos, Nat.lt_of_not_le (mt (headerFits_iff hpos).mpr hfits)⟩

/-- Nothing is listed when a chain comes to a header that is not wholly in the data, -/
theorem Chain.siblings_eq_none (h : Chain order data limit pos passed stop) (hbelow : stop + 8 ≤ limit)
    (hcut : at? order data stop = none) : siblings order data limit pos = none := by
  rw [h.siblings_eq, siblings_cut (headerFits_of_le hbelow) hcut, Option.map_none]

/-- and only then. -/
theorem siblings_eq_none_iff (hpos : pos ≤ lastStart) (hlimit : limit ≤ 2 * UInt32.size) :
    siblings order data limit pos = none ↔
      ∃ passed stop, Chain order data limit pos passed stop ∧ stop + 8 ≤ limit ∧
        at? order data stop = none := by
  constructor
  · intro h
    fun_induction siblings order data limit pos with
    | case1 pos hfits hcut => exact ⟨[], pos, .here pos, (headerFits_iff hpos).mp hfits, hcut⟩
    | case2 pos hfits chunk hat ih =>
        have hbelow := (headerFits_iff hpos).mp hfits
        have hroom : 3 * UInt32.size + 4 ≤ lastStart := by decide
        have hfinish := finish_le_of_at? hbelow hat
        obtain ⟨passed, stop, hchain, hcut⟩ := ih (by omega) (Option.map_eq_none_iff.mp h)
        rw [finish_of_at? hat] at hchain
        exact ⟨chunk :: passed, stop, .past hbelow hat hchain, hcut⟩
    | case3 => cases h
  · rintro ⟨passed, stop, hchain, hbelow, hcut⟩
    exact hchain.siblings_eq_none hbelow hcut

/-! ### Payloads -/

/-- The payload of a chunk in the data. -/
def payloadIn (data : Bytes) (chunk : Chunk) : Bytes :=
  (data.drop chunk.offset).take chunk.size.toNat

/-- Whether a chunk has a tag and its payload lies in the data. -/
def Offers (data : Bytes) (tag : Tag) (chunk : Chunk) : Prop :=
  chunk.tag = tag ∧ chunk.stop ≤ data.length

theorem at_payloadIn (h : chunk.stop ≤ data.length) :
    At data chunk.offset (chunk.payloadIn data) ∧
      (chunk.payloadIn data).length = chunk.size.toNat := by
  rw [stop] at h
  have hlength : (chunk.payloadIn data).length = chunk.size.toNat := by
    rw [payloadIn, List.length_take, List.length_drop]
    omega
  refine ⟨⟨data.take chunk.offset, data.drop chunk.stop, ?_, ?_⟩, hlength⟩
  · rw [payloadIn, stop, ← List.drop_drop, List.append_assoc, List.take_append_drop,
      List.take_append_drop]
  · rw [List.length_take]
    omega

theorem outcome_readPayload_within (stream : Stream) (h : chunk.stop ≤ stream.data.length) :
    chunk.readPayload.outcome stream = (.ok (chunk.payloadIn stream.data), stream.seek chunk.stop) := by
  obtain ⟨hat, hlength⟩ := at_payloadIn h
  have htake := Stream.outcome_take (stream.seek chunk.offset) .readingPayload hat
  rw [hlength] at htake
  rw [readPayload, Step.outcome_bind_ok (Stream.outcome_ensureAvailable stream h), Stream.goto,
    Step.outcome_bind_ok (Step.outcome_update _ _), htake]
  rfl

theorem outcome_readPayload_beyond (stream : Stream) (hend : chunk.stop < UInt64.size)
    (h : stream.data.length < chunk.stop) :
    chunk.readPayload.outcome stream =
      (.error (.truncated stream.data.length (chunk.stop - stream.data.length)), stream) := by
  have hrange : Stream.rangeEnd chunk.offset chunk.size.toNat = chunk.stop := by
    rw [Stream.rangeEnd, stop]
    rw [stop] at hend
    omega
  have hshort : (Stream.ensureAvailable chunk.offset chunk.size.toNat).outcome stream =
      (.error (.truncated stream.data.length (chunk.stop - stream.data.length)), stream) := by
    simp only [Stream.ensureAvailable, Step.outcome_of, hrange, if_pos h]
  rw [readPayload, Step.outcome_bind_error hshort]

/-- A payload that was read lies in the data. -/
theorem readPayload_ok {payload : Bytes} {stream left : Stream}
    (h : chunk.readPayload.outcome stream = (.ok payload, left))
    (hoffset : chunk.offset ≤ stream.data.length) :
    chunk.stop ≤ stream.data.length ∧ payload = chunk.payloadIn stream.data := by
  obtain ⟨_, room, hroom, hrest⟩ := Step.outcome_bind_eq_ok_iff.mp h
  have hstays : room = stream := by
    simp only [Stream.ensureAvailable, Step.outcome_of] at hroom
    split at hroom <;> cases hroom
    rfl
  obtain ⟨_, here, hgoto, htake⟩ := Step.outcome_bind_eq_ok_iff.mp hrest
  cases hgoto
  rw [hstays] at htake
  simp only [Stream.take, Step.outcome_of] at htake
  split at htake
  · rename_i hempty
    cases htake
    rw [stop, payloadIn, hempty, List.take_zero]
    exact ⟨hoffset, rfl⟩
  split at htake
  · rename_i hsize _ _ hslice
    cases htake
    refine ⟨Bytes.le_of_slice? (Nat.pos_of_ne_zero hsize) hslice, ?_⟩
    simp only [Bytes.slice?] at hslice
    split at hslice <;> cases hslice
    rfl
  · cases htake

/-- All chunks that a chain passes on its way to a header in the data lie in the data. -/
theorem LeadsTo.stop_le (h : LeadsTo order data limit pos passed start chunk) :
    pos ≤ start ∧ ∀ other ∈ passed, other.stop ≤ data.length := by
  obtain ⟨hle, hpassed⟩ := h.chain.stop_le
  have ⟨hoffset, hend⟩ := offset_of_at? h.found
  exact ⟨hle, fun other hother => by have hstop := hpassed other hother; omega⟩

end Chunk

end Playprint
