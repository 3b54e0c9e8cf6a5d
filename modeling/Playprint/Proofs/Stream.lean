import Playprint.Proofs.Container.Layout
import Playprint.Proofs.Vlq

/-!
Variable-length integers of 32 bits on a stream. The reader takes one byte after another, up to the first that
says that none follows, and gives up when the groups spell more than a word holds or a fifth byte asks for a
sixth. Four groups never spell that much, so it always gives up behind the fifth byte. Main statement:
`readVlq_exact`.
-/

namespace Playprint

namespace Vlq

variable {data rest : Bytes} {byte : UInt8} {index value most last : Nat}

/-- The bytes to read a number from: those up to the first that says that none follows, or all of them if none
says so, but no more than `most`. -/
def front (most : Nat) (data : Bytes) : Bytes :=
  match lastIndex? data with
  | some last => data.take (min (last + 1) most)
  | none => data.take most

theorem front_zero (data : Bytes) : front 0 data = [] := by
  rw [front]
  split
  · rw [Nat.min_zero, List.take_zero]
  · rw [List.take_zero]

theorem front_nil (most : Nat) : front most [] = [] := List.take_nil

theorem front_last (h : continues byte = false) : front (most + 1) (byte :: rest) = [byte] := by
  rw [front, lastIndex?_last h]
  simp

theorem front_continued (h : continues byte = true) :
    front (most + 1) (byte :: rest) = byte :: front most rest := by
  rw [front, front, lastIndex?_continued h]
  cases lastIndex? rest with
  | none => rfl
  | some last => simp [Nat.succ_min_succ]

/-- A number that ends soon enough is read from all of its bytes. -/
theorem front_of_lt (hlast : lastIndex? data = some last) (h : last < most) :
    front most data = data.take (last + 1) := by
  rw [front, hlast]
  simp only [Nat.min_eq_left h]

theorem continues_of_lastIndex? (h : ∀ last, lastIndex? data = some last → most ≤ last) :
    ∀ byte ∈ front most data, continues byte = true := by
  induction data generalizing most with
  | nil => simp [front_nil]
  | cons byte rest ih =>
      cases most with
      | zero => simp [front_zero]
      | succ most =>
          cases hcontinues : continues byte with
          | false => exact absurd (h 0 (lastIndex?_last hcontinues)) (Nat.not_succ_le_zero most)
          | true =>
              rw [front_continued hcontinues]
              refine List.forall_mem_cons.mpr ⟨hcontinues, ih fun last hlast => ?_⟩
              have hnext := h (last + 1) (by rw [lastIndex?_continued hcontinues, hlast]; rfl)
              omega

/-- What does not end soon enough is as long as it may be. -/
theorem length_front (hlast : lastIndex? data = some last) (h : most ≤ last) :
    (front most data).length = most := by
  obtain ⟨hindex, _⟩ := List.findIdx?_eq_some_iff_getElem.mp hlast
  rw [front, hlast]
  simp only [List.length_take]
  omega

/-- The bytes spell more than a word holds, or are five of which the last asks for another. -/
def Overflows (bytes : Bytes) : Prop :=
  UInt32.size ≤ spelled bytes ∨ (bytes.length = 5 ∧ ∀ byte ∈ bytes, continues byte = true)

/-- The same of bytes that are read as the groups from an index on, after a value, with `left` groups allowed. -/
def OverflowsFrom (index value left : Nat) (bytes : Bytes) : Prop :=
  UInt32.size ≤ value + weight index * spelled bytes ∨
    (bytes.length = left ∧ ∀ byte ∈ bytes, continues byte = true)

theorem overflowsFrom_start (bytes : Bytes) : OverflowsFrom 0 0 5 bytes ↔ Overflows bytes := by
  rw [OverflowsFrom, Overflows, weight, Nat.zero_add, Nat.one_mul]

theorem overflowsFrom_none (index value : Nat) : OverflowsFrom index value 0 [] :=
  .inr ⟨rfl, List.forall_mem_nil _⟩

theorem not_overflowsFrom_nil {left : Nat} (h : value < UInt32.size) :
    ¬OverflowsFrom index value (left + 1) [] := by
  rintro (hlarge | ⟨hlength, _⟩)
  · exact absurd h (Nat.not_lt.mpr hlarge)
  · cases hlength

theorem overflowsFrom_of_le {left : Nat} (h : UInt32.size ≤ value + valueBits byte * weight index) :
    OverflowsFrom index value left (byte :: rest) := by
  rw [OverflowsFrom, add_weight_spelled]
  exact .inl (Nat.le_trans h (Nat.le_add_right _ _))

/-- A group that is too large on its own is one of those to read from. -/
theorem overflowsFrom_front (left : Nat) (h : UInt32.size ≤ value + valueBits byte * weight index) :
    OverflowsFrom index value (left + 1) (front (left + 1) (byte :: rest)) := by
  cases hcontinues : continues byte with
  | false =>
      rw [front_last hcontinues]
      exact overflowsFrom_of_le h
  | true =>
      rw [front_continued hcontinues]
      exact overflowsFrom_of_le h

theorem overflowsFrom_last {left : Nat} (hcontinues : continues byte = false) :
    OverflowsFrom index value left [byte] ↔ UInt32.size ≤ value + valueBits byte * weight index := by
  constructor
  · rintro (hlarge | ⟨_, hall⟩)
    · rwa [add_weight_spelled] at hlarge
    · exact absurd (hall byte List.mem_cons_self) (by simp [hcontinues])
  · exact overflowsFrom_of_le

theorem overflowsFrom_continued {left : Nat} (hcontinues : continues byte = true) :
    OverflowsFrom index value (left + 1) (byte :: rest) ↔
      OverflowsFrom (index + 1) (value + valueBits byte * weight index) left rest := by
  rw [OverflowsFrom, OverflowsFrom, add_weight_spelled, List.length_cons, Nat.add_right_cancel_iff,
    List.forall_mem_cons]
  simp only [hcontinues, true_and]

end Vlq

namespace Stream

open Vlq

/-- The data from where the stream stands on. -/
def ahead (stream : Stream) : Bytes :=
  stream.data.drop stream.pos

variable {stream : Stream} {index value left : Nat} {byte : UInt8} {rest : Bytes}

/-! ### Reading byte by byte -/

theorem outcome_readVlqFrom_nil (index value left : Nat) (h : stream.ahead = []) :
    (readVlqFrom index value (left + 1)).outcome stream =
      (.error (.io .readingVlq .endOfData), stream.seek stream.data.length) := by
  have hslice : stream.data.slice? stream.pos 1 = none := by
    rw [ahead] at h
    simp [Bytes.slice?, h]
  have htake : (take .readingVlq 1).outcome stream =
      (.error (.io .readingVlq .endOfData), stream.seek stream.data.length) := by
    simp [take, hslice]
  rw [readVlqFrom, Step.outcome_bind_error htake]

theorem outcome_readVlqFrom_cons (index value left : Nat) (h : stream.ahead = byte :: rest) :
    (readVlqFrom index value (left + 1)).outcome stream =
      if UInt32.size ≤ value + valueBits byte * weight index then
        (.error (.vlqOverflow 32), stream.seek (stream.pos + 1))
      else if continues byte then
        (readVlqFrom (index + 1) (value + valueBits byte * weight index) left).outcome
          (stream.seek (stream.pos + 1))
      else (.ok (value + valueBits byte * weight index), stream.seek (stream.pos + 1)) := by
  have hslice : stream.data.slice? stream.pos 1 = some [byte] := by
    rw [ahead] at h
    simp [Bytes.slice?, h]
  have htake : (take .readingVlq 1).outcome stream = (.ok [byte], stream.seek (stream.pos + 1)) := by
    simp [take, hslice]
  rw [readVlqFrom, Step.outcome_bind_ok htake]
  dsimp only [List.headD_cons]
  by_cases hwide : UInt32.size ≤ value + valueBits byte * weight index
  · rw [if_pos hwide, if_pos hwide, Step.outcome_throw]
  · rw [if_neg hwide, if_neg hwide]
    split
    · rfl
    · rfl

/-- One more group keeps the value below the weight of the next. -/
theorem add_group_lt (hvalue : value < weight index) (byte : UInt8) :
    value + valueBits byte * weight index < weight (index + 1) := by
  have hbits := valueBits_lt byte
  calc value + valueBits byte * weight index
      < weight index + valueBits byte * weight index := Nat.add_lt_add_right hvalue _
    _ = (valueBits byte + 1) * weight index := by ring
    _ ≤ 128 * weight index := Nat.mul_le_mul_right _ hbits

/-- Four groups never spell more than a word holds. -/
theorem weight_lt_size (h : index ≤ 4) : weight index < UInt32.size := by
  calc weight index ≤ weight 4 := by
        rw [weight_eq, weight_eq]
        exact Nat.pow_le_pow_right (by decide) h
    _ < UInt32.size := by decide

theorem ahead_next (h : stream.ahead = byte :: rest) : (stream.seek (stream.pos + 1)).ahead = rest := by
  rw [ahead] at h
  simp only [ahead, seek, ← List.drop_drop, h, List.drop_succ_cons, List.drop_zero]

theorem seek_next (stream : Stream) (count : Nat) :
    (stream.seek (stream.pos + 1)).seek ((stream.seek (stream.pos + 1)).pos + count) =
      stream.seek (stream.pos + (count + 1)) := by
  simp only [seek, Nat.add_assoc, Nat.add_comm 1]

/-- How reading goes on at a group, with as many left as there may be. -/
theorem outcome_readVlqFrom (stream : Stream) (index value : Nat) (hgroups : index + left = 5)
    (hvalue : value < weight index) :
    (OverflowsFrom index value left (front left stream.ahead) →
      (readVlqFrom index value left).outcome stream =
        (.error (.vlqOverflow 32), stream.seek (stream.pos + left))) ∧
    (¬OverflowsFrom index value left (front left stream.ahead) →
      (readVlqFrom index value left).outcome stream =
        match lastIndex? stream.ahead with
        | some last => (.ok (value + weight index * spelled (stream.ahead.take (last + 1))),
            stream.seek (stream.pos + (last + 1)))
        | none => (.error (.io .readingVlq .endOfData), stream.seek stream.data.length)) := by
  induction left generalizing index value stream with
  | zero =>
      rw [front_zero]
      exact ⟨fun _ => rfl, fun h => absurd (overflowsFrom_none index value) h⟩
  | succ left ih =>
      have hsmall := weight_lt_size (by omega : index ≤ 4)
      cases hrest : stream.ahead with
      | nil =>
          rw [outcome_readVlqFrom_nil index value left hrest, front_nil]
          exact ⟨fun h => absurd h (not_overflowsFrom_nil (Nat.lt_trans hvalue hsmall)), fun _ => rfl⟩
      | cons byte rest =>
          have hnext := add_group_lt hvalue byte
          rw [outcome_readVlqFrom_cons index value left hrest]
          by_cases hwide : UInt32.size ≤ value + valueBits byte * weight index
          · -- Only a fifth group makes the value this large, and it is the last that may be read.
            have hfifth : left = 0 := by
              by_contra hmany
              have hfour := weight_lt_size (by omega : index + 1 ≤ 4)
              omega
            rw [if_pos hwide, hfifth]
            exact ⟨fun _ => rfl, fun h => absurd (overflowsFrom_front 0 hwide) h⟩
          · rw [if_neg hwide]
            cases hcontinues : continues byte with
            | false =>
                rw [if_neg Bool.false_ne_true, front_last hcontinues, lastIndex?_last hcontinues,
                  overflowsFrom_last hcontinues]
                refine ⟨fun h => absurd h hwide, fun _ => ?_⟩
                simp only [List.take_succ_cons, List.take_zero, add_weight_spelled]
                rfl
            | true =>
                obtain ⟨hgives, hreads⟩ := ih (stream.seek (stream.pos + 1)) (index + 1) _ (by omega) hnext
                rw [ahead_next hrest] at hgives hreads
                rw [if_pos rfl, front_continued hcontinues, lastIndex?_continued hcontinues,
                  overflowsFrom_continued hcontinues]
                constructor
                · intro hover
                  rw [hgives hover, seek_next]
                · intro hfits
                  rw [hreads hfits]
                  cases lastIndex? rest with
                  | none => rfl
                  | some last =>
                      simp only [Option.map_some, List.take_succ_cons, add_weight_spelled, seek_next]

/-! ### The whole number -/

/-- Reading gives up behind the fifth byte, -/
theorem outcome_readVlq_overflow (h : Overflows (front 5 stream.ahead)) :
    readVlq.outcome stream = (.error (.vlqOverflow 32), stream.seek (stream.pos + 5)) :=
  (outcome_readVlqFrom stream 0 0 rfl (by decide)).1 ((overflowsFrom_start _).mpr h)

/-- or comes to the end of the number, -/
theorem outcome_readVlq_some {last : Nat} (h : ¬Overflows (front 5 stream.ahead))
    (hlast : lastIndex? stream.ahead = some last) :
    readVlq.outcome stream = (.ok (spelled (stream.ahead.take (last + 1))),
      stream.seek (stream.pos + (last + 1))) := by
  have hreads := (outcome_readVlqFrom stream 0 0 rfl (by decide)).2
    (mt (overflowsFrom_start _).mp h)
  rw [hlast] at hreads
  simp only [weight, Nat.zero_add, Nat.one_mul] at hreads
  exact hreads

/-- or to the end of the data. -/
theorem outcome_readVlq_none (h : ¬Overflows (front 5 stream.ahead))
    (hlast : lastIndex? stream.ahead = none) :
    readVlq.outcome stream = (.error (.io .readingVlq .endOfData), stream.seek stream.data.length) := by
  have hreads := (outcome_readVlqFrom stream 0 0 rfl (by decide)).2
    (mt (overflowsFrom_start _).mp h)
  rwa [hlast] at hreads

end Stream

namespace Vlq

variable {data : Bytes} {value count last : Nat}

/-- Numbers in shortest form, one after another. -/
def encodeAll (words : List UInt32) : Bytes :=
  words.flatMap fun word => encode word.toNat

/-- A number that does not overflow ends with the fifth byte at the latest. -/
theorem last_le_of_not_overflows (hlast : lastIndex? data = some last) (h : ¬Overflows (front 5 data)) :
    last ≤ 4 := by
  by_contra hlong
  have hmany : 5 ≤ last := by omega
  refine h (.inr ⟨length_front hlast hmany, continues_of_lastIndex? fun other hother => ?_⟩)
  cases hlast.symm.trans hother
  exact hmany

/-- The number at the front of the data has 32 bits and five bytes at most exactly when the bytes do not overflow
and one of them says that none follows. -/
theorem decode_short_iff :
    (decode data = .ok (value, count) ∧ value < UInt32.size ∧ count ≤ 5) ↔
      ¬Overflows (front 5 data) ∧ ∃ last, lastIndex? data = some last ∧
        value = spelled (data.take (last + 1)) ∧ count = last + 1 := by
  constructor
  · rintro ⟨hdecode, hvalue, hcount⟩
    obtain ⟨last, hlast, _, _, rfl, rfl⟩ := decode_eq_ok_iff.mp hdecode
    refine ⟨?_, last, hlast, rfl, rfl⟩
    rw [front_of_lt hlast (by omega)]
    rintro (hlarge | ⟨_, hall⟩)
    · exact absurd hvalue (Nat.not_lt.mpr hlarge)
    · -- The last of the bytes says that none follows.
      obtain ⟨hindex, hends, _⟩ := List.findIdx?_eq_some_iff_getElem.mp hlast
      have hmem : data[last] ∈ data.take (last + 1) := List.mem_take_iff_getElem.mpr ⟨last, by omega, rfl⟩
      simp [hall _ hmem] at hends
  · rintro ⟨hfits, last, hlast, rfl, rfl⟩
    have hle := last_le_of_not_overflows hlast hfits
    refine ⟨decode_eq_ok_iff.mpr ⟨last, hlast, by omega, fun h => by omega, rfl, rfl⟩, ?_, by omega⟩
    rw [front_of_lt hlast (by omega)] at hfits
    exact Nat.lt_of_not_le fun hlarge => hfits (.inl hlarge)

end Vlq

namespace Stream

open Vlq

variable {stream : Stream} {value count : Nat}

theorem outcome_readVlq_iff :
    readVlq.outcome stream = (.ok value, stream.seek (stream.pos + count)) ↔
      decode stream.ahead = .ok (value, count) ∧ value < UInt32.size ∧ count ≤ 5 := by
  rw [decode_short_iff]
  constructor
  · intro h
    by_cases hover : Overflows (front 5 stream.ahead)
    · cases (outcome_readVlq_overflow hover).symm.trans h
    refine ⟨hover, ?_⟩
    cases hlast : lastIndex? stream.ahead with
    | none => cases (outcome_readVlq_none hover hlast).symm.trans h
    | some last =>
        obtain ⟨hvalue, hseek⟩ := Prod.mk.inj ((outcome_readVlq_some hover hlast).symm.trans h)
        have hpos := congrArg Stream.pos hseek
        simp only [seek] at hpos
        exact ⟨last, rfl, (Except.ok.inj hvalue).symm, by omega⟩
  · rintro ⟨hfits, last, hlast, rfl, rfl⟩
    exact outcome_readVlq_some hfits hlast

theorem readVlq_overflow_iff :
    (readVlq.outcome stream).1 = .error (.vlqOverflow 32) ↔ Overflows (front 5 stream.ahead) := by
  constructor
  · intro h
    by_contra hfits
    cases hlast : lastIndex? stream.ahead with
    | none =>
        rw [outcome_readVlq_none hfits hlast] at h
        cases h
    | some last =>
        rw [outcome_readVlq_some hfits hlast] at h
        cases h
  · intro hover
    rw [outcome_readVlq_overflow hover]

/-- What is not read and does not overflow is cut off. -/
theorem readVlq_cut
    (hnone : ∀ value count, decode stream.ahead = .ok (value, count) → value < UInt32.size → ¬count ≤ 5)
    (hfits : ¬Overflows (front 5 stream.ahead)) :
    (readVlq.outcome stream).1 = .error (.io .readingVlq .endOfData) := by
  cases hlast : lastIndex? stream.ahead with
  | none => rw [outcome_readVlq_none hfits hlast]
  | some last =>
      obtain ⟨hdecode, hvalue, hcount⟩ := decode_short_iff.mpr ⟨hfits, last, hlast, rfl, rfl⟩
      exact absurd hcount (hnone _ _ hdecode hvalue)

/-! ### Numbers one after another -/

/-- A number that was written is read back whatever is before and behind it. -/
theorem outcome_readVlq_encode (word : UInt32) (before suffix : Bytes) :
    readVlq.outcome ⟨before ++ (encode word.toNat ++ suffix), before.length⟩ =
      (.ok word.toNat,
        ⟨before ++ (encode word.toNat ++ suffix), before.length + (encode word.toNat).length⟩) := by
  have hword := word.toNat_lt
  have hlog : word.toNat.log2 < 32 := by
    by_cases hzero : word.toNat = 0
    · rw [hzero]
      decide
    · exact (Nat.log2_lt hzero).mpr hword
  refine outcome_readVlq_iff.mpr ?_
  rw [ahead, List.drop_left, length_encode]
  refine ⟨decode_encode (Nat.lt_of_lt_of_le hword (by decide)) suffix, hword, ?_⟩
  rw [encodedLength]
  omega

theorem outcome_times_readVlq (words : List UInt32) (before suffix : Bytes) :
    (Step.times readVlq words.length).outcome ⟨before ++ (encodeAll words ++ suffix), before.length⟩ =
      (.ok (words.map UInt32.toNat),
        ⟨before ++ (encodeAll words ++ suffix), before.length + (encodeAll words).length⟩) := by
  induction words generalizing before with
  | nil => rfl
  | cons word rest ih =>
      have hfirst := outcome_readVlq_encode word before (encodeAll rest ++ suffix)
      have hrest := ih (before ++ encode word.toNat)
      simp only [List.append_assoc, List.length_append] at hrest
      have hsplit : encodeAll (word :: rest) = encode word.toNat ++ encodeAll rest := List.flatMap_cons
      rw [hsplit, List.append_assoc, List.length_cons, Step.times, Step.outcome_bind_ok hfirst,
        Step.outcome_bind_ok hrest, Step.outcome_pure, List.length_append, ← Nat.add_assoc]
      rfl

end Stream

namespace Sink

open Vlq (encodeAll)

theorem outcome_write (activity : Activity) {data : Bytes} {sink : Sink}
    (h : sink.written.length + data.length ≤ sink.room) :
    (write activity data).outcome sink = (.ok (), { sink with written := sink.written ++ data }) := by
  have hfree : data.length ≤ sink.room - sink.written.length := by omega
  rw [write, Step.outcome_of]
  dsimp only
  rw [if_pos hfree, List.take_of_length_le hfree]

/-- Numbers are written one after another as long as there is room. -/
theorem outcome_forEach_writeVlq (words : List UInt32) {sink : Sink}
    (h : sink.written.length + (encodeAll words).length ≤ sink.room) :
    (Step.forEach words fun word => writeVlq word.toNat).outcome sink =
      (.ok (), { sink with written := sink.written ++ encodeAll words }) := by
  induction words generalizing sink with
  | nil =>
      rw [encodeAll, List.flatMap_nil, List.append_nil]
      rfl
  | cons word rest ih =>
      rw [encodeAll, List.flatMap_cons, List.length_append] at h
      have hfirst : (writeVlq word.toNat).outcome sink =
          (.ok (), { sink with written := sink.written ++ Vlq.encode word.toNat }) :=
        outcome_write .writingVlq (by omega)
      rw [Step.forEach, Step.outcome_bind_ok hfirst, ih, encodeAll, encodeAll, List.flatMap_cons,
        List.append_assoc]
      rw [List.length_append, Nat.add_assoc]
      exact h

end Sink

namespace Stream

open Vlq

/-- Wherever the stream stands, its reader answers what the decoder answers on the data from there on, if that has
32 bits and five bytes at most. If not, the number overflows when the bytes to read it from spell more than a word
holds or are five that all ask for another, and in all other cases the data ends too early. Numbers that were
written to a buffer with room for them are read back in order whatever follows them. -/
theorem readVlq_exact :
    (∀ stream : Stream,
      (∀ value count, readVlq.outcome stream = (.ok value, stream.seek (stream.pos + count)) ↔
        decode stream.ahead = .ok (value, count) ∧ value < UInt32.size ∧ count ≤ 5) ∧
      ((readVlq.outcome stream).1 = .error (.vlqOverflow 32) ↔ Overflows (front 5 stream.ahead)) ∧
      ((∀ value count, decode stream.ahead = .ok (value, count) → value < UInt32.size → ¬count ≤ 5) →
        ¬Overflows (front 5 stream.ahead) →
        (readVlq.outcome stream).1 = .error (.io .readingVlq .endOfData))) ∧
    ∀ (words : List UInt32) (sink : Sink) (suffix : Bytes),
      sink.written.length + (encodeAll words).length ≤ sink.room →
      ∃ filled, (Step.forEach words fun word => Sink.writeVlq word.toNat).outcome sink = (.ok (), filled) ∧
        filled.written = sink.written ++ encodeAll words ∧
        (Step.times readVlq words.length).outcome ⟨filled.written ++ suffix, sink.written.length⟩ =
          (.ok (words.map UInt32.toNat), ⟨filled.written ++ suffix, filled.written.length⟩) := by
  constructor
  · intro stream
    exact ⟨fun _ _ => outcome_readVlq_iff, readVlq_overflow_iff, readVlq_cut⟩
  · intro words sink suffix hroom
    refine ⟨_, Sink.outcome_forEach_writeVlq words hroom, rfl, ?_⟩
    have hread := outcome_times_readVlq words sink.written suffix
    rw [← List.append_assoc, ← List.length_append] at hread
    exact hread

/-- A number in five bytes where one would do is read, four of them without the fifth are not, and five that ask
for a sixth overflow. Three words just fit into a buffer with one byte in it, and are read back from there. -/
theorem words_read_back :
    readVlq.outcome (ofBytes [0x85, 0x80, 0x80, 0x80, 0x00]) =
      (.ok 5, ⟨[0x85, 0x80, 0x80, 0x80, 0x00], 5⟩) ∧
    (readVlq.outcome (ofBytes [0x85, 0x80, 0x80, 0x80])).1 = .error (.io .readingVlq .endOfData) ∧
    (readVlq.outcome (ofBytes [0x85, 0x80, 0x80, 0x80, 0x80, 0x00])).1 = .error (.vlqOverflow 32) ∧
    [7].length + (encodeAll [0, 70000, 0xffffffff]).length = 10 ∧
    ∃ filled, (Step.forEach [0, 70000, 0xffffffff] fun word => Sink.writeVlq (UInt32.toNat word)).outcome
        ⟨10, [7]⟩ = (.ok (), filled) ∧
      (Step.times readVlq 3).outcome ⟨filled.written ++ [0xff], 1⟩ =
        (.ok [0, 70000, 4294967295], ⟨filled.written ++ [0xff], filled.written.length⟩) := by
  obtain ⟨hread, hwritten⟩ := readVlq_exact
  obtain ⟨hagrees, _, _⟩ := hread (ofBytes [0x85, 0x80, 0x80, 0x80, 0x00])
  obtain ⟨_, _, hcut⟩ := hread (ofBytes [0x85, 0x80, 0x80, 0x80])
  obtain ⟨_, hover, _⟩ := hread (ofBytes [0x85, 0x80, 0x80, 0x80, 0x80, 0x00])
  have hlength : [7].length + (encodeAll [0, 70000, 0xffffffff]).length = 10 := by decide +kernel
  obtain ⟨filled, hfilled, _, hback⟩ := hwritten [0, 70000, 0xffffffff] ⟨10, [7]⟩ [0xff] (Nat.le_of_eq hlength)
  refine ⟨(hagrees 5 5).mpr ⟨by cbv, by decide, by decide⟩, hcut ?_ ?_, hover.mpr ?_, hlength, filled, hfilled, hback⟩
  · intro value count hdecode
    have hfails : decode (ofBytes [0x85, 0x80, 0x80, 0x80]).ahead = .error (.truncated 4 1) := by cbv
    cases hfails.symm.trans hdecode
  · rintro (hlarge | ⟨hlength, _⟩)
    · exact absurd hlarge (by decide +kernel)
    · cases hlength
  · exact .inr ⟨rfl, by decide +kernel⟩

end Stream

end Playprint
