import Playprint.Master
import Playprint.Proofs.Step

/-!
Where the parts of a container stand. A chunk that was written at a position is found there with its tag,
its size and its form, it gives its payload back, and the next chunk starts where its bytes end; positions
stay far below the bound of 64 bits as long as the data is shorter than 4 GiB.
-/

namespace Playprint

namespace Bytes

/-- Whether the bytes of `part` stand at a position of `data`. -/
def At (data : Bytes) (pos : Nat) (part : Bytes) : Prop :=
  ∃ before after, data = before ++ part ++ after ∧ before.length = pos

namespace At

variable {data first second part : Bytes} {pos : Nat}

theorem whole (data : Bytes) : At data 0 data := ⟨[], [], by simp, rfl⟩

theorem left (h : At data pos (first ++ second)) : At data pos first := by
  obtain ⟨before, after, rfl, hpos⟩ := h
  exact ⟨before, second ++ after, by simp, hpos⟩

theorem right (h : At data pos (first ++ second)) : At data (pos + first.length) second := by
  obtain ⟨before, after, rfl, rfl⟩ := h
  exact ⟨before ++ first, after, by simp, by simp⟩

theorem le (h : At data pos part) : pos + part.length ≤ data.length := by
  obtain ⟨before, after, rfl, rfl⟩ := h
  simp only [List.length_append]
  omega

theorem slice? (h : At data pos part) : data.slice? pos part.length = some part := by
  obtain ⟨before, after, rfl, rfl⟩ := h
  simp [Bytes.slice?]

end At

end Bytes

namespace Chunk

open Bytes (At)

variable {order : ByteOrder} {data payload children : Bytes} {tag form : Tag} {pos : Nat}

/-! ### Lengths -/

@[simp] theorem length_encodeWords (order : ByteOrder) (words : List UInt32) :
    (encodeWords order words).length = 4 * words.length := by
  induction words with
  | nil => rfl
  | cons word rest ih =>
      rw [encodeWords, List.flatMap_cons, List.length_append, ByteOrder.length_wordBytes,
        ← encodeWords, ih, List.length_cons]
      omega

/-- All bytes are words, with less than one more word behind them. -/
theorem exists_encodeWords (order : ByteOrder) (data : Bytes) :
    ∃ words tail, tail.length < 4 ∧ data = encodeWords order words ++ tail := by
  by_cases hshort : data.length < 4
  · exact ⟨[], data, hshort, rfl⟩
  · have htake : (data.take 4).length = 4 := List.length_take_of_le (Nat.le_of_not_lt hshort)
    obtain ⟨words, tail, htail, hrest⟩ := exists_encodeWords order (data.drop 4)
    refine ⟨order.word (data.take 4) :: words, tail, htail, ?_⟩
    rw [encodeWords, List.flatMap_cons, ByteOrder.wordBytes_word order htake, ← encodeWords, List.append_assoc,
      ← hrest, List.take_append_drop]
termination_by data.length
decreasing_by
  rw [List.length_drop]
  omega

@[simp] theorem length_encode (order : ByteOrder) (tag : Tag) (payload : Bytes) :
    (encode order tag payload).length = 8 + payload.length + payload.length % 2 := by
  simp [encode, Nat.add_assoc]

@[simp] theorem length_encodeForm (order : ByteOrder) (tag form : Tag) (children : Bytes) :
    (encodeForm order tag form children).length = 12 + children.length := by
  simp [encodeForm]

/-! ### Words and headers -/

/-- A word is missing when its four bytes are not wholly in the data. -/
theorem wordAt?_eq_none_iff : wordAt? order data pos = none ↔ data.length < pos + 4 := by
  rw [wordAt?, Option.map_eq_none_iff, Bytes.slice?]
  simp only [List.length_take, List.length_drop]
  split
  · exact ⟨fun h => (Option.some_ne_none _ h).elim, fun h => by omega⟩
  · exact ⟨fun _ => by omega, fun _ => rfl⟩

/-- A word whose four bytes are in the data is not missing. -/
theorem exists_wordAt? (order : ByteOrder) (h : pos + 4 ≤ data.length) :
    ∃ word, wordAt? order data pos = some word :=
  Option.ne_none_iff_exists'.mp (mt wordAt?_eq_none_iff.mp (Nat.not_lt.mpr h))

theorem wordAt?_of_at {word : UInt32} (h : At data pos (order.wordBytes word)) :
    wordAt? order data pos = some word := by
  have hslice := h.slice?
  rw [ByteOrder.length_wordBytes] at hslice
  rw [wordAt?, hslice, Option.map_some, ByteOrder.word_wordBytes]

theorem wordAt?_head {word : UInt32} {rest : List UInt32}
    (h : At data pos (encodeWords order (word :: rest))) : wordAt? order data pos = some word :=
  wordAt?_of_at h.left

theorem at_tail {word : UInt32} {rest : List UInt32}
    (h : At data pos (encodeWords order (word :: rest))) :
    At data (pos + 4) (encodeWords order rest) := by
  have hright := h.right
  rwa [ByteOrder.length_wordBytes] at hright

/-- The chunk without form that has a payload, when its header starts at a position. -/
def plainAt (tag : Tag) (payload : Bytes) (pos : Nat) : Chunk :=
  ⟨tag, UInt32.ofNat payload.length, Tag.blank, pos + 8⟩

/-- The chunk with a form around children, when its header starts at a position. -/
def formAt (tag form : Tag) (children : Bytes) (pos : Nat) : Chunk :=
  ⟨tag, UInt32.ofNat children.length, form, pos + 12⟩

@[simp] theorem offset_plainAt : (plainAt tag payload pos).offset = pos + 8 := rfl

@[simp] theorem offset_formAt : (formAt tag form children pos).offset = pos + 12 := rfl

theorem at?_encode (htag : tag.hasForm = false) (h : At data pos (encode order tag payload)) :
    at? order data pos = some (plainAt tag payload pos) := by
  have hwords := h.left.left
  rw [at?, wordAt?_head hwords, Option.bind_eq_bind, Option.bind_some, wordAt?_head (at_tail hwords),
    Option.bind_some]
  simp only [htag]
  rfl

theorem at?_encodeForm (htag : tag.hasForm = true)
    (h : At data pos (encodeForm order tag form children)) :
    at? order data pos = some (formAt tag form children pos) := by
  have hwords := h.left
  have hform := wordAt?_head (at_tail (at_tail hwords))
  rw [Nat.add_assoc] at hform
  rw [at?, wordAt?_head hwords, Option.bind_eq_bind, Option.bind_some, wordAt?_head (at_tail hwords),
    Option.bind_some]
  simp only [htag, ↓reduceIte]
  rw [hform]
  rfl

/-! ### Payloads -/

theorem at_payload (h : At data pos (encode order tag payload)) : At data (pos + 8) payload := by
  have hpayload := h.left.right
  rwa [length_encodeWords] at hpayload

theorem at_children (h : At data pos (encodeForm order tag form children)) :
    At data (pos + 12) children := by
  have hchildren := h.right
  rwa [length_encodeWords] at hchildren

theorem size_plainAt (tag : Tag) (pos : Nat) (h : payload.length < UInt32.size) :
    (plainAt tag payload pos).size.toNat = payload.length :=
  UInt32.toNat_ofNat_of_lt' h

theorem size_formAt (tag form : Tag) (pos : Nat) (h : children.length < UInt32.size) :
    (formAt tag form children pos).size.toNat = children.length :=
  UInt32.toNat_ofNat_of_lt' h

theorem stop_plainAt (tag : Tag) (pos : Nat) (h : payload.length < UInt32.size) :
    (plainAt tag payload pos).stop = pos + 8 + payload.length := by
  rw [stop, size_plainAt tag pos h]
  rfl

theorem stop_formAt (tag form : Tag) (pos : Nat) (h : children.length < UInt32.size) :
    (formAt tag form children pos).stop = pos + 12 + children.length := by
  rw [stop, size_formAt tag form pos h]
  rfl

theorem finish_plainAt (order : ByteOrder) (tag : Tag) (pos : Nat)
    (h : payload.length < UInt32.size) :
    (plainAt tag payload pos).finish = pos + (encode order tag payload).length := by
  rw [finish, paddedSize, size_plainAt tag pos h, length_encode, offset_plainAt]
  omega

/-- A chunk around whole chunks, which have even lengths, needs no pad byte. -/
theorem finish_formAt (order : ByteOrder) (tag form : Tag) (pos : Nat)
    (h : children.length < UInt32.size) (heven : children.length % 2 = 0) :
    (formAt tag form children pos).finish = pos + (encodeForm order tag form children).length := by
  rw [finish, paddedSize, size_formAt tag form pos h, length_encodeForm, offset_formAt]
  omega

theorem start_plainAt (htag : tag.hasForm = false) : (plainAt tag payload pos).start = pos := by
  simp [start, headerLength, hasForm, plainAt, htag]

theorem start_formAt (htag : tag.hasForm = true) : (formAt tag form children pos).start = pos := by
  simp [start, headerLength, hasForm, formAt, htag]

theorem headerFits_of_le {pos limit : Nat} (h : pos + 8 ≤ limit) : headerFits pos limit = true :=
  decide_eq_true (Nat.le_trans (Nat.mod_le _ _) h)

theorem headerFits_self {limit : Nat} (hlimit : limit + 8 < UInt64.size) :
    headerFits limit limit = false := by
  rw [headerFits, Nat.mod_eq_of_lt hlimit]
  exact decide_eq_false (by omega)

end Chunk

namespace Stream

open Bytes (At)

variable {order : ByteOrder} (stream : Stream) {part : Bytes}

theorem outcome_take (activity : Activity) (h : At stream.data stream.pos part) :
    (take activity part.length).outcome stream = (.ok part, stream.seek (stream.pos + part.length)) := by
  simp only [take, Step.outcome_of]
  split
  · rename_i hempty
    rw [List.eq_nil_of_length_eq_zero hempty]
    rfl
  · rw [h.slice?]

theorem outcome_readWord_some {word : UInt32}
    (h : Chunk.wordAt? order stream.data stream.pos = some word) :
    (readWord order).outcome stream = (.ok word, stream.seek (stream.pos + 4)) := by
  obtain ⟨part, hslice, rfl⟩ := Option.map_eq_some_iff.mp h
  simp only [readWord, Step.outcome_bind, take, Step.outcome_of, hslice]
  rfl

theorem outcome_readWord_none (h : Chunk.wordAt? order stream.data stream.pos = none) :
    (readWord order).outcome stream =
      (.error (.io .readingWord .endOfData), stream.seek stream.data.length) := by
  have hslice : stream.data.slice? stream.pos 4 = none := Option.map_eq_none_iff.mp h
  simp only [readWord, Step.outcome_bind, take, Step.outcome_of, hslice]
  rfl

theorem outcome_ensureAvailable {start count : Nat} (h : start + count ≤ stream.data.length) :
    (ensureAvailable start count).outcome stream = (.ok (), stream) := by
  have hend : ¬stream.data.length < rangeEnd start count := by
    rw [rangeEnd]
    omega
  simp only [ensureAvailable, Step.outcome_of, if_neg hend]

end Stream

namespace Chunk

open Bytes (At)

variable {order : ByteOrder} {payload : Bytes} {tag : Tag} {pos : Nat}

theorem outcome_readPayload (stream : Stream) (hsize : payload.length < UInt32.size)
    (h : At stream.data pos (encode order tag payload)) :
    (plainAt tag payload pos).readPayload.outcome stream =
      (.ok payload, stream.seek (pos + 8 + payload.length)) := by
  have hpayload := at_payload h
  have hroom := Stream.outcome_ensureAvailable stream hpayload.le
  have htake := Stream.outcome_take (stream.seek (pos + 8)) .readingPayload hpayload
  rw [readPayload, size_plainAt tag pos hsize, offset_plainAt, Step.outcome_bind_ok hroom]
  exact htake

end Chunk

end Playprint
