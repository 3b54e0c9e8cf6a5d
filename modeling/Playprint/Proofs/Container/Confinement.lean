import Playprint.Proofs.Container.Leaving

/-!
What a decoder looks at. The decoders of header, table of contents, media list and media entry read words
straight from the stream; the size that their chunk declares is consulted for the table, and for the data of a
media entry, but not for the words in front of that data. Main statement: a decoder that has answered stayed
inside its chunk exactly when the chunk is as large as what was decoded, and then no change of bytes outside
of it shows in the answer; when the chunk is smaller, the change of one byte behind it does.
-/

namespace Playprint

/-! ### Bytes that are the same in a range -/

namespace Bytes

variable {data other : Bytes} {first last : Nat}

/-- Data of the same length, with the same bytes in a range. -/
structure Unchanged (data other : Bytes) (first last : Nat) : Prop where
  length : other.length = data.length
  bytes : ∀ i, first ≤ i → i < last → other[i]? = data[i]?

theorem Unchanged.mono (h : Unchanged data other first last) {first' last' : Nat} (hfirst : first ≤ first')
    (hlast : last' ≤ last) : Unchanged data other first' last' :=
  ⟨h.length, fun i hi hi' => h.bytes i (by omega) (by omega)⟩

theorem Unchanged.slice? (h : Unchanged data other first last) {start count : Nat} (hfirst : first ≤ start)
    (hlast : start + count ≤ last) : other.slice? start count = data.slice? start count := by
  have hpart : (other.drop start).take count = (data.drop start).take count := by
    apply List.ext_getElem?
    intro i
    rw [List.getElem?_take, List.getElem?_take]
    split
    · rw [List.getElem?_drop, List.getElem?_drop]
      exact h.bytes _ (by omega) (by omega)
    · rfl
  rw [Bytes.slice?, hpart, ← Bytes.slice?]

/-- A part of the data after one of its bytes was replaced. -/
theorem slice?_set {part : Bytes} {start count : Nat} (i : Nat) (byte : UInt8)
    (h : data.slice? start count = some part) :
    Bytes.slice? (data.set (start + i) byte) start count = some (part.set i byte) := by
  have hset : ((data.set (start + i) byte).drop start).take count =
      ((data.drop start).take count).set i byte := by
    rw [List.drop_set, if_neg (by omega), Nat.add_sub_cancel_left, List.take_set]
  simp only [slice?] at h ⊢
  rw [hset, List.length_set]
  split at h
  · rename_i hlength
    cases h
    rw [if_pos hlength]
  · cases h

end Bytes

open Bytes (Unchanged)

/-- The last byte of a word can be told from the word and its other bytes. -/
theorem ByteOrder.last_of_word {order : ByteOrder} {a b c d d' : UInt8}
    (h : order.word [a, b, c, d] = order.word [a, b, c, d']) : d = d' := by
  have ha := a.toNat_lt
  have hb := b.toNat_lt
  have hc := c.toNat_lt
  have hd := d.toNat_lt
  have hd' := d'.toNat_lt
  have hvalue := congrArg UInt32.toNat h
  rw [← UInt8.toNat_inj]
  cases order <;>
    simp only [ByteOrder.word, ByteOrder.value, UInt32.toNat_ofNat', List.reverse_cons, List.reverse_nil,
      List.nil_append, List.cons_append, ByteOrder.littleValue] at hvalue <;>
    omega

namespace Chunk

variable {order : ByteOrder} {data other : Bytes} {first last pos limit : Nat} {chunk : Chunk}
  {verdict : Chunk → Verdict}

theorem wordAt?_unchanged (h : Unchanged data other first last) (hfirst : first ≤ pos)
    (hlast : pos + 4 ≤ last) : wordAt? order other pos = wordAt? order data pos := by
  rw [wordAt?, h.slice? hfirst hlast, ← wordAt?]

theorem at?_unchanged (h : Unchanged data other first last) (hfirst : first ≤ pos)
    (hat : at? order data pos = some chunk) (hlast : chunk.offset ≤ last) :
    at? order other pos = some chunk := by
  simp only [at?, bind, Option.bind_eq_some_iff] at hat ⊢
  obtain ⟨tag, htag, size, hsize, hat⟩ := hat
  have hwords : pos + 8 ≤ last ∧
      ((Tag.mk tag).hasForm → wordAt? order other (pos + 8) = wordAt? order data (pos + 8)) := by
    split at hat
    · obtain ⟨form, _, hchunk⟩ := Option.bind_eq_some_iff.mp hat
      cases hchunk
      change pos + 12 ≤ last at hlast
      exact ⟨by omega, fun _ => wordAt?_unchanged h (by omega) (by omega)⟩
    · rename_i hform
      cases hat
      exact ⟨hlast, fun hform' => absurd hform' hform⟩
  refine ⟨tag, (wordAt?_unchanged h hfirst (by omega)).trans htag, size,
    (wordAt?_unchanged h (by omega) (by omega)).trans hsize, ?_⟩
  by_cases hform : (Tag.mk tag).hasForm
  · rw [if_pos hform, hwords.2 hform]
    rwa [if_pos hform] at hat
  · rw [if_neg hform]
    rwa [if_neg hform] at hat

theorem le_offset_of_walk (h : walk order data limit verdict pos = .found chunk) : pos ≤ chunk.offset := by
  fun_induction walk order data limit verdict pos with
  | case1 => cases h
  | case2 pos hfits found hat hverdict =>
      cases h
      have hoffset := (offset_of_at? hat).1
      omega
  | case3 => cases h
  | case4 pos hfits skipped hat hverdict ih =>
      have hoffset := (offset_of_at? hat).1
      have hfinish := skipped.offset_le_finish
      have hlater := ih h
      omega
  | case5 => cases h

/-- A walk depends on no byte behind the header of what it finds. -/
theorem walk_unchanged (hsame : Unchanged data other first last)
    (h : walk order data limit verdict pos = .found chunk) (hfirst : first ≤ pos)
    (hlast : chunk.offset ≤ last) : walk order other limit verdict pos = .found chunk := by
  fun_induction walk order data limit verdict pos with
  | case1 => cases h
  | case2 pos hfits found hat hverdict =>
      cases h
      exact Container.walk_found hfits (at?_unchanged hsame hfirst hat hlast) hverdict
  | case3 => cases h
  | case4 pos hfits skipped hat hverdict ih =>
      have hoffset := (offset_of_at? hat).1
      have hfinish := skipped.offset_le_finish
      have hlater := le_offset_of_walk h
      rw [walk_of_at? hfits (at?_unchanged hsame hfirst hat (by omega)), hverdict]
      exact ih h (by omega)
  | case5 => cases h

/-- A word becomes another one when its last byte does. -/
theorem exists_other_word {word : UInt32} (h : wordAt? order data pos = some word) :
    ∃ other, Unchanged data other 0 (pos + 3) ∧ wordAt? order other pos ≠ some word := by
  obtain ⟨part, hpart, hword⟩ := Option.map_eq_some_iff.mp h
  have hlength := Bytes.length_of_slice? hpart
  match part, hlength with
  | [a, b, c, d], _ =>
      refine ⟨data.set (pos + 3) (d + 1), ⟨List.length_set, fun i _ hi => ?_⟩, fun hsame => ?_⟩
      · exact List.getElem?_set_ne (by omega)
      · rw [wordAt?, Bytes.slice?_set 3 (d + 1) hpart, Option.map_some, ← hword] at hsame
        have hbyte := congrArg UInt8.toNat (ByteOrder.last_of_word (Option.some.inj hsame))
        have hd := d.toNat_lt
        rw [UInt8.toNat_add] at hbyte
        have hone : (1 : UInt8).toNat = 1 := rfl
        omega

end Chunk

/-! ### Steps that read forward -/

namespace Container

variable {α β : Type} {container left : Container}

/-- The container over other data, at the same position, with another media list open. -/
def altered (other : Bytes) (list : Option Chunk) (container : Container) : Container :=
  { container with stream := ⟨other, container.stream.pos⟩, mediaList := list }

/-- A step whose success hangs on the bytes it passes over, and on nothing else in the data. It does not look
at the media list that is open. -/
def Forward (step : ContainerStep α) : Prop :=
  ∀ container left a, step.outcome container = (.ok a, left) →
    left.stream.data = container.stream.data ∧ container.stream.pos ≤ left.stream.pos ∧
    ∀ other list, Unchanged container.stream.data other container.stream.pos left.stream.pos →
      step.outcome (container.altered other list) = (.ok a, left.altered other list)

namespace Forward

theorem pure (a : α) : Forward (Pure.pure a : ContainerStep α) := by
  rintro container left b ⟨⟩
  exact ⟨rfl, Nat.le_refl _, fun _ _ _ => rfl⟩

theorem throw (e : FormatError) : Forward (MonadExcept.throw e : ContainerStep α) := by
  rintro container left a ⟨⟩

/-- Nothing is asked of what would follow a failure. -/
theorem throw_bind (e : FormatError) (next : α → ContainerStep β) :
    Forward (MonadExcept.throw e >>= next) := by
  rintro container left b ⟨⟩

theorem ofExcept (answer : Except FormatError α) : Forward (Step.ofExcept answer) := by
  intro container left a h
  rw [Step.outcome_ofExcept, Prod.mk.injEq] at h
  obtain ⟨rfl, rfl⟩ := h
  exact ⟨rfl, Nat.le_refl _, fun _ _ _ => rfl⟩

theorem modify {f : Container → Container} (hstream : ∀ container, (f container).stream = container.stream)
    (hsame : ∀ container other list, f (container.altered other list) = (f container).altered other list) :
    Forward (modify f : ContainerStep PUnit) := by
  rintro container left a ⟨⟩
  refine ⟨congrArg Stream.data (hstream _), Nat.le_of_eq (congrArg Stream.pos (hstream _)).symm, ?_⟩
  intro other list _
  rw [Step.outcome_modify, hsame]

theorem bind {first : ContainerStep α} {next : α → ContainerStep β} (hfirst : Forward first)
    (hnext : ∀ a, Forward (next a)) : Forward (first >>= next) := by
  intro container left b h
  obtain ⟨a, mid, hmid, hleft⟩ := Step.outcome_bind_eq_ok_iff.mp h
  obtain ⟨hdata, hpos, hsame⟩ := hfirst _ _ _ hmid
  obtain ⟨hdata', hpos', hsame'⟩ := hnext a _ _ _ hleft
  refine ⟨hdata'.trans hdata, Nat.le_trans hpos hpos', fun other list hunchanged => ?_⟩
  rw [Step.outcome_bind_ok (hsame other list (hunchanged.mono (Nat.le_refl _) hpos'))]
  refine hsame' other list ?_
  rw [hdata]
  exact hunchanged.mono hpos (Nat.le_refl _)

/-- What follows a look at the container may depend on neither its data nor its media list. -/
theorem get_bind {next : Container → ContainerStep β}
    (hsame : ∀ container other list, next (container.altered other list) = next container)
    (hnext : ∀ container, Forward (next container)) : Forward (MonadState.get >>= next) := by
  intro container left b h
  rw [Step.outcome_bind_ok (Step.outcome_get _)] at h
  obtain ⟨hdata, hpos, hrun⟩ := hnext container _ _ _ h
  refine ⟨hdata, hpos, fun other list hunchanged => ?_⟩
  rw [Step.outcome_bind_ok (Step.outcome_get _), hsame]
  exact hrun other list hunchanged

theorem times {step : ContainerStep α} (h : Forward step) (count : Nat) : Forward (step.times count) := by
  induction count with
  | zero => exact .pure _
  | succ count ih => exact h.bind fun _ => ih.bind fun _ => .pure _

end Forward

theorem outcome_take_ok_iff (container : Container) (pos : Nat) {activity : Activity} {count : Nat}
    {part : Bytes} :
    (onStream (Stream.take activity count)).outcome (container.moved pos) = (.ok part, left) ↔
      container.stream.data.slice? pos count = some part ∧ left = container.moved (pos + count) := by
  simp only [onStream, Step.outcome_on, Stream.take, Step.outcome_of, moved, Stream.seek]
  by_cases hcount : count = 0
  · subst hcount
    have hempty : container.stream.data.slice? pos 0 = some [] := rfl
    simp only [if_pos, hempty, Prod.mk.injEq, Except.ok.injEq, Option.some.injEq]
    exact and_congr_right fun _ => eq_comm
  · simp only [if_neg hcount]
    cases container.stream.data.slice? pos count with
    | none => simp
    | some found =>
        simp only [Prod.mk.injEq, Except.ok.injEq, Option.some.injEq]
        exact and_congr_right fun _ => eq_comm

theorem outcome_readWord_ok_iff (container : Container) (pos : Nat) {word : UInt32} :
    readWord.outcome (container.moved pos) = (.ok word, left) ↔
      Chunk.wordAt? container.order container.stream.data pos = some word ∧
        left = container.moved (pos + 4) := by
  cases hword : Chunk.wordAt? container.order container.stream.data pos with
  | none =>
      rw [outcome_readWord_none hword]
      simp
  | some found =>
      rw [outcome_readWord_some hword]
      simp only [Prod.mk.injEq, Except.ok.injEq, Option.some.injEq]
      exact and_congr_right fun _ => eq_comm

/-- What follows a word goes on behind it. -/
theorem readWord_bind_ok {container : Container} {pos : Nat} {next : UInt32 → ContainerStep α} {a : α}
    (h : (readWord >>= next).outcome (container.moved pos) = (.ok a, left)) :
    ∃ word, Chunk.wordAt? container.order container.stream.data pos = some word ∧
      (next word).outcome (container.moved (pos + 4)) = (.ok a, left) := by
  obtain ⟨word, _, hread, hnext⟩ := Step.outcome_bind_eq_ok_iff.mp h
  obtain ⟨hword, rfl⟩ := (outcome_readWord_ok_iff container pos).mp hread
  exact ⟨word, hword, hnext⟩

theorem outcome_ensureAvailable_ok_iff {start count : Nat} :
    (onStream (Stream.ensureAvailable start count)).outcome container = (.ok (), left) ↔
      Stream.rangeEnd start count ≤ container.stream.data.length ∧ left = container := by
  simp only [onStream, Step.outcome_on, Stream.ensureAvailable, Step.outcome_of]
  split
  · rename_i hshort
    simp [Nat.not_le.mpr hshort]
  · rename_i hroom
    simp only [Nat.le_of_not_lt hroom, true_and, Prod.mk.injEq]
    exact eq_comm

theorem forward_readWord : Forward readWord := by
  intro container left word h
  obtain ⟨hword, rfl⟩ := (outcome_readWord_ok_iff container container.stream.pos).mp h
  refine ⟨rfl, Nat.le_add_right _ 4, fun other list hunchanged => ?_⟩
  have hother := (Chunk.wordAt?_unchanged hunchanged (Nat.le_refl _) (Nat.le_refl _)).trans hword
  exact (outcome_readWord_ok_iff (container.altered other list) _).mpr ⟨hother, rfl⟩

theorem forward_take (activity : Activity) (count : Nat) :
    Forward (onStream (Stream.take activity count)) := by
  intro container left part h
  obtain ⟨hpart, rfl⟩ := (outcome_take_ok_iff container container.stream.pos).mp h
  refine ⟨rfl, Nat.le_add_right _ count, fun other list hunchanged => ?_⟩
  have hother := (hunchanged.slice? (Nat.le_refl _) (Nat.le_refl _)).trans hpart
  exact (outcome_take_ok_iff (container.altered other list) _).mpr ⟨hother, rfl⟩

theorem forward_ensureAvailable (start count : Nat) :
    Forward (onStream (Stream.ensureAvailable start count)) := by
  rintro container left ⟨⟩ h
  obtain ⟨hroom, rfl⟩ := outcome_ensureAvailable_ok_iff.mp h
  refine ⟨rfl, Nat.le_refl _, fun other list hunchanged => ?_⟩
  exact outcome_ensureAvailable_ok_iff.mpr ⟨hunchanged.length ▸ hroom, rfl⟩

theorem forward_pendingTable : Forward pendingTable := by
  refine .get_bind (fun _ _ _ => rfl) fun container => ?_
  split
  · exact .pure _
  · exact .throw _

theorem forward_beginToc (reserved : Nat) : Forward (beginToc reserved) :=
  (Forward.ofExcept _).bind fun _ => .modify (fun _ => rfl) fun _ _ _ => rfl

theorem forward_readTocEntry : Forward readTocEntry := by
  refine forward_readWord.bind fun label => forward_readWord.bind fun offset =>
    forward_pendingTable.bind fun _ => (Forward.ofExcept _).bind fun ⟨index, toc⟩ => ?_
  exact Forward.bind (.modify (fun _ => rfl) fun _ _ _ => rfl) fun _ => .pure _

theorem forward_endToc : Forward endToc :=
  forward_pendingTable.bind fun _ =>
    Forward.bind (.modify (fun _ => rfl) fun _ _ _ => rfl) fun _ => .pure _

/-- What is read of the leading chunk of a media list. -/
def decodeInfo : ContainerStep MediaInfo := do
  let flags ← readWord
  let typeIndex ← readWord
  let count ← readWord
  return { flags, typeIndex, count }

theorem forward_decodeHeader : Forward decodeHeader :=
  forward_readWord.bind fun _ => forward_readWord.bind fun _ => .pure _

theorem forward_decodeInfo : Forward decodeInfo :=
  forward_readWord.bind fun _ => forward_readWord.bind fun _ => forward_readWord.bind fun _ => .pure _

theorem forward_decodeToc (chunk : Chunk) : Forward (decodeToc chunk) := by
  refine forward_readWord.bind fun count => ?_
  dsimp only
  split
  · exact .throw_bind _ _
  · exact (forward_beginToc _).bind fun _ => (forward_readTocEntry.times _).bind fun _ => forward_endToc

theorem forward_decodeMedia (chunk : Chunk) : Forward (decodeMedia chunk) := by
  refine forward_readWord.bind fun _ => forward_readWord.bind fun _ => forward_readWord.bind fun _ => ?_
  dsimp only
  split
  · exact .throw_bind _ _
  · exact (forward_ensureAvailable _ _).bind fun _ => (forward_take _ _).bind fun _ => .pure _

/-! ### How far the decoders read -/

theorem decodeHeader_ok {pos : Nat} {header : Header}
    (h : decodeHeader.outcome (container.moved pos) = (.ok header, left)) :
    left = container.moved (pos + 8) ∧ pos + 8 ≤ container.stream.data.length ∧
      Chunk.wordAt? container.order container.stream.data (pos + 4) = some header.date := by
  obtain ⟨version, _, h⟩ := readWord_bind_ok h
  obtain ⟨date, hword, h⟩ := readWord_bind_ok h
  cases h
  exact ⟨rfl, Chunk.le_of_wordAt? hword, hword⟩

theorem decodeInfo_ok {pos : Nat} {info : MediaInfo}
    (h : decodeInfo.outcome (container.moved pos) = (.ok info, left)) :
    left = container.moved (pos + 12) ∧ pos + 12 ≤ container.stream.data.length ∧
      Chunk.wordAt? container.order container.stream.data (pos + 8) = some info.count := by
  obtain ⟨flags, _, h⟩ := readWord_bind_ok h
  obtain ⟨typeIndex, _, h⟩ := readWord_bind_ok h
  obtain ⟨count, hword, h⟩ := readWord_bind_ok h
  cases h
  exact ⟨rfl, Chunk.le_of_wordAt? hword, hword⟩

/-- The data of a media entry is no longer than the room that the chunk leaves behind the three words in front
of it, which is none for a chunk that is shorter than they are. -/
theorem decodeMedia_ok {pos : Nat} {chunk : Chunk} {media : Media}
    (h : (decodeMedia chunk).outcome (container.moved pos) = (.ok media, left)) :
    left = container.moved (pos + (12 + media.data.length)) ∧
      pos + (12 + media.data.length) ≤ container.stream.data.length ∧
      media.data.length ≤ chunk.size.toNat - 12 ∧
      ∃ size, Chunk.wordAt? container.order container.stream.data (pos + 8) = some size ∧
        media.data.length = size.toNat := by
  obtain ⟨flags, _, h⟩ := readWord_bind_ok h
  obtain ⟨mediaType, _, h⟩ := readWord_bind_ok h
  obtain ⟨size, hword, h⟩ := readWord_bind_ok h
  dsimp only at h
  split at h
  · cases h
  rename_i hroom
  obtain ⟨_, _, hcheck, h⟩ := Step.outcome_bind_eq_ok_iff.mp h
  obtain ⟨_, rfl⟩ := outcome_ensureAvailable_ok_iff.mp hcheck
  obtain ⟨data, _, hdata, h⟩ := Step.outcome_bind_eq_ok_iff.mp h
  obtain ⟨hslice, rfl⟩ := (outcome_take_ok_iff _ _).mp hdata
  cases h
  have hlength := Bytes.length_of_slice? hslice
  have hwords := Chunk.le_of_wordAt? hword
  dsimp only
  refine ⟨?_, ?_, by omega, size, hword, hlength⟩
  · rw [hlength, ← Nat.add_assoc]
  · by_cases hempty : size.toNat = 0
    · omega
    · have hle := Bytes.le_of_slice? (by omega) hslice
      omega

/-- An entry is appended to the table under construction. -/
theorem readTocEntry_ok {index : UInt32} (h : readTocEntry.outcome container = (.ok index, left)) :
    container.stream.pos + 8 ≤ container.stream.data.length ∧
      left.stream = container.stream.seek (container.stream.pos + 8) ∧
      ∃ before after, container.pendingToc = some before ∧ left.pendingToc = some after ∧
        after.size = before.size + 1 := by
  change readTocEntry.outcome (container.moved container.stream.pos) = (.ok index, left) at h
  obtain ⟨label, _, h⟩ := readWord_bind_ok h
  obtain ⟨offset, hword, h⟩ := readWord_bind_ok h
  obtain ⟨before, _, hbefore, h⟩ := Step.outcome_bind_eq_ok_iff.mp h
  rw [pendingTable, Step.outcome_bind_ok (Step.outcome_get _)] at hbefore
  split at hbefore
  · rename_i toc hpending
    cases hbefore
    obtain ⟨⟨index, after⟩, _, hadd, h⟩ := Step.outcome_bind_eq_ok_iff.mp h
    rw [Step.outcome_ofExcept, Prod.mk.injEq, Toc.add] at hadd
    obtain ⟨hadd, rfl⟩ := hadd
    split at hadd
    · cases hadd
      cases h
      exact ⟨Chunk.le_of_wordAt? hword, rfl, _, _, hpending, rfl, Array.size_push _⟩
    · cases hadd
  · cases hbefore

/-- As many entries are appended as there are turns. -/
theorem times_readTocEntry_ok (container : Container) {count : Nat} {indices : List UInt32} {before : Toc}
    (hlength : container.stream.pos ≤ container.stream.data.length)
    (hpending : container.pendingToc = some before)
    (h : (Step.times readTocEntry count).outcome container = (.ok indices, left)) :
    container.stream.pos + 8 * count ≤ container.stream.data.length ∧
      left.stream = container.stream.seek (container.stream.pos + 8 * count) ∧
      ∃ after, left.pendingToc = some after ∧ after.size = before.size + count := by
  induction count generalizing container before indices with
  | zero =>
      cases h
      exact ⟨hlength, rfl, before, hpending, rfl⟩
  | succ count ih =>
      obtain ⟨index, mid, hentry, h⟩ := Step.outcome_bind_eq_ok_iff.mp h
      obtain ⟨rest, last, hrest, h⟩ := Step.outcome_bind_eq_ok_iff.mp h
      cases h
      obtain ⟨hle, hmid, was, next, hwas, hnext, hsize⟩ := readTocEntry_ok hentry
      cases hpending.symm.trans hwas
      have hpos : mid.stream.pos = container.stream.pos + 8 := congrArg Stream.pos hmid
      have hdata : mid.stream.data.length = container.stream.data.length :=
        congrArg (fun stream => stream.data.length) hmid
      obtain ⟨hle', hleft, after, hafter, hcount⟩ := ih mid (by omega) hnext hrest
      have hend : mid.stream.pos + 8 * count = container.stream.pos + 8 * (count + 1) := by omega
      refine ⟨by omega, ?_, after, hafter, by omega⟩
      rw [hleft, hend, hmid]
      rfl

/-- A table of contents is no longer than its chunk. -/
theorem decodeToc_ok {pos count : Nat} {chunk : Chunk}
    (h : (decodeToc chunk).outcome (container.moved pos) = (.ok count, left)) :
    left.stream = container.stream.seek (pos + (4 + 8 * count)) ∧
      pos + (4 + 8 * count) ≤ container.stream.data.length ∧ 4 + 8 * count ≤ chunk.size.toNat := by
  obtain ⟨declared, hword, h⟩ := readWord_bind_ok h
  have hle := Chunk.le_of_wordAt? hword
  dsimp only at h
  split at h
  · cases h
  rename_i hroom
  obtain ⟨_, begun, hbegin, h⟩ := Step.outcome_bind_eq_ok_iff.mp h
  obtain ⟨indices, filled, hentries, h⟩ := Step.outcome_bind_eq_ok_iff.mp h
  obtain ⟨table, last, htable, h⟩ := Step.outcome_bind_eq_ok_iff.mp h
  by_cases hempty : declared.toNat = 0
  · rw [beginToc, Toc.withRoom, if_pos hempty] at hbegin
    cases hbegin
  rw [outcome_beginToc container (pos + 4) hempty] at hbegin
  cases hbegin
  obtain ⟨hle', hfilled, after, hafter, hsize⟩ := times_readTocEntry_ok
    ((container.withPending ⟨declared.toNat, #[]⟩).moved (pos + 4)) hle rfl hentries
  rw [pendingTable, Step.outcome_bind_ok (Step.outcome_get _), hafter] at htable
  have hanswer : count = after.size ∧ left.stream = filled.stream := by
    cases htable
    cases h
    exact ⟨rfl, rfl⟩
  have hcount : after.size = declared.toNat := hsize.trans (Nat.zero_add _)
  have hend : pos + (4 + 8 * count) = pos + 4 + 8 * declared.toNat := by omega
  rw [hanswer.2, hfilled, hend]
  exact ⟨rfl, hle', by omega⟩

/-! ### The chunks that decoders enter -/

/-- The chunk whose header is next in the stream, if it has a tag. -/
def Next (container : Container) (tag : Tag) (chunk : Chunk) : Prop :=
  Chunk.at? container.order container.stream.data container.stream.pos = some chunk ∧ chunk.tag = tag

theorem Next.unchanged {tag : Tag} {chunk : Chunk} {other : Bytes} {list : Option Chunk}
    (h : container.Next tag chunk)
    (hsame : Unchanged container.stream.data other container.stream.pos chunk.offset) :
    (container.altered other list).Next tag chunk :=
  ⟨Chunk.at?_unchanged hsame (Nat.le_refl _) h.1 (Nat.le_refl _), h.2⟩

theorem Next.unique {tag : Tag} {chunk other : Chunk} (h : container.Next tag chunk)
    (hother : container.Next tag other) : chunk = other :=
  Option.some.inj (h.1.symm.trans hother.1)

theorem outcome_expectNext_ok_iff {expected : Tag} {chunk : Chunk} :
    (expectNext expected).outcome container = (.ok chunk, left) ↔
      container.Next expected chunk ∧ left = container.moved chunk.offset := by
  constructor
  · intro h
    obtain ⟨found, mid, hfound, h⟩ := Step.outcome_bind_eq_ok_iff.mp h
    obtain ⟨stream, hheader, rfl⟩ := outcome_descend_eq_ok_iff.mp hfound
    obtain ⟨hat, rfl⟩ := Chunk.readHeader_ok hheader
    split at h
    · rename_i htag
      cases h
      exact ⟨⟨hat, htag⟩, rfl⟩
    · cases h
  · rintro ⟨⟨hat, htag⟩, rfl⟩
    exact outcome_expectNext expected htag hat

theorem outcome_reading_ok_iff {expected : Tag} {body : Chunk → ContainerStep α} {a : α} :
    (reading expected body).outcome container = (.ok a, left) ↔
      ∃ chunk inner, container.Next expected chunk ∧
        (body chunk).outcome (container.moved chunk.offset) = (.ok a, inner) ∧
        left = inner.moved chunk.finish := by
  rw [reading, Step.outcome_bind_eq_ok_iff]
  constructor
  · rintro ⟨chunk, _, hexpect, h⟩
    obtain ⟨hnext, rfl⟩ := outcome_expectNext_ok_iff.mp hexpect
    obtain ⟨inner, hbody, hleft⟩ := Step.outcome_closing_ok h
    cases hleft
    exact ⟨chunk, inner, hnext, hbody, rfl⟩
  · rintro ⟨chunk, inner, hnext, hbody, rfl⟩
    exact ⟨chunk, _, outcome_expectNext_ok_iff.mpr ⟨hnext, rfl⟩, outcome_inside chunk hbody⟩

/-- What is read by a table entry is the payload of the chunk that the entry points at. -/
theorem readChunkAt_ok {index : Nat} {expected : Tag} {payload : Bytes}
    (h : ((readChunkAt index expected).outcome container).1 = .ok payload) :
    ∃ start chunk, container.entryOffset index = .ok start ∧
      Chunk.at? container.order container.stream.data start = some chunk ∧ chunk.tag = expected ∧
      chunk.stop ≤ container.stream.data.length ∧ payload = chunk.payloadIn container.stream.data := by
  obtain ⟨start, _, hentry, hread⟩ := Step.outcome_bind_eq_ok_iff.mp (Prod.ext h rfl)
  rw [tocOffset_eq] at hentry
  obtain ⟨hstart, rfl⟩ := Prod.mk.inj hentry
  rw [Step.outcome_bind_ok (outcome_goto start container)] at hread
  obtain ⟨chunk, _, hnext, hbody, _⟩ := outcome_reading_ok_iff.mp hread
  rw [onStream, Step.outcome_on] at hbody
  obtain ⟨hanswer, _⟩ := Prod.mk.inj hbody
  have hpayload := Chunk.readPayload_ok (Prod.ext hanswer rfl) (Chunk.offset_of_at? hnext.1).2
  exact ⟨start, chunk, hstart, hnext.1, hnext.2, hpayload⟩

theorem outcome_openedForm_ok_iff {form : Chunk} :
    openedForm.outcome container = (.ok form, left) ↔ container.form = some form ∧ left = container := by
  cases hform : container.form with
  | none =>
      rw [outcome_openedForm_none hform]
      simp
  | some found =>
      rw [show openedForm.outcome container = _ from outcome_openedForm container.stream.pos hform]
      simp only [Prod.mk.injEq, Except.ok.injEq, Option.some.injEq]
      exact and_congr_right fun _ => eq_comm

theorem beginMediaList_eq : beginMediaList = (do
    let list ← expectNext Tag.list
    if list.form ≠ Tag.mrfl then
      ascend list
      throw (.unexpectedChunk Tag.mrfl list.form)
    modify fun container => { container with mediaList := some list }
    let chunk ← descend (.child Tag.info) (some list)
    inside chunk decodeInfo) := rfl

end Container

/-! ### Decoders -/

/-- What takes an answer from the words of a payload. -/
inductive Decoder
  | header
  | toc
  | info
  | media

namespace Decoder

/-- The type of what is answered. -/
abbrev Answer : Decoder → Type
  | header => Header
  | toc => Nat
  | info => MediaInfo
  | media => Media

def run : (decoder : Decoder) → ContainerStep decoder.Answer
  | header => Container.readHeader
  | toc => Container.readToc
  | info => Container.beginMediaList
  | media => Container.readMedia

/-- What is done inside the chunk. -/
def body : (decoder : Decoder) → Chunk → ContainerStep decoder.Answer
  | header, _ => Container.decodeHeader
  | toc, chunk => Container.decodeToc chunk
  | info, _ => Container.decodeInfo
  | media, chunk => Container.decodeMedia chunk

/-- How many bytes from the start of the payload on an answer is decoded from. -/
def needed : (decoder : Decoder) → decoder.Answer → Nat
  | header, _ => 8
  | toc, count => 4 + 8 * count
  | info, _ => 12
  | media, entry => 12 + entry.data.length

/-- What a decoder has made sure of about the size of its chunk. -/
def Checks : (decoder : Decoder) → decoder.Answer → Chunk → Prop
  | header, _, _ | info, _, _ => True
  | toc, count, chunk => 4 + 8 * count ≤ chunk.size.toNat
  | media, entry, chunk => entry.data.length ≤ chunk.size.toNat - 12

/-- The chunk that a decoder enters, with the media list that is open then: the next one, or, when a media
list is begun, the `info` chunk inside the next one. -/
def Enters (decoder : Decoder) (container : Container) (chunk : Chunk) (list : Option Chunk) : Prop :=
  match decoder with
  | header => container.form ≠ none ∧ container.Next Tag.hdr chunk ∧ list = container.mediaList
  | toc => container.form ≠ none ∧ container.Next Tag.toc chunk ∧ list = container.mediaList
  | media => (∃ parent, container.mediaList = some parent ∧
      Chunk.headerFits container.stream.pos parent.stop = true) ∧
      container.Next Tag.mref chunk ∧ list = container.mediaList
  | info => ∃ parent, container.Next Tag.list parent ∧ parent.form = Tag.mrfl ∧ list = some parent ∧
      Chunk.walk container.order container.stream.data parent.stop
        (Chunk.childVerdict parent.stop (·.tag == Tag.info)) parent.offset = .found chunk

/-- The chunk from which a decoder answers. -/
def Names (decoder : Decoder) (container : Container) (chunk : Chunk) : Prop :=
  ∃ list, decoder.Enters container chunk list

/-- What the container keeps of an answer. -/
def install : (decoder : Decoder) → decoder.Answer → Container → Container
  | header, found, container => container.withHeader found
  | toc, _, container | info, _, container | media, _, container => container

variable {decoder : Decoder} {container left : Container} {chunk : Chunk} {list : Option Chunk}
  {other : Bytes}

theorem forward_body (decoder : Decoder) (chunk : Chunk) : Container.Forward (decoder.body chunk) := by
  cases decoder with
  | header => exact Container.forward_decodeHeader
  | toc => exact Container.forward_decodeToc chunk
  | info => exact Container.forward_decodeInfo
  | media => exact Container.forward_decodeMedia chunk

/-- A decoder that answers has entered a chunk and answers what it has done inside. -/
theorem enters_of_run {answer : decoder.Answer} (h : decoder.run.outcome container = (.ok answer, left)) :
    ∃ chunk list inner, decoder.Enters container chunk list ∧
      (decoder.body chunk).outcome ((container.altered container.stream.data list).moved chunk.offset) =
        (.ok answer, inner) ∧
      left = (decoder.install answer inner).moved chunk.finish := by
  cases decoder with
  | header =>
      rw [run, Container.readHeader_eq] at h
      obtain ⟨form, _, hopen, hrest⟩ := Step.outcome_bind_eq_ok_iff.mp h
      obtain ⟨hform, rfl⟩ := Container.outcome_openedForm_ok_iff.mp hopen
      obtain ⟨found, _, hread, hinstall⟩ := Step.outcome_bind_eq_ok_iff.mp hrest
      obtain ⟨chunk, inner, hnext, hbody, rfl⟩ := Container.outcome_reading_ok_iff.mp hread
      cases hinstall
      exact ⟨chunk, _, inner, ⟨Option.ne_none_iff_exists'.mpr ⟨form, hform⟩, hnext, rfl⟩, hbody, rfl⟩
  | toc =>
      rw [run, Container.readToc_eq] at h
      obtain ⟨form, _, hopen, hread⟩ := Step.outcome_bind_eq_ok_iff.mp h
      obtain ⟨hform, rfl⟩ := Container.outcome_openedForm_ok_iff.mp hopen
      obtain ⟨chunk, inner, hnext, hbody, rfl⟩ := Container.outcome_reading_ok_iff.mp hread
      exact ⟨chunk, _, inner, ⟨Option.ne_none_iff_exists'.mpr ⟨form, hform⟩, hnext, rfl⟩, hbody, rfl⟩
  | info =>
      rw [run, Container.beginMediaList_eq] at h
      obtain ⟨parent, _, hexpect, h⟩ := Step.outcome_bind_eq_ok_iff.mp h
      obtain ⟨hnext, rfl⟩ := Container.outcome_expectNext_ok_iff.mp hexpect
      by_cases hform : parent.form = Tag.mrfl
      · simp only [if_neg (not_not_intro hform)] at h
        obtain ⟨_, _, hmodify, h⟩ := Step.outcome_bind_eq_ok_iff.mp h
        cases hmodify
        obtain ⟨chunk, mid, hdescend, h⟩ := Step.outcome_bind_eq_ok_iff.mp h
        obtain ⟨inner, hbody, hleft⟩ := Step.outcome_closing_ok h
        cases hleft
        obtain ⟨stream, hseek, rfl⟩ := Container.outcome_descend_eq_ok_iff.mp hdescend
        obtain ⟨hwalk, rfl⟩ := Chunk.outcome_seekChild_eq_ok_iff.mp hseek
        exact ⟨chunk, some parent, inner, ⟨parent, hnext, hform, rfl, hwalk⟩, hbody, rfl⟩
      · simp only [if_pos hform] at h
        obtain ⟨_, _, _, h⟩ := Step.outcome_bind_eq_ok_iff.mp h
        cases h
  | media =>
      cases hlist : container.mediaList with
      | none =>
          rw [run, Container.readMedia,
            Step.outcome_bind_error (Container.outcome_openMediaList_none hlist)] at h
          cases h
      | some parent =>
          rw [run, Container.outcome_readMedia_eq hlist] at h
          split at h
          · rename_i hfits
            obtain ⟨chunk, inner, hnext, hbody, rfl⟩ := Container.outcome_reading_ok_iff.mp h
            exact ⟨chunk, _, inner, ⟨⟨parent, hlist, hfits⟩, hnext, rfl⟩, hbody, rfl⟩
          · cases h

/-- A decoder that enters a chunk answers what it does inside. -/
theorem run_of_enters {answer : decoder.Answer} {inner : Container}
    (henters : decoder.Enters container chunk list)
    (hbody : (decoder.body chunk).outcome
      ((container.altered container.stream.data list).moved chunk.offset) = (.ok answer, inner)) :
    decoder.run.outcome container = (.ok answer, (decoder.install answer inner).moved chunk.finish) := by
  cases decoder with
  | header =>
      obtain ⟨hopen, hnext, rfl⟩ := henters
      obtain ⟨form, hform⟩ := Option.ne_none_iff_exists'.mp hopen
      rw [run, Container.readHeader_eq,
        Step.outcome_bind_ok (Container.outcome_openedForm_ok_iff.mpr ⟨hform, rfl⟩)]
      exact Step.outcome_bind_ok
        (Container.outcome_reading_ok_iff.mpr ⟨chunk, inner, hnext, hbody, rfl⟩)
  | toc =>
      obtain ⟨hopen, hnext, rfl⟩ := henters
      obtain ⟨form, hform⟩ := Option.ne_none_iff_exists'.mp hopen
      rw [run, Container.readToc_eq,
        Step.outcome_bind_ok (Container.outcome_openedForm_ok_iff.mpr ⟨hform, rfl⟩)]
      exact Container.outcome_reading_ok_iff.mpr ⟨chunk, inner, hnext, hbody, rfl⟩
  | info =>
      obtain ⟨parent, hnext, hform, rfl, hwalk⟩ := henters
      have hseek : (Chunk.seekChild container.order parent Tag.info (·.tag == Tag.info)).outcome
          (container.stream.seek parent.offset) = (.ok chunk, container.stream.seek chunk.offset) :=
        Chunk.outcome_seekChild_eq_ok_iff.mpr ⟨hwalk, rfl⟩
      have hdescend : (Container.descend (.child Tag.info) (some parent)).outcome
          ((container.opened parent).moved parent.offset) =
            (.ok chunk, (container.opened parent).moved chunk.offset) :=
        Container.outcome_descend_eq_ok_iff.mpr ⟨_, hseek, rfl⟩
      rw [run, Container.beginMediaList_eq,
        Step.outcome_bind_ok (Container.outcome_expectNext_ok_iff.mpr ⟨hnext, rfl⟩)]
      simp only [if_neg (not_not_intro hform)]
      rw [Step.outcome_bind_ok (Step.outcome_modify _ _)]
      exact (Step.outcome_bind_ok hdescend).trans (Container.outcome_inside chunk hbody)
  | media =>
      obtain ⟨⟨parent, hlist, hfits⟩, hnext, rfl⟩ := henters
      rw [run, Container.outcome_readMedia_eq hlist, if_pos hfits]
      exact Container.outcome_reading_ok_iff.mpr ⟨chunk, inner, hnext, hbody, rfl⟩

/-- Which chunk is entered does not depend on what is behind its header. -/
theorem Enters.unchanged (h : decoder.Enters container chunk list)
    (hsame : Unchanged container.stream.data other container.stream.pos chunk.offset) :
    decoder.Enters (container.altered other container.mediaList) chunk list := by
  cases decoder with
  | header | toc | media =>
      obtain ⟨hopen, hnext, hlist⟩ := h
      exact ⟨hopen, hnext.unchanged hsame, hlist⟩
  | info =>
      obtain ⟨parent, hnext, hform, hlist, hwalk⟩ := h
      have hoffset := (Chunk.offset_of_at? hnext.1).1
      have hbehind := Chunk.le_offset_of_walk hwalk
      exact ⟨parent, hnext.unchanged (hsame.mono (Nat.le_refl _) hbehind), hform, hlist,
        Chunk.walk_unchanged hsame hwalk (by omega) (Nat.le_refl _)⟩

theorem Enters.unique {chunk' : Chunk} {list' : Option Chunk} (h : decoder.Enters container chunk list)
    (h' : decoder.Enters container chunk' list') : chunk = chunk' ∧ list = list' := by
  cases decoder with
  | header | toc | media =>
      obtain ⟨_, hnext, rfl⟩ := h
      obtain ⟨_, hnext', rfl⟩ := h'
      exact ⟨hnext.unique hnext', rfl⟩
  | info =>
      obtain ⟨parent, hnext, _, rfl, hwalk⟩ := h
      obtain ⟨parent', hnext', _, rfl, hwalk'⟩ := h'
      obtain rfl := hnext.unique hnext'
      exact ⟨Chunk.Walk.found.inj (hwalk.symm.trans hwalk'), rfl⟩

/-- A decoder stops where the bytes end that its answer is decoded from. -/
theorem body_ok {pos : Nat} {answer : decoder.Answer}
    (h : (decoder.body chunk).outcome (container.moved pos) = (.ok answer, left)) :
    left.stream.pos = pos + decoder.needed answer ∧
      pos + decoder.needed answer ≤ container.stream.data.length ∧ decoder.Checks answer chunk := by
  cases decoder with
  | header =>
      obtain ⟨rfl, hle, _⟩ := Container.decodeHeader_ok h
      exact ⟨rfl, hle, trivial⟩
  | toc =>
      obtain ⟨hleft, hle, hsize⟩ := Container.decodeToc_ok h
      exact ⟨congrArg Stream.pos hleft, hle, hsize⟩
  | info =>
      obtain ⟨rfl, hle, _⟩ := Container.decodeInfo_ok h
      exact ⟨rfl, hle, trivial⟩
  | media =>
      obtain ⟨rfl, hle, hsize, _⟩ := Container.decodeMedia_ok h
      exact ⟨rfl, hle, hsize⟩

/-- When the chunk is smaller than what was decoded, its last word is not all inside, and with another last
byte it is another word. -/
theorem body_changes {answer : decoder.Answer} (hshort : chunk.size.toNat < decoder.needed answer)
    (h : (decoder.body chunk).outcome (container.moved chunk.offset) = (.ok answer, left)) :
    ∃ other, Unchanged container.stream.data other 0 chunk.stop ∧
      ∀ list inner, (decoder.body chunk).outcome ((container.altered other list).moved chunk.offset) ≠
        (.ok answer, inner) := by
  have hstop : chunk.stop = chunk.offset + chunk.size.toNat := rfl
  cases decoder with
  | header =>
      change chunk.size.toNat < 8 at hshort
      obtain ⟨other, hsame, hother⟩ := Chunk.exists_other_word (Container.decodeHeader_ok h).2.2
      exact ⟨other, hsame.mono (Nat.le_refl _) (by omega), fun list inner hagain =>
        hother (Container.decodeHeader_ok hagain).2.2⟩
  | toc => exact absurd (Container.decodeToc_ok h).2.2 (Nat.not_le.mpr hshort)
  | info =>
      change chunk.size.toNat < 12 at hshort
      obtain ⟨other, hsame, hother⟩ := Chunk.exists_other_word (Container.decodeInfo_ok h).2.2
      exact ⟨other, hsame.mono (Nat.le_refl _) (by omega), fun list inner hagain =>
        hother (Container.decodeInfo_ok hagain).2.2⟩
  | media =>
      change chunk.size.toNat < 12 + answer.data.length at hshort
      obtain ⟨_, _, hroom, size, hword, hsize⟩ := Container.decodeMedia_ok h
      obtain ⟨other, hsame, hother⟩ := Chunk.exists_other_word hword
      refine ⟨other, hsame.mono (Nat.le_refl _) (by omega), fun list inner hagain => ?_⟩
      obtain ⟨_, _, _, size', hword', hsize'⟩ := Container.decodeMedia_ok hagain
      obtain rfl : size = size' := UInt32.toNat_inj.mp (hsize.symm.trans hsize')
      exact hother hword'

end Decoder

/-- A decoder that answers has decoded bytes of the data from the payload of the chunk that it names on. They
lie inside the payload exactly when the chunk is large enough, as that of a table of contents always is. Then
other bytes outside of the chunk, if it is still the one that is named, do not show; if the chunk is smaller,
there is a change behind it that does. -/
theorem decoders_confined (decoder : Decoder) {container left : Container} {answer : decoder.Answer}
    (h : decoder.run.outcome container = (.ok answer, left)) :
    ∃ chunk, decoder.Names container chunk ∧ decoder.Checks answer chunk ∧
      chunk.offset + decoder.needed answer ≤ container.stream.data.length ∧
      (∀ other, Unchanged container.stream.data other container.stream.pos chunk.offset →
        decoder.Names (container.altered other container.mediaList) chunk) ∧
      (decoder.needed answer ≤ chunk.size.toNat →
        ∀ other, Unchanged container.stream.data other chunk.start chunk.stop →
          decoder.Names (container.altered other container.mediaList) chunk →
          ∃ list, decoder.run.outcome (container.altered other container.mediaList) =
            (.ok answer, left.altered other list)) ∧
      (chunk.size.toNat < decoder.needed answer →
        ∃ other, Unchanged container.stream.data other 0 chunk.stop ∧
          decoder.Names (container.altered other container.mediaList) chunk ∧
          (decoder.run.outcome (container.altered other container.mediaList)).1 ≠ .ok answer) := by
  obtain ⟨chunk, list, inner, henters, hbody, rfl⟩ := Decoder.enters_of_run h
  obtain ⟨hpos, hle, hchecks⟩ := Decoder.body_ok hbody
  have hstop : chunk.stop = chunk.offset + chunk.size.toNat := rfl
  have hstart : chunk.start ≤ chunk.offset := Nat.sub_le _ _
  refine ⟨chunk, ⟨list, henters⟩, hchecks, hle, fun other hsame => ⟨list, henters.unchanged hsame⟩, ?_, ?_⟩
  · rintro hlarge other hsame ⟨list', henters'⟩
    refine ⟨list', ?_⟩
    obtain ⟨_, _, hforward⟩ := Decoder.forward_body decoder chunk _ _ _ hbody
    have hrun := hforward other list' (hsame.mono hstart (by omega))
    rw [Decoder.run_of_enters henters' hrun]
    cases decoder <;> rfl
  · intro hshort
    obtain ⟨other, hsame, hother⟩ := Decoder.body_changes hshort hbody
    have hbehind : chunk.offset ≤ chunk.stop := by omega
    have henters' := henters.unchanged (hsame.mono (Nat.zero_le _) hbehind)
    refine ⟨other, hsame, ⟨list, henters'⟩, fun hagain => ?_⟩
    obtain ⟨chunk', list', inner', henters'', hbody', _⟩ := Decoder.enters_of_run (Prod.ext hagain rfl)
    obtain ⟨rfl, rfl⟩ := henters'.unique henters''
    exact hother list inner' hbody'

/-- A container with a header chunk of four bytes, half of what a header takes, in front of a chunk of a tag
with a table of one entry. -/
def shortHeader (next : Tag) : Bytes :=
  Tag.ppbe.bytes ++ [0, 0, 0, 32] ++ Tag.mlrt.bytes ++ Tag.hdr.bytes ++ [0, 0, 0, 4, 0, 0, 0, 1] ++
    next.bytes ++ [0, 0, 0, 12, 0, 0, 0, 1, 0, 0, 0, 0, 0, 0, 0, 0]

/-- What was opened of it, with the stream at a position. -/
def shortHeaderAt (next : Tag) (pos : Nat) : Container :=
  { Container.ofStream .big ⟨shortHeader next, pos⟩ with form := some ⟨Tag.ppbe, 32, Tag.mlrt, 12⟩ }

/-- The header shows a change behind its chunk, the table none. -/
theorem shortHeader_confined :
    (∃ left,
      Container.readHeader.outcome (shortHeaderAt Tag.toc 12) = (.ok ⟨1, Tag.toc.code⟩, left)) ∧
    (∃ other, Unchanged (shortHeader Tag.toc) other 0 24 ∧
      (Container.readHeader.outcome ((shortHeaderAt Tag.toc 12).altered other none)).1 ≠
        .ok ⟨1, Tag.toc.code⟩) ∧
    (∃ left, Container.readToc.outcome (shortHeaderAt Tag.toc 24) = (.ok 1, left)) ∧
    ∀ other, Unchanged (shortHeader Tag.toc) other 24 44 →
      (Container.readToc.outcome ((shortHeaderAt Tag.toc 24).altered other none)).1 = .ok 1 := by
  have hheader : Container.readHeader.outcome (shortHeaderAt Tag.toc 12) =
      (.ok ⟨1, Tag.toc.code⟩, (shortHeaderAt Tag.toc 24).withHeader ⟨1, Tag.toc.code⟩) := rfl
  obtain ⟨left, htoc⟩ :
      ∃ left, Container.readToc.outcome (shortHeaderAt Tag.toc 24) = (.ok 1, left) := ⟨_, rfl⟩
  refine ⟨⟨_, hheader⟩, ?_, ⟨left, htoc⟩, fun other hsame => ?_⟩
  · obtain ⟨chunk, ⟨_, _, hnext, _⟩, _, _, _, _, hshort⟩ := decoders_confined .header hheader
    have hat : Chunk.at? .big (shortHeader Tag.toc) 12 = some ⟨Tag.hdr, 4, Tag.blank, 20⟩ := by
      decide +kernel
    obtain rfl := Option.some.inj (hnext.1.symm.trans hat)
    obtain ⟨other, hsame, _, hother⟩ := hshort (by decide)
    exact ⟨other, hsame, hother⟩
  · obtain ⟨chunk, ⟨_, _, hnext, _⟩, _, _, hnames, hlarge, _⟩ :=
      decoders_confined .toc htoc
    have hat : Chunk.at? .big (shortHeader Tag.toc) 24 = some ⟨Tag.toc, 12, Tag.blank, 32⟩ := by
      decide +kernel
    obtain rfl := Option.some.inj (hnext.1.symm.trans hat)
    obtain ⟨_, hrun⟩ := hlarge (by decide) other hsame
      (hnames other (hsame.mono (Nat.le_refl _) (by decide)))
    exact congrArg Prod.fst hrun

/-- The date of the header is the tag of the chunk behind it. -/
theorem shortHeader_reads_on :
    Decoder.header.Names (shortHeaderAt Tag.toc 12) ⟨Tag.hdr, 4, Tag.blank, 20⟩ ∧
    (Container.readHeader.outcome (shortHeaderAt Tag.toc 12)).1 = .ok ⟨1, Tag.toc.code⟩ ∧
    Unchanged (shortHeader Tag.toc) (shortHeader Tag.scn) 0 24 ∧
    (Container.readHeader.outcome (shortHeaderAt Tag.scn 12)).1 = .ok ⟨1, Tag.scn.code⟩ ∧
    ¬Decoder.needed .header ⟨1, Tag.toc.code⟩ ≤ (4 : UInt32).toNat := by
  have hat : Chunk.at? .big (shortHeader Tag.toc) 12 = some ⟨Tag.hdr, 4, Tag.blank, 20⟩ := by decide +kernel
  have hbytes : ∀ i < 24, (shortHeader Tag.scn)[i]? = (shortHeader Tag.toc)[i]? := by decide +kernel
  refine ⟨⟨none, ?_, ⟨hat, rfl⟩, rfl⟩, rfl, ⟨rfl, fun i _ hi => hbytes i hi⟩, rfl, by decide⟩
  rintro ⟨⟩

end Playprint
