import Playprint.Proofs.Container.Descents

/-!
Scans that stay in the data. A parent whose payload lies in the data has all bytes that its children may claim,
and a scan among them looks at a child as soon as eight bytes are left, although the header of a child with a
form takes twelve. Main statement: such a scan ends at the child that is wanted, or without one, or, where the
data ends before the form of a child does, with a failure of the stream; the last happens exactly when the scan
comes to such a header.
-/

namespace Playprint.Chunk

variable {order : ByteOrder} {data : Bytes} {pos start stop last : Nat} {parent child : Chunk}
  {passed : List Chunk} {name : Tag}

/-- A header of which the form is missing: the parent has room for tag and size, the tag asks for a form, and
the data ends before the form does. -/
structure Stump (order : ByteOrder) (data : Bytes) (parent : Chunk) (start : Nat) : Prop where
  room : start + 8 ≤ parent.stop
  asks : ∃ word, wordAt? order data start = some word ∧ (Tag.mk word).hasForm = true
  cut : data.length < start + 12

/-- How a scan for a child ends at a position, and where it leaves the stream. -/
inductive ScanEnd (order : ByteOrder) (data : Bytes) (parent : Chunk) (name : Tag) (wanted : Chunk → Prop)
    (start : Nat) : Except FormatError Chunk → Nat → Prop
  /-- At a child that is wanted. -/
  | found (child : Chunk) (hat : at? order data start = some child) (hinside : parent.Inside child)
      (hwanted : wanted child) : ScanEnd order data parent name wanted start (.ok child) child.offset
  /-- Where the parent has no room for tag and size. -/
  | full (hfull : parent.stop < start + 8) :
      ScanEnd order data parent name wanted start (.error (.chunkNotFound name parent.tag)) start
  /-- At a child whose header or payload runs past the parent. -/
  | oversized (child : Chunk) (hroom : start + 8 ≤ parent.stop) (hat : at? order data start = some child)
      (hover : parent.stop < child.stop) :
      ScanEnd order data parent name wanted start (.error (.chunkNotFound name parent.tag)) child.offset
  /-- At a header of which the form is missing. -/
  | stump (hstump : Stump order data parent start) :
      ScanEnd order data parent name wanted start (.error (.io .readingWord .endOfData)) data.length

/-! ### Headers without their form -/

/-- Of a header whose first eight bytes are in the data nothing else can be missing. -/
theorem at?_eq_none_iff (hlength : start + 8 ≤ data.length) : at? order data start = none ↔
    (∃ word, wordAt? order data start = some word ∧ (Tag.mk word).hasForm = true) ∧
      data.length < start + 12 := by
  obtain ⟨word, hword⟩ := exists_wordAt? order (by omega : start + 4 ≤ data.length)
  obtain ⟨size, hsize⟩ := exists_wordAt? order hlength
  by_cases hform : (Tag.mk word).hasForm = true
  · refine ⟨fun hnone => ⟨⟨word, hword, hform⟩, length_lt_of_at?_eq_none hnone⟩, fun h => ?_⟩
    have hlast : wordAt? order data (start + 8) = none := wordAt?_eq_none_iff.mpr h.2
    simp [at?, hword, hsize, hform, hlast]
  · refine ⟨fun hnone => ?_, ?_⟩
    · simp [at?, hword, hsize, hform] at hnone
    · rintro ⟨⟨other, hother, hother'⟩, _⟩
      cases hword.symm.trans hother
      exact absurd hother' hform

/-- So a header that is missing in a parent that lies in the data is one of these. -/
theorem stump_iff (hstop : parent.stop ≤ data.length) :
    Stump order data parent start ↔ start + 8 ≤ parent.stop ∧ at? order data start = none := by
  constructor
  · rintro ⟨hroom, hasks, hcut⟩
    exact ⟨hroom, (at?_eq_none_iff (by omega)).mpr ⟨hasks, hcut⟩⟩
  · rintro ⟨hroom, hnone⟩
    obtain ⟨hasks, hcut⟩ := (at?_eq_none_iff (by omega)).mp hnone
    exact ⟨hroom, hasks, hcut⟩

/-- Four bytes behind the parent are enough that there is none. -/
theorem not_stump_of_le (hstop : parent.stop + 4 ≤ data.length) : ¬Stump order data parent start := by
  rintro ⟨hroom, _, hcut⟩
  omega

/-! ### Scans -/

/-- A way over children ends inside the parent or right behind it, where the last pad byte is. -/
theorem Children.stop_le (h : Children order data parent pos passed stop) (hpos : pos ≤ parent.stop + 1) :
    stop ≤ parent.stop + 1 := by
  induction h with
  | here => exact hpos
  | past hat hinside _ ih =>
      refine ih ?_
      have hstop := hinside.2
      rw [Chunk.stop] at hstop
      rw [← finish_of_at? hat, finish, paddedSize]
      omega

/-- A scan comes to whatever a way over children that are not wanted leads it to. -/
theorem ScanEnd.outcome_seekChild {wanted : Chunk → Bool} {answer : Except FormatError Chunk}
    (hstop : parent.stop ≤ data.length) (hdata : data.length < UInt64.size / 2)
    (hchildren : Children order data parent parent.offset passed start)
    (hskip : ∀ other ∈ passed, ¬wanted other = true)
    (hend : ScanEnd order data parent name (wanted · = true) start answer stop) :
    (seekChild order parent name wanted).outcome ⟨data, pos⟩ = (answer, ⟨data, stop⟩) := by
  have hroom : UInt64.size / 2 + 1 ≤ lastStart := by decide
  have hlast := hchildren.stop_le (Nat.le_succ_of_le (Nat.le_add_right _ _))
  obtain ⟨hchain, hstops⟩ := (children_iff (Nat.le_refl _)).mp hchildren
  have hskips : ∀ other ∈ passed, childVerdict parent.stop wanted other = .skip := fun other hother =>
    childVerdict_eq_skip_iff.mpr ⟨hstops other hother, Bool.eq_false_iff.mpr (hskip other hother)⟩
  rw [Chunk.outcome_seekChild, hchain.walk_eq hskips]
  cases hend with
  | found child hat hinside hwanted =>
      rw [walk_of_at? (headerFits_of_le (below_of_stop_le hat hinside.2)) hat,
        childVerdict_eq_found_iff.mpr ⟨hinside.2, hwanted⟩]
      rfl
  | full hfull =>
      have hfits : ¬headerFits start parent.stop = true := by
        rw [headerFits_iff (by omega)]
        omega
      rw [walk, if_neg hfits]
      rfl
  | oversized child hroom hat hover =>
      rw [walk_of_at? (headerFits_of_le hroom) hat, childVerdict_eq_giveUp_iff.mpr hover]
      rfl
  | stump hstump =>
      rw [walk_of_cut (headerFits_of_le hstump.room) ((stump_iff hstop).mp hstump).2]
      rfl

/-- And there always is such a way. -/
theorem exists_scanEnd (order : ByteOrder) (name : Tag) (wanted : Chunk → Bool)
    (hstop : parent.stop ≤ data.length) :
    ∃ passed start answer stop, Children order data parent parent.offset passed start ∧
      (∀ other ∈ passed, ¬wanted other = true) ∧
      ScanEnd order data parent name (wanted · = true) start answer stop := by
  obtain ⟨passed, start, hchildren, hskip, hend⟩ :=
    searchEnd order data wanted (Nat.le_refl parent.offset)
  generalize walk order data parent.stop (childVerdict parent.stop wanted) parent.offset = ending at hend
  by_cases hroom : start + 8 ≤ parent.stop
  · cases hend with
    | found child hat hinside hwanted =>
        exact ⟨passed, start, _, _, hchildren, hskip, .found child hat hinside hwanted⟩
    | full hfull => exact absurd hroom (Nat.not_le.mpr hfull)
    | oversized child hat hover =>
        exact ⟨passed, start, _, _, hchildren, hskip, .oversized child hroom hat hover⟩
    | cut hcut =>
        exact ⟨passed, start, _, _, hchildren, hskip, .stump ((stump_iff hstop).mpr ⟨hroom, hcut⟩)⟩
  · exact ⟨passed, start, _, _, hchildren, hskip, .full (Nat.lt_of_not_le hroom)⟩

/-- What a scan among the children of a parent that lies in the data does, wherever the stream stands. -/
structure ScansWithin (order : ByteOrder) (data : Bytes) (parent : Chunk) (descent : Descent) (name : Tag)
    (wanted : Chunk → Prop) : Prop where
  /-- It comes to exactly what a way over children that are not wanted leads to. -/
  ends_iff : ∀ pos answer left,
    (descend order descent (some parent)).outcome ⟨data, pos⟩ = (answer, left) ↔
      ∃ passed start stop, Children order data parent parent.offset passed start ∧
        (∀ other ∈ passed, ¬wanted other) ∧
        ScanEnd order data parent name wanted start answer stop ∧ left = ⟨data, stop⟩
  /-- Its failures are all of a child that is not found exactly when no such way leads to a header without its
  form, -/
  only_misses_iff :
    (∀ pos error left, (descend order descent (some parent)).outcome ⟨data, pos⟩ = (.error error, left) →
      error = .chunkNotFound name parent.tag) ↔
    ∀ passed start, Children order data parent parent.offset passed start →
      (∀ other ∈ passed, ¬wanted other) → ¬Stump order data parent start
  /-- and that is so when the data goes on for four bytes behind the parent. -/
  only_misses_of_le : parent.stop + 4 ≤ data.length →
    ∀ pos error left, (descend order descent (some parent)).outcome ⟨data, pos⟩ = (.error error, left) →
      error = .chunkNotFound name parent.tag

theorem scansWithin_of_seekChild {descent : Descent} {wanted : Chunk → Bool}
    (hstop : parent.stop ≤ data.length) (hdata : data.length < UInt64.size / 2)
    (hseek : descend order descent (some parent) = seekChild order parent name wanted) :
    ScansWithin order data parent descent name (wanted · = true) := by
  have hends : ∀ pos answer left,
      (descend order descent (some parent)).outcome ⟨data, pos⟩ = (answer, left) ↔
        ∃ passed start stop, Children order data parent parent.offset passed start ∧
          (∀ other ∈ passed, ¬wanted other = true) ∧
          ScanEnd order data parent name (wanted · = true) start answer stop ∧ left = ⟨data, stop⟩ := by
    intro pos answer left
    rw [hseek]
    constructor
    · intro h
      obtain ⟨passed, start, answer', stop, hchildren, hskip, hend⟩ :=
        exists_scanEnd order name wanted hstop
      cases h.symm.trans (hend.outcome_seekChild hstop hdata hchildren hskip)
      exact ⟨passed, start, stop, hchildren, hskip, hend, rfl⟩
    · rintro ⟨passed, start, stop, hchildren, hskip, hend, rfl⟩
      exact hend.outcome_seekChild hstop hdata hchildren hskip
  have hmisses : (∀ pos error left,
      (descend order descent (some parent)).outcome ⟨data, pos⟩ = (.error error, left) →
        error = .chunkNotFound name parent.tag) ↔
      ∀ passed start, Children order data parent parent.offset passed start →
        (∀ other ∈ passed, ¬wanted other = true) → ¬Stump order data parent start := by
    constructor
    · intro honly passed start hchildren hskip hstump
      cases honly 0 _ _ ((hends 0 _ _).mpr ⟨passed, start, _, hchildren, hskip, .stump hstump, rfl⟩)
    · intro hnone pos error left h
      obtain ⟨passed, start, stop, hchildren, hskip, hend, _⟩ := (hends pos _ left).mp h
      cases hend with
      | full => rfl
      | oversized => rfl
      | stump hstump => exact absurd hstump (hnone passed start hchildren hskip)
  exact ⟨hends, hmisses, fun hle => hmisses.mpr fun _ _ _ _ => not_stump_of_le hle⟩

/-- Of a parent that lies in the data, a scan by tag and one by form come to a child, to none, or to a header
without its form at the end of the data. -/
theorem descend_scansWithin (order : ByteOrder) (tag form : Tag) (hstop : parent.stop ≤ data.length)
    (hdata : data.length < UInt64.size / 2) :
    ScansWithin order data parent (.child tag) tag (·.tag = tag) ∧
      ScansWithin order data parent (.list form) form fun child =>
        child.tag = Tag.list ∧ child.form = form := by
  constructor
  · have h : ScansWithin order data parent (.child tag) tag _ := scansWithin_of_seekChild hstop hdata rfl
    simpa only [beq_iff_eq] using h
  · have h : ScansWithin order data parent (.list form) form _ := scansWithin_of_seekChild hstop hdata rfl
    simpa only [Bool.and_eq_true, beq_iff_eq] using h

/-- A chunk of eight bytes that are the tag and the size of a list. -/
def stub : Bytes :=
  Tag.mref.bytes ++ [0, 0, 0, 8] ++ Tag.list.bytes ++ [0, 0, 0, 0]

/-- That chunk, which lies in the data. -/
def stubParent : Chunk := ⟨Tag.mref, 8, Tag.blank, 8⟩

theorem stub_stump : Stump .big stub stubParent 8 where
  room := by decide
  asks := ⟨Tag.list.code, by decide +kernel, by decide⟩
  cut := by decide

/-- A scan of it may fail with the stream, and with four bytes more behind it no scan does. -/
theorem stub_scansWithin :
    stubParent.stop ≤ stub.length ∧
    (¬∀ pos error left,
      (descend .big (.child Tag.grp) (some stubParent)).outcome ⟨stub, pos⟩ = (.error error, left) →
        error = .chunkNotFound Tag.grp stubParent.tag) ∧
    ∀ pos error left,
      (descend .big (.list Tag.mrfl) (some stubParent)).outcome ⟨stub ++ [0, 0, 0, 0], pos⟩ =
        (.error error, left) → error = .chunkNotFound Tag.mrfl stubParent.tag := by
  have hscans := (descend_scansWithin .big Tag.grp Tag.mrfl
    (by decide : stubParent.stop ≤ stub.length) (by decide)).1
  have hlonger := (descend_scansWithin .big Tag.grp Tag.mrfl
    (by decide : stubParent.stop ≤ (stub ++ [0, 0, 0, 0]).length) (by decide)).2
  refine ⟨by decide, fun honly => ?_, hlonger.only_misses_of_le (by decide)⟩
  exact hscans.only_misses_iff.mp honly [] 8 (.here 8) (List.forall_mem_nil _) stub_stump

/-- The chunk at the start of the data lies in it, and a scan for its first group neither finds one nor says
that there is none. -/
theorem stub_breaks_off :
    (descend .big .next none).outcome ⟨stub, 0⟩ = (.ok stubParent, ⟨stub, 8⟩) ∧
    stubParent.stop ≤ stub.length ∧
    (descend .big (.child Tag.grp) (some stubParent)).outcome ⟨stub, 8⟩ =
      (.error (.io .readingWord .endOfData), ⟨stub, 16⟩) ∧
    ¬∀ (order : ByteOrder) (data : Bytes) (parent : Chunk) (tag : Tag) (pos : Nat),
      parent.stop ≤ data.length →
      (∃ child, ((descend order (.child tag) (some parent)).outcome ⟨data, pos⟩).1 = .ok child) ∨
        ((descend order (.child tag) (some parent)).outcome ⟨data, pos⟩).1 =
          .error (.chunkNotFound tag parent.tag) := by
  have hbreaks : (descend .big (.child Tag.grp) (some stubParent)).outcome ⟨stub, 8⟩ =
      (.error (.io .readingWord .endOfData), ⟨stub, 16⟩) :=
    ScanEnd.outcome_seekChild (by decide) (by decide) (.here 8) (List.forall_mem_nil _) (.stump stub_stump)
  refine ⟨rfl, by decide, hbreaks, fun h => ?_⟩
  have hanswer := h .big stub stubParent Tag.grp 8 (by decide)
  rw [hbreaks] at hanswer
  rcases hanswer with ⟨child, hfound⟩ | hmissing
  · cases hfound
  · cases hmissing

end Playprint.Chunk
