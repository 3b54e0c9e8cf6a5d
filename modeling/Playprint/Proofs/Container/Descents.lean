import Playprint.Proofs.Container.Children

/-!
Descents among the children of a parent. A search goes from child to child, past those that lie wholly inside
the parent and are not wanted. Main statement: wherever the stream stands, a descent by tag or by form
succeeds exactly at the first direct child that is wanted, if the search gets there, and leaves the stream at
the payload of that child; every search is over after at most one child for each eight bytes of the parent.
-/

namespace Playprint.Chunk

variable {order : ByteOrder} {data : Bytes} {limit pos start stop : Nat} {parent child other : Chunk}
  {passed others : List Chunk} {wanted : Chunk → Prop}

/-- Whether a chunk lies wholly inside the payload of a parent. Its pad byte may lie outside. -/
def Inside (parent child : Chunk) : Prop :=
  parent.offset ≤ child.start ∧ child.stop ≤ parent.stop

/-- Whether a chunk starts in the payload of another one or in its pad byte. -/
def NestedIn (outer inner : Chunk) : Prop :=
  outer.offset ≤ inner.start ∧ inner.start < outer.finish

/-- A way over children of a parent, from one position to another. Each of them has its header in the data and
lies wholly inside the parent, and the next one starts behind its header and its padded payload. -/
inductive Children (order : ByteOrder) (data : Bytes) (parent : Chunk) : Nat → List Chunk → Nat → Prop
  | here (pos : Nat) : Children order data parent pos [] pos
  | past {pos stop : Nat} {child : Chunk} {passed : List Chunk} (hat : at? order data pos = some child)
      (hinside : parent.Inside child)
      (hrest : Children order data parent (pos + child.headerLength + child.paddedSize) passed stop) :
      Children order data parent pos (child :: passed) stop

/-- The first direct child of a kind: the way from the payload of the parent to it is over children of other
kinds, and it lies wholly inside, too. -/
def FirstDirect (order : ByteOrder) (data : Bytes) (parent : Chunk) (wanted : Chunk → Prop)
    (child : Chunk) : Prop :=
  ∃ passed start, Children order data parent parent.offset passed start ∧
    at? order data start = some child ∧ parent.Inside child ∧
    (∀ other ∈ passed, ¬wanted other) ∧ wanted child

/-! ### Ways over children -/

/-- A way over children is a chain of siblings that stay inside. -/
theorem children_iff (hpos : parent.offset ≤ pos) :
    Children order data parent pos passed stop ↔
      Chain order data parent.stop pos passed stop ∧ ∀ other ∈ passed, other.stop ≤ parent.stop := by
  constructor
  · intro h
    induction h with
    | here pos => exact ⟨.here pos, List.forall_mem_nil _⟩
    | past hat hinside _ ih =>
        obtain ⟨hchain, hstops⟩ := ih (by omega)
        exact ⟨.past (below_of_stop_le hat hinside.2) hat hchain,
          List.forall_mem_cons.mpr ⟨hinside.2, hstops⟩⟩
  · rintro ⟨hchain, hstops⟩
    induction hchain with
    | here pos => exact .here pos
    | past _ hat _ ih =>
        obtain ⟨hstop, hlater⟩ := List.forall_mem_cons.mp hstops
        exact .past hat ⟨by rw [start_of_at? hat]; exact hpos, hstop⟩ (ih (by omega) hlater)

/-- Every child takes eight bytes of the parent. -/
theorem Children.length_le (h : Children order data parent pos passed stop) :
    8 * passed.length ≤ parent.stop - pos := by
  induction h with
  | here => exact Nat.zero_le _
  | @past pos stop child passed hat hinside _ ih =>
      have hbelow := below_of_stop_le hat hinside.2
      have hheader := child.le_headerLength
      rw [List.length_cons]
      omega

/-- The first direct child is the first one on the chain of siblings, if it stays inside. -/
theorem firstDirect_iff :
    FirstDirect order data parent wanted child ↔
      First order data parent.stop parent.offset wanted child ∧ child.stop ≤ parent.stop := by
  constructor
  · rintro ⟨passed, start, hchildren, hat, hinside, hskip, hwanted⟩
    have hchain := ((children_iff (Nat.le_refl _)).mp hchildren).1
    exact ⟨⟨passed, start, ⟨hchain, below_of_stop_le hat hinside.2, hat⟩, hskip, hwanted⟩, hinside.2⟩
  · rintro ⟨⟨passed, start, hleads, hskip, hwanted⟩, hinside⟩
    obtain ⟨hle, hpassed⟩ := hleads.chain.stop_le
    have hbelow := hleads.below
    refine ⟨passed, start, (children_iff (Nat.le_refl _)).mpr ⟨hleads.chain, fun other hother => ?_⟩,
      hleads.found, ⟨by rw [start_of_at? hleads.found]; exact hle, hinside⟩, hskip, hwanted⟩
    have hstop := hpassed other hother
    omega

/-- Siblings do not overlap. -/
theorem Chain.apart (h : Chain order data limit pos passed start)
    (hat : at? order data start = some child) (hothers : Chain order data limit pos others stop)
    (hmem : other ∈ others) :
    other = child ∨ other.finish ≤ child.start ∨ child.finish ≤ other.start := by
  induction h generalizing others with
  | here pos =>
      cases hothers with
      | here => cases hmem
      | past _ hfirst hrest =>
          cases hfirst.symm.trans hat
          rcases List.mem_cons.mp hmem with rfl | hlater
          · exact .inl rfl
          · have hstart := (hrest.between.2 other hlater).1
            rw [← finish_of_at? hat] at hstart
            exact .inr (.inr hstart)
  | past _ hhead hchain ih =>
      cases hothers with
      | here => cases hmem
      | past _ hfirst hrest =>
          cases hfirst.symm.trans hhead
          rcases List.mem_cons.mp hmem with rfl | hlater
          · have hfinish := hchain.between.1
            rw [← finish_of_at? hhead, ← start_of_at? hat] at hfinish
            exact .inr (.inl hfinish)
          · exact ih hat hrest hlater

/-- No sibling starts in the payload of another. -/
theorem Chain.not_nestedIn (h : Chain order data limit pos passed start)
    (hat : at? order data start = some child) (hothers : Chain order data limit pos others stop)
    (hmem : other ∈ others) : ¬other.NestedIn child := by
  rintro ⟨hbehind, hbefore⟩
  have hoffset := (offset_of_at? hat).1
  rw [← start_of_at? hat] at hoffset
  have hheader := child.le_headerLength
  rcases h.apart hat hothers hmem with rfl | hfinish | hstart
  · omega
  · omega
  · have hother : other.start ≤ other.offset := Nat.sub_le _ _
    have hfinish := child.offset_le_finish
    omega

/-! ### Searches -/

/-- How a search among the children of a parent ends, at the end of a way over children that are not
wanted. -/
inductive SearchEnd (order : ByteOrder) (data : Bytes) (parent : Chunk) (wanted : Chunk → Prop)
    (stop : Nat) : Walk → Prop
  /-- At a child that is wanted. -/
  | found (child : Chunk) (hat : at? order data stop = some child) (hinside : parent.Inside child)
      (hwanted : wanted child) : SearchEnd order data parent wanted stop (.found child)
  /-- Where the parent has no room for another header. -/
  | full (hend : parent.stop < stop + 8) : SearchEnd order data parent wanted stop (.ended stop)
  /-- At a child that claims more than the parent holds. -/
  | oversized (child : Chunk) (hat : at? order data stop = some child) (hover : parent.stop < child.stop) :
      SearchEnd order data parent wanted stop (.ended child.offset)
  /-- At a header that is not wholly in the data. -/
  | cut (hcut : at? order data stop = none) : SearchEnd order data parent wanted stop .cut

/-- Every search ends in one of these ways. -/
theorem searchEnd (order : ByteOrder) (data : Bytes) (wanted : Chunk → Bool) (hpos : parent.offset ≤ pos) :
    ∃ passed stop, Children order data parent pos passed stop ∧
      (∀ other ∈ passed, ¬wanted other = true) ∧
      SearchEnd order data parent (wanted · = true) stop
        (walk order data parent.stop (childVerdict parent.stop wanted) pos) := by
  fun_induction walk order data parent.stop (childVerdict parent.stop wanted) pos with
  | case1 pos _ hcut => exact ⟨[], pos, .here pos, List.forall_mem_nil _, .cut hcut⟩
  | case2 pos _ child hat hverdict =>
      obtain ⟨hinside, hwanted⟩ := childVerdict_eq_found_iff.mp hverdict
      exact ⟨[], pos, .here pos, List.forall_mem_nil _,
        .found child hat ⟨by rw [start_of_at? hat]; exact hpos, hinside⟩ hwanted⟩
  | case3 pos _ child hat hverdict =>
      exact ⟨[], pos, .here pos, List.forall_mem_nil _,
        .oversized child hat (childVerdict_eq_giveUp_iff.mp hverdict)⟩
  | case4 pos _ child hat hverdict ih =>
      obtain ⟨hinside, hother⟩ := childVerdict_eq_skip_iff.mp hverdict
      have hfinish := finish_of_at? hat
      obtain ⟨passed, stop, hchildren, hskip, hend⟩ := ih (by omega)
      rw [hfinish] at hchildren
      exact ⟨child :: passed, stop, .past hat ⟨by rw [start_of_at? hat]; exact hpos, hinside⟩ hchildren,
        List.forall_mem_cons.mpr ⟨Bool.eq_false_iff.mp hother, hskip⟩, hend⟩
  | case5 pos hfits =>
      refine ⟨[], pos, .here pos, List.forall_mem_nil _, .full (Nat.lt_of_not_le fun hle => ?_)⟩
      exact hfits (headerFits_of_le hle)

/-- What a descent among the children of a parent does, wherever the stream stands. -/
structure FindsFirst (order : ByteOrder) (data : Bytes) (parent : Chunk) (descent : Descent) (name : Tag)
    (wanted : Chunk → Prop) : Prop where
  /-- It succeeds exactly with the first direct child that is wanted, at the payload of that child. -/
  succeeds_iff : ∀ pos child left,
    (descend order descent (some parent)).outcome ⟨data, pos⟩ = (.ok child, left) ↔
      FirstDirect order data parent wanted child ∧ left = ⟨data, child.offset⟩
  /-- What it finds is nested in no child of the parent, not even in one that claims too much. -/
  not_nested : ∀ pos child left,
    (descend order descent (some parent)).outcome ⟨data, pos⟩ = (.ok child, left) →
    ∀ others stop, Chain order data parent.stop parent.offset others stop →
      ∀ other ∈ others, ¬other.NestedIn child
  /-- No way over children goes on forever. -/
  bounded : ∀ passed stop, Children order data parent parent.offset passed stop →
    8 * passed.length ≤ parent.size.toNat
  /-- It fails only at the end of such a way over children that are not wanted: where the parent has no room
  for another one, at a child that claims more than the parent holds, or at a header that is not wholly in the
  data. -/
  fails : ∀ pos error left,
    (descend order descent (some parent)).outcome ⟨data, pos⟩ = (.error error, left) →
    ∃ passed stop, Children order data parent parent.offset passed stop ∧
      (∀ other ∈ passed, ¬wanted other) ∧
      (error = .chunkNotFound name parent.tag ∧
          (parent.stop < stop + 8 ∨
            ∃ child, at? order data stop = some child ∧ parent.stop < child.stop) ∨
        error = .io .readingWord .endOfData ∧ at? order data stop = none)

theorem findsFirst_of_seekChild {descent : Descent} {name : Tag} {wanted : Chunk → Bool}
    (hseek : descend order descent (some parent) = seekChild order parent name wanted) :
    FindsFirst order data parent descent name (wanted · = true) := by
  have hsucceeds : ∀ pos child left,
      (descend order descent (some parent)).outcome ⟨data, pos⟩ = (.ok child, left) ↔
        FirstDirect order data parent (wanted · = true) child ∧ left = ⟨data, child.offset⟩ := by
    intro pos child left
    rw [hseek, outcome_seekChild_eq_ok_iff, walk_child_eq_found_iff, firstDirect_iff]
    rfl
  refine ⟨hsucceeds, ?_, ?_, ?_⟩
  · intro pos child left h others stop hothers other hmem
    obtain ⟨⟨_, _, hleads, _, _⟩, _⟩ := firstDirect_iff.mp ((hsucceeds pos child left).mp h).1
    exact hleads.chain.not_nestedIn hleads.found hothers hmem
  · intro passed stop hchildren
    have hlength := hchildren.length_le
    rwa [Chunk.stop, Nat.add_sub_cancel_left] at hlength
  · intro pos error left h
    obtain ⟨passed, stop, hchildren, hskip, hend⟩ :=
      searchEnd order data wanted (Nat.le_refl parent.offset)
    refine ⟨passed, stop, hchildren, hskip, ?_⟩
    rw [hseek, outcome_seekChild] at h
    generalize walk order data parent.stop (childVerdict parent.stop wanted) parent.offset = ending
      at hend h
    cases hend with
    | found child => cases h
    | full hfull =>
        cases h
        exact .inl ⟨rfl, .inl hfull⟩
    | oversized child hat hover =>
        cases h
        exact .inl ⟨rfl, .inr ⟨child, hat, hover⟩⟩
    | cut hcut =>
        cases h
        exact .inr ⟨rfl, hcut⟩

/-- A descent by tag comes to the first direct child with the tag, and a descent by form to the first list
with the form. -/
theorem descend_findsFirst (order : ByteOrder) (data : Bytes) (parent : Chunk) (tag form : Tag) :
    FindsFirst order data parent (.child tag) tag (·.tag = tag) ∧
      FindsFirst order data parent (.list form) form fun child =>
        child.tag = Tag.list ∧ child.form = form := by
  constructor
  · have h : FindsFirst order data parent (.child tag) tag _ := findsFirst_of_seekChild rfl
    simpa only [beq_iff_eq] using h
  · have h : FindsFirst order data parent (.list form) form _ := findsFirst_of_seekChild rfl
    simpa only [Bool.and_eq_true, beq_iff_eq] using h

end Playprint.Chunk
