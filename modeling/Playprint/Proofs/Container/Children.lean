import Playprint.Proofs.Container.Leaving

/-!
Two ways to a child. A descent into a parent looks at its children one after another and gives up at the first
one that claims more than the parent holds; a reader in sequence goes along the same siblings and asks only
where their headers start. Main statement: both come to the first child of a tag, and they agree on it exactly
when that child does not run past the parent with all of its payload in the data.
-/

namespace Playprint

namespace Chunk

variable {order : ByteOrder} {data : Bytes} {limit pos start : Nat} {chunk : Chunk} {passed : List Chunk}

/-- The first chunk of a kind on a chain of siblings. -/
def First (order : ByteOrder) (data : Bytes) (limit pos : Nat) (kind : Chunk → Prop) (chunk : Chunk) :
    Prop :=
  ∃ passed start, LeadsTo order data limit pos passed start chunk ∧
    (∀ other ∈ passed, ¬kind other) ∧ kind chunk

theorem First.past {kind : Chunk → Prop} {first : Chunk} (hbelow : pos + 8 ≤ limit)
    (hat : at? order data pos = some first) (hkind : ¬kind first)
    (h : First order data limit first.finish kind chunk) : First order data limit pos kind chunk := by
  obtain ⟨passed, start, hleads, hskip, hfound⟩ := h
  rw [finish_of_at? hat] at hleads
  exact ⟨first :: passed, start, ⟨.past hbelow hat hleads.chain, hleads.below, hleads.found⟩,
    List.forall_mem_cons.mpr ⟨hkind, hskip⟩, hfound⟩

/-- A search goes past a child that stays inside and is not wanted, -/
theorem childVerdict_eq_skip_iff {wanted : Chunk → Bool} :
    childVerdict limit wanted chunk = .skip ↔ chunk.stop ≤ limit ∧ wanted chunk = false := by
  rw [childVerdict]
  split
  · rename_i hover
    exact ⟨by rintro ⟨⟩, fun h => absurd hover (Nat.not_lt.mpr h.1)⟩
  · rename_i hinside
    cases wanted chunk <;> simp [Nat.le_of_not_lt hinside]

/-- ends at one that stays inside and is wanted, -/
theorem childVerdict_eq_found_iff {wanted : Chunk → Bool} :
    childVerdict limit wanted chunk = .found ↔ chunk.stop ≤ limit ∧ wanted chunk = true := by
  rw [childVerdict]
  split
  · rename_i hover
    exact ⟨by rintro ⟨⟩, fun h => absurd hover (Nat.not_lt.mpr h.1)⟩
  · rename_i hinside
    cases wanted chunk <;> simp [Nat.le_of_not_lt hinside]

/-- and gives up at one that does not stay inside. -/
theorem childVerdict_eq_giveUp_iff {wanted : Chunk → Bool} :
    childVerdict limit wanted chunk = .giveUp ↔ limit < chunk.stop := by
  rw [childVerdict]
  split
  · rename_i hover
    exact ⟨fun _ => hover, fun _ => rfl⟩
  · rename_i hinside
    cases wanted chunk <;> simp [Nat.le_of_not_lt hinside]

/-- A chunk that stays inside has its header there, too. -/
theorem below_of_stop_le (hat : at? order data pos = some chunk) (h : chunk.stop ≤ limit) :
    pos + 8 ≤ limit := by
  have hoffset := (offset_of_at? hat).1
  have hheader := chunk.le_headerLength
  rw [stop] at h
  omega

/-- A search among the children of a parent finds the first one that is wanted, if that stays inside. -/
theorem walk_child_eq_found_iff (wanted : Chunk → Bool) :
    walk order data limit (childVerdict limit wanted) pos = .found chunk ↔
      First order data limit pos (wanted · = true) chunk ∧ chunk.stop ≤ limit := by
  constructor
  · intro h
    fun_induction walk order data limit (childVerdict limit wanted) pos with
    | case1 => cases h
    | case2 pos hfits found hat hverdict =>
        cases h
        obtain ⟨hinside, hwanted⟩ := childVerdict_eq_found_iff.mp hverdict
        exact ⟨⟨[], pos, ⟨.here pos, below_of_stop_le hat hinside, hat⟩, List.forall_mem_nil _, hwanted⟩,
          hinside⟩
    | case3 => cases h
    | case4 pos hfits skipped hat hverdict ih =>
        obtain ⟨hinside, hother⟩ := childVerdict_eq_skip_iff.mp hverdict
        obtain ⟨hfirst, hstop⟩ := ih h
        exact ⟨hfirst.past (below_of_stop_le hat hinside) hat (Bool.eq_false_iff.mp hother), hstop⟩
    | case5 => cases h
  · rintro ⟨⟨passed, start, hleads, hskip, hwanted⟩, hinside⟩
    have hskips : ∀ other ∈ passed, childVerdict limit wanted other = .skip := by
      intro other hother
      have hstop := hleads.chain.stop_le.2 other hother
      have hbelow := hleads.below
      exact childVerdict_eq_skip_iff.mpr ⟨by omega, Bool.eq_false_iff.mpr (hskip other hother)⟩
    rw [hleads.chain.walk_eq hskips]
    refine Container.walk_found (headerFits_of_le hleads.below) hleads.found ?_
    exact childVerdict_eq_found_iff.mpr ⟨hinside, hwanted⟩

end Chunk

namespace Container

open Chunk (First)

variable {container : Container} {form chunk : Chunk} {tag : Tag} {payload : Bytes}

/-- The first chunk of a tag inside the outermost one, which may run past it. -/
def FirstChild (container : Container) (form : Chunk) (tag : Tag) (chunk : Chunk) : Prop :=
  First container.order container.stream.data form.stop form.offset (·.tag = tag) chunk

/-- There is at most one. -/
theorem FirstChild.unique {other : Chunk} (h : FirstChild container form tag chunk)
    (hother : FirstChild container form tag other) : chunk = other := by
  obtain ⟨_, _, hleads, hskip, htag⟩ := h
  obtain ⟨_, _, hleads', hskip', htag'⟩ := hother
  have hwalk := walk_of_leadsTo hleads hskip htag
  rw [walk_of_leadsTo hleads' hskip' htag'] at hwalk
  exact (Chunk.Walk.found.inj hwalk).symm

/-- A reader in sequence, from the payload of the outermost chunk on, hands a payload over. -/
def HandsOver (container : Container) (form : Chunk) (tag : Tag) (payload : Bytes) : Prop :=
  ∀ {α : Type} (use : Bytes → Except FormatError α),
    ((readSection tag use).outcome (container.moved form.offset)).1 = use payload

/-- A descent into the outermost chunk finds a child with a payload, wherever the stream stands. -/
def Finds (container : Container) (form : Chunk) (tag : Tag) (payload : Bytes) : Prop :=
  ∀ pos, ∃ chunk inside,
    (descend (.child tag) (some form)).outcome (container.moved pos) = (.ok chunk, inside) ∧
      ((onStream chunk.readPayload).outcome inside).1 = .ok payload

/-- What is handed over is the payload of the first child of the tag, if it lies in the data. -/
theorem handsOver_iff (hform : container.form = some form) (hlimit : form.stop ≤ 2 * UInt32.size) :
    HandsOver container form tag payload ↔
      ∃ chunk, FirstChild container form tag chunk ∧ chunk.stop ≤ container.stream.data.length ∧
        payload = chunk.payloadIn container.stream.data := by
  have hroom : 2 * UInt32.size ≤ Chunk.lastStart := by decide
  have hpos : form.offset ≤ Chunk.lastStart := by
    rw [Chunk.stop] at hlimit
    omega
  constructor
  · intro h
    have hanswer := h Except.ok
    cases Chunk.search container.order container.stream.data form.stop form.offset tag with
    | reached passed start chunk hleads htag hskip =>
        refine ⟨chunk, ⟨passed, start, hleads, hskip, htag⟩, ?_⟩
        by_cases hstop : chunk.stop ≤ container.stream.data.length
        · rw [outcome_readSection_reached Except.ok hform hleads hskip ⟨htag, hstop⟩] at hanswer
          exact ⟨hstop, (Except.ok.inj hanswer).symm⟩
        · rw [outcome_readSection_beyond Except.ok hform hlimit hleads hskip htag
            (Nat.lt_of_not_le hstop)] at hanswer
          cases hanswer
    | ended passed stop hchain hend hskip =>
        rw [outcome_readSection_ended Except.ok hform hlimit hpos hchain hend hskip] at hanswer
        cases hanswer
    | cut passed stop hchain hbelow hcut hskip =>
        rw [outcome_readSection_cut Except.ok hform hchain hbelow hcut hskip] at hanswer
        cases hanswer
  · rintro ⟨chunk, ⟨passed, start, hleads, hskip, htag⟩, hstop, rfl⟩ α use
    rw [outcome_readSection_reached use hform hleads hskip ⟨htag, hstop⟩]

/-- A descent succeeds at the first child of the tag, if it stays inside. -/
theorem outcome_descend_child_eq_ok_iff (pos : Nat) {inside : Container} :
    (descend (.child tag) (some form)).outcome (container.moved pos) = (.ok chunk, inside) ↔
      (FirstChild container form tag chunk ∧ chunk.stop ≤ form.stop) ∧
        inside = container.moved chunk.offset := by
  have hwalk : Chunk.walk container.order container.stream.data form.stop
      (Chunk.childVerdict form.stop (·.tag == tag)) form.offset = .found chunk ↔ _ :=
    Chunk.walk_child_eq_found_iff (·.tag == tag)
  simp only [beq_iff_eq] at hwalk
  rw [outcome_descend_eq_ok_iff, FirstChild, ← hwalk]
  constructor
  · rintro ⟨stream, hseek, rfl⟩
    obtain ⟨hfound, rfl⟩ := Chunk.outcome_seekChild_eq_ok_iff.mp hseek
    exact ⟨hfound, rfl⟩
  · rintro ⟨hfound, rfl⟩
    exact ⟨_, Chunk.outcome_seekChild_eq_ok_iff.mpr ⟨hfound, rfl⟩, rfl⟩

/-- What a descent finds is the payload of the first child of the tag, if it stays inside and lies in the
data. -/
theorem finds_iff (hlimit : form.stop ≤ 2 * UInt32.size) :
    Finds container form tag payload ↔
      ∃ chunk, FirstChild container form tag chunk ∧ chunk.stop ≤ form.stop ∧
        chunk.stop ≤ container.stream.data.length ∧ payload = chunk.payloadIn container.stream.data := by
  have hroom : 2 * UInt32.size < UInt64.size := by decide
  constructor
  · intro h
    obtain ⟨chunk, inside, hdescend, hread⟩ := h form.offset
    obtain ⟨⟨hfirst, hinside⟩, rfl⟩ := (outcome_descend_child_eq_ok_iff _).mp hdescend
    refine ⟨chunk, hfirst, hinside, ?_⟩
    by_cases hstop : chunk.stop ≤ container.stream.data.length
    · have hpayload : (onStream chunk.readPayload).outcome (container.moved chunk.offset) = _ :=
        outcome_onStream chunk.offset
          (Chunk.outcome_readPayload_within (container.stream.seek chunk.offset) hstop)
      rw [hpayload] at hread
      exact ⟨hstop, (Except.ok.inj hread).symm⟩
    · have hpayload : (onStream chunk.readPayload).outcome (container.moved chunk.offset) = _ :=
        outcome_onStream chunk.offset
          (Chunk.outcome_readPayload_beyond (container.stream.seek chunk.offset) (by omega)
            (Nat.lt_of_not_le hstop))
      rw [hpayload] at hread
      cases hread
  · rintro ⟨chunk, hfirst, hinside, hstop, rfl⟩ pos
    refine ⟨chunk, _, (outcome_descend_child_eq_ok_iff pos).mpr ⟨⟨hfirst, hinside⟩, rfl⟩, ?_⟩
    exact congrArg Prod.fst (outcome_onStream chunk.offset
      (Chunk.outcome_readPayload_within (container.stream.seek chunk.offset) hstop))

/-- A child of a tag that a reader in sequence hands over although it runs past the outermost chunk. -/
def Overhangs (container : Container) (form : Chunk) (tag : Tag) : Prop :=
  ∃ chunk, FirstChild container form tag chunk ∧ form.stop < chunk.stop ∧
    chunk.stop ≤ container.stream.data.length

/-- The two ways to a child of a tag agree exactly when the first one does not run past the outermost chunk
with all of its payload in the data. A descent never returns such a child, and all it finds is handed over by
the reader in sequence, too. -/
theorem ways_agree_iff {opened : Container} (hopened : openForm.outcome container = (.ok (), opened)) :
    opened.stream.data = container.stream.data ∧ ∃ form, opened.form = some form ∧ ∀ tag : Tag,
      ((∀ payload, HandsOver opened form tag payload ↔ Finds opened form tag payload) ↔
        ¬Overhangs opened form tag) ∧
      (∀ payload, HandsOver opened form tag payload ↔
        ∃ chunk, FirstChild opened form tag chunk ∧ chunk.stop ≤ opened.stream.data.length ∧
          payload = chunk.payloadIn opened.stream.data) ∧
      ∀ payload, Finds opened form tag payload ↔
        ∃ chunk, FirstChild opened form tag chunk ∧ chunk.stop ≤ form.stop ∧
          chunk.stop ≤ opened.stream.data.length ∧ payload = chunk.payloadIn opened.stream.data := by
  obtain ⟨form, hform, hlimit, hdata⟩ := openForm_ok hopened
  refine ⟨hdata, form, hform, fun tag => ⟨?_, fun payload => handsOver_iff hform hlimit,
    fun payload => finds_iff hlimit⟩⟩
  constructor
  · rintro hagree ⟨chunk, hfirst, hover, hstop⟩
    have hhands : HandsOver opened form tag _ :=
      (handsOver_iff hform hlimit).mpr ⟨chunk, hfirst, hstop, rfl⟩
    obtain ⟨found, hfound, hinside, _⟩ := (finds_iff hlimit).mp ((hagree _).mp hhands)
    obtain rfl := hfirst.unique hfound
    omega
  · intro hnone payload
    rw [handsOver_iff hform hlimit, finds_iff hlimit]
    constructor
    · rintro ⟨chunk, hfirst, hstop, hpayload⟩
      exact ⟨chunk, hfirst, Nat.le_of_not_lt fun hover => hnone ⟨chunk, hfirst, hover, hstop⟩, hstop,
        hpayload⟩
    · rintro ⟨chunk, hfirst, _, hstop, hpayload⟩
      exact ⟨chunk, hfirst, hstop, hpayload⟩

/-- A container with a group of two bytes, both of them behind what the form declares. -/
def overhanging : Bytes :=
  Tag.ppbe.bytes ++ [0, 0, 0, 8] ++ Tag.mlrt.bytes ++ Tag.grp.bytes ++ [0, 0, 0, 2, 0x8a, 0]

/-- Its form, which ends before the payload of the group. -/
def overhangingForm : Chunk := ⟨Tag.ppbe, 8, Tag.mlrt, 12⟩

/-- What is opened of it, with the stream before the group. -/
def overhangingOpened : Container :=
  { ofStream .big ⟨overhanging, 12⟩ with form := some overhangingForm }

theorem overhanging_at : Chunk.at? .big overhanging 12 = some ⟨Tag.grp, 2, Tag.blank, 20⟩ := by
  decide +kernel

theorem overhanging_first :
    FirstChild overhangingOpened overhangingForm Tag.grp ⟨Tag.grp, 2, Tag.blank, 20⟩ :=
  ⟨[], 12, ⟨.here 12, by decide, overhanging_at⟩, List.forall_mem_nil _, rfl⟩

/-- The two ways part at the group, and only there. -/
theorem overhanging_ways_part :
    openForm.outcome (ofStream .big ⟨overhanging, 0⟩) = (.ok (), overhangingOpened) ∧
    (¬∀ payload, HandsOver overhangingOpened overhangingForm Tag.grp payload ↔
      Finds overhangingOpened overhangingForm Tag.grp payload) ∧
    ∀ payload, HandsOver overhangingOpened overhangingForm Tag.set payload ↔
      Finds overhangingOpened overhangingForm Tag.set payload := by
  have hopened : openForm.outcome (ofStream .big ⟨overhanging, 0⟩) = (.ok (), overhangingOpened) := rfl
  obtain ⟨_, form, hform, hways⟩ := ways_agree_iff hopened
  cases hform
  refine ⟨hopened, fun hagree => ?_, (hways Tag.set).1.mpr ?_⟩
  · exact (hways Tag.grp).1.mp hagree ⟨_, overhanging_first, by decide, by decide⟩
  · rintro ⟨chunk, ⟨passed, start, hleads, hskip, htag⟩, _⟩
    cases hleads.chain with
    | here =>
        cases hleads.found.symm.trans overhanging_at
        cases htag
    | past _ hat hrest =>
        cases hat.symm.trans overhanging_at
        -- The chain is behind the group, where the form has ended.
        exact absurd (Nat.le_trans (Nat.add_le_add_right hrest.stop_le.1 8) hleads.below) (by decide)

/-- The reader in sequence hands the group over, both of its bytes from outside the form, and a descent finds
no group. -/
theorem overhanging_handed_over :
    ofBytes overhanging = .ok (ofStream .big ⟨overhanging, 0⟩) ∧
    openForm.outcome (ofStream .big ⟨overhanging, 0⟩) = (.ok (), overhangingOpened) ∧
    overhangingForm.stop = 20 ∧ overhanging.drop 20 = [0x8a, 0] ∧
    HandsOver overhangingOpened overhangingForm Tag.grp [0x8a, 0] ∧
    ∀ payload, ¬Finds overhangingOpened overhangingForm Tag.grp payload := by
  refine ⟨rfl, rfl, rfl, rfl, (handsOver_iff rfl (by decide)).mpr ⟨_, overhanging_first, by decide, rfl⟩,
    fun payload hfinds => ?_⟩
  obtain ⟨chunk, hfirst, hinside, _⟩ := (finds_iff (by decide)).mp hfinds
  cases hfirst.unique overhanging_first
  exact absurd hinside (by decide)

end Container

end Playprint
