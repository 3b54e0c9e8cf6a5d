import Playprint.Proofs.Container.Checked

/-!
How far positions go. In data of less than 2^63 bytes every chunk that is read starts behind its header and
inside the data, and no position that a reader moves to by itself is close to the end of the 64 bits. Main
statement: whatever operations were called before, with positions of the caller's up to the last one at which
a header can start, no sum and no difference of positions is out of range.
-/

namespace Playprint

open Checked (Agrees Keeps plain)

namespace Chunk

variable {order : ByteOrder} {data : Bytes} {limit pos : Nat} {chunk : Chunk}

/-- A chunk whose payload starts behind its header and no further than the data ends. -/
structure Within (data : Bytes) (chunk : Chunk) : Prop where
  header : chunk.headerLength ≤ chunk.offset
  offset : chunk.offset ≤ data.length

theorem within_of_at? (h : at? order data pos = some chunk) : chunk.Within data := by
  obtain ⟨hoffset, hle⟩ := offset_of_at? h
  exact ⟨by omega, hle⟩

/-- A small distance behind the start of a payload is in range, -/
theorem Within.add_lt (h : chunk.Within data) (hdata : data.length < UInt64.size / 2) {count : Nat}
    (hcount : count < UInt32.size) : chunk.offset + count < UInt64.size := by
  have hroom : UInt64.size / 2 + UInt32.size ≤ UInt64.size := by decide
  have hoffset := h.offset
  omega

/-- and so are the end of the payload -/
theorem Within.stop_lt (h : chunk.Within data) (hdata : data.length < UInt64.size / 2) :
    chunk.offset + chunk.size.toNat < UInt64.size :=
  h.add_lt hdata chunk.size.toNat_lt

/-- and the start of the next chunk, with room for a header. -/
theorem Within.finish_le (h : chunk.Within data) (hdata : data.length < UInt64.size / 2) :
    chunk.finish ≤ lastStart := by
  have hroom : UInt64.size / 2 + UInt32.size ≤ lastStart := by decide
  have hoffset := h.offset
  have hsize : chunk.size.toNat < UInt32.size := chunk.size.toNat_lt
  rw [finish, paddedSize]
  omega

theorem finish_in_range (h : chunk.finish ≤ lastStart) :
    chunk.offset + chunk.paddedSize < UInt64.size :=
  Nat.lt_of_le_of_lt h (by decide)

end Chunk

/-- The data, at a position at which a header can start. -/
structure Stream.InRange (data : Bytes) (stream : Stream) : Prop where
  data_eq : stream.data = data
  pos_le : stream.pos ≤ Chunk.lastStart

/-- The data, at such a position, with chunks of it open. -/
structure Container.InRange (data : Bytes) (container : Container) : Prop where
  stream : container.stream.InRange data
  form : ∀ form, container.form = some form → form.Within data
  list : ∀ list, container.mediaList = some list → list.Within data

namespace Checked

open Chunk (Within lastStart)

variable {data : Bytes} {α : Type}

/-! ### Streams -/

section
variable (hdata : data.length < UInt64.size / 2)
include hdata

theorem length_le : data.length ≤ lastStart :=
  Nat.le_trans (Nat.le_of_lt hdata) (by decide)

omit hdata in
theorem keeps_goto {pos : Nat} (hpos : pos ≤ lastStart) :
    Keeps (Stream.InRange data) (fun _ => True) (Stream.goto pos) :=
  .of_outcome fun _ h => ⟨⟨h.data_eq, hpos⟩, fun _ _ => trivial⟩

omit hdata in
theorem keeps_position : Keeps (Stream.InRange data) (· ≤ lastStart) Stream.position :=
  .get_bind fun _ h => .of_outcome fun _ h' => ⟨h', by rintro _ ⟨⟩; exact h.pos_le⟩

theorem keeps_take (activity : Activity) (count : Nat) :
    Keeps (Stream.InRange data) (fun _ => True) (Stream.take activity count) := by
  refine .of_outcome fun stream h => ⟨?_, fun _ _ => trivial⟩
  have hlength := length_le hdata
  simp only [Stream.take, Step.outcome_of]
  by_cases hcount : count = 0
  · rw [if_pos hcount]
    exact h
  rw [if_neg hcount]
  cases hslice : stream.data.slice? stream.pos count with
  | none => exact ⟨h.data_eq, h.data_eq.symm ▸ hlength⟩
  | some part =>
      have hle := Bytes.le_of_slice? (Nat.pos_of_ne_zero hcount) hslice
      rw [h.data_eq] at hle
      exact ⟨h.data_eq, Nat.le_trans hle hlength⟩

theorem keeps_readWord (order : ByteOrder) :
    Keeps (Stream.InRange data) (fun _ => True) (Stream.readWord order) :=
  (keeps_take hdata _ _).bind fun _ _ => .pure trivial

theorem keeps_readHalf (order : ByteOrder) :
    Keeps (Stream.InRange data) (fun _ => True) (Stream.readHalf order) :=
  (keeps_take hdata _ _).bind fun _ _ => .pure trivial

theorem keeps_detectOrder : Keeps (Stream.InRange data) (fun _ => True) detectOrder := by
  refine keeps_position.bind fun saved hsaved => (keeps_goto (Nat.zero_le _)).bind fun _ _ =>
    (keeps_take hdata _ _).bind fun word _ => (keeps_goto hsaved).bind fun _ _ => ?_
  split
  · exact .pure trivial
  split
  · exact .pure trivial
  · exact .throw _

omit hdata in
/-- What is missing is no less than nothing. -/
theorem agrees_ensureAvailable (start count : Nat) :
    Agrees (Stream.InRange data) (fun _ => True) (ensureAvailable start count)
      (Stream.ensureAvailable start count) := by
  refine .of_outcome fun stream h => ?_
  rw [ensureAvailable, Step.outcome_bind_ok (Step.outcome_get _), plain, Step.outcome_mapError,
    Stream.ensureAvailable, Step.outcome_of]
  by_cases hshort : stream.data.length < Stream.rangeEnd start count
  · simp only [if_pos hshort, difference, difference?, if_pos (Nat.le_of_lt hshort)]
    exact ⟨rfl, h, by rintro _ ⟨⟩⟩
  · simp only [if_neg hshort]
    exact ⟨rfl, h, fun _ _ => trivial⟩

theorem agrees_readHeader (order : ByteOrder) :
    Agrees (Stream.InRange data) (Within data) (readHeader order) (Chunk.readHeader order) := by
  refine .of_outcome fun stream h => ?_
  have hlength := length_le hdata
  have hposition : (plain Stream.position).outcome stream = (.ok stream.pos, stream) := rfl
  rw [readHeader, Step.outcome_bind_ok hposition]
  cases hat : Chunk.at? order stream.data stream.pos with
  | none =>
      have hrun : (Chunk.readHeader order).outcome stream =
          (.error (.io .readingWord .endOfData), stream.seek stream.data.length) := by
        simp only [Chunk.readHeader, Step.outcome_of, hat]
      rw [outcome_plain hrun, hrun]
      exact ⟨Step.outcome_bind_error (outcome_plain hrun), ⟨h.data_eq, h.data_eq.symm ▸ hlength⟩,
        by rintro _ ⟨⟩⟩
  | some chunk =>
      have hrun : (Chunk.readHeader order).outcome stream = (.ok chunk, stream.seek chunk.offset) := by
        simp only [Chunk.readHeader, Step.outcome_of, hat]
      have hoffset := (Chunk.offset_of_at? hat).1
      have hwithin : chunk.Within data := Chunk.within_of_at? (h.data_eq ▸ hat)
      have hle := Nat.le_trans hwithin.offset hlength
      have hsum : stream.pos + chunk.headerLength < UInt64.size :=
        hoffset ▸ Nat.lt_of_le_of_lt hle (by decide)
      rw [outcome_plain hrun, hrun]
      refine ⟨?_, ⟨h.data_eq, hle⟩, by rintro _ ⟨⟩; exact hwithin⟩
      rw [Step.outcome_bind_ok (outcome_plain hrun), sum_bind hsum, ← hoffset]
      rfl

/-- The sum that is checked when a chunk is left is in range. -/
theorem ascend_eq {chunk : Chunk} (h : chunk.Within data) : ascend chunk = plain chunk.ascend :=
  sum_bind (Chunk.finish_in_range (h.finish_le hdata)) _

theorem agrees_ascend {chunk : Chunk} (h : chunk.Within data) :
    Agrees (Stream.InRange data) (fun _ => True) (ascend chunk) chunk.ascend := by
  rw [ascend_eq hdata h]
  exact keeps_goto (h.finish_le hdata)

theorem agrees_readPayload {chunk : Chunk} (h : chunk.Within data) :
    Agrees (Stream.InRange data) (fun _ => True) (readPayload chunk) chunk.readPayload :=
  (agrees_ensureAvailable _ _).bind fun _ _ =>
    (keeps_goto (Nat.le_trans h.offset (length_le hdata))).bind fun _ _ => keeps_take hdata _ _

end

/-! ### Walks -/

theorem sum?_of_lt {a b : Nat} (h : a + b < UInt64.size) : sum? a b = some (a + b) :=
  if_pos h

theorem sum?_start {pos : Nat} (hpos : pos ≤ lastStart) : sum? pos 8 = some (pos + 8) :=
  sum?_of_lt (Nat.lt_of_le_of_lt (Nat.add_le_add_right hpos 8) (by decide))

section
variable {order : ByteOrder} {limit pos : Nat} {chunk : Chunk}

theorem sum?_offset (hdata : data.length < UInt64.size / 2) (hat : Chunk.at? order data pos = some chunk) :
    sum? pos chunk.headerLength = some chunk.offset := by
  have hoffset := (Chunk.offset_of_at? hat).1
  have hlt := (Chunk.within_of_at? hat).add_lt hdata (by decide : 0 < UInt32.size)
  rw [sum?_of_lt (by omega), hoffset]

theorem walk_of_at? {verdict : Chunk → Option Chunk.Verdict} (hdata : data.length < UInt64.size / 2)
    (hpos : pos ≤ lastStart) (hfits : pos + 8 ≤ limit) (hat : Chunk.at? order data pos = some chunk) :
    walk order data limit verdict pos =
      match verdict chunk with
      | none => none
      | some .found => some (.found chunk)
      | some .giveUp => some (.ended chunk.offset)
      | some .skip => walk order data limit verdict chunk.finish := by
  have hfinish := Chunk.finish_in_range ((Chunk.within_of_at? hat).finish_le hdata)
  rw [walk, sum?_start hpos, Option.bind_eq_bind, Option.bind_some, if_pos hfits]
  split
  · rename_i heq
    rw [hat] at heq
    cases heq
  · rename_i found heq
    obtain rfl := Option.some.inj (hat.symm.trans heq)
    simp only [sum?_offset hdata hat, Option.bind_eq_bind, Option.bind_some, sum?_of_lt hfinish]
    rcases verdict chunk with _ | _ | _ | _ <;> rfl

/-- A walk stays in range where its verdicts do. -/
theorem walk_eq (order : ByteOrder) (limit : Nat) {verdict : Chunk → Option Chunk.Verdict}
    {verdict' : Chunk → Chunk.Verdict} (hdata : data.length < UInt64.size / 2) (hpos : pos ≤ lastStart)
    (hverdict : ∀ chunk, chunk.Within data → verdict chunk = some (verdict' chunk)) :
    walk order data limit verdict pos = some (Chunk.walk order data limit verdict' pos) := by
  fun_induction Chunk.walk order data limit verdict' pos with
  | case1 pos hfits hat =>
      rw [walk, sum?_start hpos, Option.bind_eq_bind, Option.bind_some,
        if_pos ((Chunk.headerFits_iff hpos).mp hfits)]
      split
      · rfl
      · rename_i heq
        rw [hat] at heq
        cases heq
  | case2 pos hfits found hat hfound =>
      rw [walk_of_at? hdata hpos ((Chunk.headerFits_iff hpos).mp hfits) hat,
        hverdict found (Chunk.within_of_at? hat), hfound]
  | case3 pos hfits found hat hgiveUp =>
      rw [walk_of_at? hdata hpos ((Chunk.headerFits_iff hpos).mp hfits) hat,
        hverdict found (Chunk.within_of_at? hat), hgiveUp]
  | case4 pos hfits skipped hat hskip ih =>
      have hwithin := Chunk.within_of_at? hat
      rw [walk_of_at? hdata hpos ((Chunk.headerFits_iff hpos).mp hfits) hat, hverdict skipped hwithin,
        hskip]
      exact ih (hwithin.finish_le hdata)
  | case5 pos hfits =>
      rw [walk, sum?_start hpos, Option.bind_eq_bind, Option.bind_some,
        if_neg (fun h => hfits ((Chunk.headerFits_iff hpos).mpr h))]
      rfl

/-- A walk without success ends where a header can start. -/
theorem ended_le {verdict : Chunk → Chunk.Verdict} {stop : Nat} (hdata : data.length < UInt64.size / 2)
    (hpos : pos ≤ lastStart) (h : Chunk.walk order data limit verdict pos = .ended stop) :
    stop ≤ lastStart := by
  fun_induction Chunk.walk order data limit verdict pos with
  | case1 => cases h
  | case2 => cases h
  | case3 pos hfits found hat hgiveUp =>
      cases h
      exact Nat.le_trans (Chunk.within_of_at? hat).offset (length_le hdata)
  | case4 pos hfits skipped hat hskip ih => exact ih ((Chunk.within_of_at? hat).finish_le hdata) h
  | case5 =>
      cases h
      exact hpos

theorem siblings_eq (order : ByteOrder) (limit : Nat) (hdata : data.length < UInt64.size / 2)
    (hpos : pos ≤ lastStart) :
    siblings order data limit pos = some (Chunk.siblings order data limit pos) := by
  fun_induction Chunk.siblings order data limit pos with
  | case1 pos hfits hat =>
      rw [siblings, sum?_start hpos, Option.bind_eq_bind, Option.bind_some,
        if_pos ((Chunk.headerFits_iff hpos).mp hfits)]
      split
      · rfl
      · rename_i heq
        rw [hat] at heq
        cases heq
  | case2 pos hfits found hat ih =>
      have hwithin := Chunk.within_of_at? hat
      have hfinish := hwithin.finish_le hdata
      rw [siblings, sum?_start hpos, Option.bind_eq_bind, Option.bind_some,
        if_pos ((Chunk.headerFits_iff hpos).mp hfits)]
      split
      · rename_i heq
        rw [hat] at heq
        cases heq
      · rename_i other heq
        obtain rfl := Option.some.inj (hat.symm.trans heq)
        simp only [sum?_offset hdata hat, Option.bind_eq_bind, Option.bind_some,
          sum?_of_lt (Chunk.finish_in_range hfinish), ih hfinish]
        rfl
  | case3 pos hfits =>
      rw [siblings, sum?_start hpos, Option.bind_eq_bind, Option.bind_some,
        if_neg (fun h => hfits ((Chunk.headerFits_iff hpos).mpr h))]
      rfl

theorem within_of_mem_siblings {chunks : List Chunk}
    (h : Chunk.siblings order data limit pos = some chunks) : ∀ chunk ∈ chunks, chunk.Within data := by
  fun_induction Chunk.siblings order data limit pos generalizing chunks with
  | case1 => cases h
  | case2 pos hfits found hat ih =>
      obtain ⟨rest, hrest, rfl⟩ := Option.map_eq_some_iff.mp h
      exact List.forall_mem_cons.mpr ⟨Chunk.within_of_at? hat, ih hrest⟩
  | case3 =>
      cases h
      exact List.forall_mem_nil _

end

section
variable (hdata : data.length < UInt64.size / 2)
include hdata

theorem agrees_seekSibling (order : ByteOrder) (limit : Nat) {verdict : Chunk → Option Chunk.Verdict}
    {verdict' : Chunk → Chunk.Verdict} (missing : FormatError)
    (hverdict : ∀ chunk, chunk.Within data → verdict chunk = some (verdict' chunk)) :
    Agrees (Stream.InRange data) (Within data) (seekSibling order limit verdict missing)
      (Chunk.seekSibling order limit verdict' missing) := by
  refine .of_outcome fun stream h => ?_
  have hlength := length_le hdata
  have hsame := walk_eq order limit hdata h.pos_le hverdict
  rw [seekSibling, Step.outcome_bind_ok (Step.outcome_get _), h.data_eq, hsame]
  cases hwalk : Chunk.walk order data limit verdict' stream.pos with
  | found chunk =>
      have hrun : (Chunk.seekSibling order limit verdict' missing).outcome stream =
          (.ok chunk, stream.seek chunk.offset) := by
        simp only [Chunk.seekSibling, Step.outcome_of, h.data_eq, hwalk]
      obtain ⟨start, hat⟩ := Chunk.at?_of_walk hwalk
      have hwithin : chunk.Within data := Chunk.within_of_at? hat
      rw [outcome_plain hrun, hrun]
      exact ⟨rfl, ⟨h.data_eq, Nat.le_trans hwithin.offset hlength⟩, by rintro _ ⟨⟩; exact hwithin⟩
  | ended pos =>
      have hrun : (Chunk.seekSibling order limit verdict' missing).outcome stream =
          (.error missing, stream.seek pos) := by
        simp only [Chunk.seekSibling, Step.outcome_of, h.data_eq, hwalk]
      rw [outcome_plain hrun, hrun]
      exact ⟨rfl, ⟨h.data_eq, ended_le hdata h.pos_le hwalk⟩, by rintro _ ⟨⟩⟩
  | cut =>
      have hrun : (Chunk.seekSibling order limit verdict' missing).outcome stream =
          (.error (.io .readingWord .endOfData), stream.seek data.length) := by
        simp only [Chunk.seekSibling, Step.outcome_of, h.data_eq, hwalk]
      rw [outcome_plain hrun, hrun]
      exact ⟨rfl, ⟨h.data_eq, hlength⟩, by rintro _ ⟨⟩⟩

theorem agrees_seekChild (order : ByteOrder) {parent : Chunk} (name : Tag) (wanted : Chunk → Bool)
    (hparent : parent.Within data) :
    Agrees (Stream.InRange data) (Within data) (seekChild order parent name wanted)
      (Chunk.seekChild order parent name wanted) := by
  refine .sum_bind (hparent.stop_lt hdata) (Agrees.bind (keeps_goto ?_) fun _ _ =>
    agrees_seekSibling hdata _ _ _ fun chunk hchunk => ?_)
  · exact Nat.le_trans hparent.offset (length_le hdata)
  · rw [childVerdict, sum?_of_lt (hchunk.stop_lt hdata)]
    rfl

theorem agrees_descend (order : ByteOrder) (descent : Descent) {parent : Option Chunk}
    (hparent : ∀ chunk, parent = some chunk → chunk.Within data) :
    Agrees (Stream.InRange data) (Within data) (descend order descent parent)
      (Chunk.descend order descent parent) := by
  cases descent with
  | next => exact agrees_readHeader hdata order
  | child tag | list form =>
      cases parent with
      | none => exact .fail _
      | some parent => exact agrees_seekChild hdata order _ _ (hparent parent rfl)
  | outermost form =>
      cases parent with
      | some parent => exact .fail _
      | none =>
          refine Agrees.bind (keeps_goto (Nat.zero_le _)) fun _ _ =>
            (agrees_readHeader hdata order).bind fun chunk hchunk => ?_
          refine .ite (fun _ => .fail_bind _ _ _) fun _ => ?_
          exact .ite (fun _ => .fail_bind _ _ _) fun _ => .pure hchunk

/-- A body that agrees where the chunk was entered is closed in range. -/
theorem outcome_visit (order : ByteOrder) (descent : Descent) {parent : Option Chunk}
    (hparent : ∀ chunk, parent = some chunk → chunk.Within data) {stream : Stream}
    (hstream : stream.InRange data) {body : Chunk → Checked Stream α} {body' : Chunk → Reading α}
    (hbody : ∀ chunk entered, (Chunk.descend order descent parent).outcome stream = (.ok chunk, entered) →
      (body chunk).outcome entered = (plain (body' chunk)).outcome entered) :
    (visit order descent parent body).outcome stream =
      (plain (Chunk.visit order descent parent body')).outcome stream := by
  obtain ⟨hsame, _, hanswer⟩ := (agrees_descend hdata order descent hparent).ends hstream
  rw [visit, Chunk.visit, plain_bind]
  rcases hdescend : (Chunk.descend order descent parent).outcome stream with ⟨e | chunk, entered⟩
  · rw [outcome_plain hdescend] at hsame
    rw [Step.outcome_bind_error hsame, Step.outcome_bind_error (outcome_plain hdescend)]
  · rw [outcome_plain hdescend] at hsame
    rw [hdescend] at hanswer
    rw [Step.outcome_bind_ok hsame, Step.outcome_bind_ok (outcome_plain hdescend), plain_closing,
      ascend_eq hdata (hanswer chunk rfl)]
    simp only [Step.closing, Step.outcome_of, hbody chunk entered hdescend]

end

/-! ### Containers -/

theorem agrees_onStream {P : α → Prop} {checked : Checked Stream α} {reading : Reading α}
    (h : Agrees (Stream.InRange data) P checked reading) :
    Agrees (Container.InRange data) P (onStream checked) (Container.onStream reading) := by
  refine .of_outcome fun container hcontainer => ?_
  obtain ⟨hsame, hleft, hanswer⟩ := h.ends hcontainer.stream
  refine ⟨?_, ⟨hleft, hcontainer.form, hcontainer.list⟩, hanswer⟩
  rw [onStream, Step.outcome_on, hsame]
  rfl

theorem keeps_onStream {P : α → Prop} {reading : Reading α} (h : Keeps (Stream.InRange data) P reading) :
    Keeps (Container.InRange data) P (Container.onStream reading) := by
  refine .of_outcome fun container hcontainer => ?_
  obtain ⟨_, hleft, hanswer⟩ := h.ends hcontainer.stream
  exact ⟨⟨hleft, hcontainer.form, hcontainer.list⟩, hanswer⟩

theorem keeps_openedForm : Keeps (Container.InRange data) (Within data) Container.openedForm := by
  refine .get_bind fun container h => ?_
  cases hform : container.form with
  | none => exact .throw _
  | some form => exact .pure (h.form form hform)

theorem keeps_openMediaList : Keeps (Container.InRange data) (Within data) Container.openMediaList := by
  refine .get_bind fun container h => ?_
  cases hlist : container.mediaList with
  | none => exact .throw _
  | some list => exact .pure (h.list list hlist)

/-- Table entries are numbers of 32 bits. -/
theorem keeps_tocOffset (index : Nat) :
    Keeps (Container.InRange data) (· ≤ lastStart) (Container.tocOffset index) := by
  refine .get_bind fun container h => ?_
  cases container.toc with
  | none => exact .throw _
  | some toc =>
      refine .ofExcept _ fun offset hoffset => ?_
      rw [Toc.offset] at hoffset
      split at hoffset
      · cases hoffset
      split at hoffset
      · cases hoffset
      · rename_i entry _ _
        cases hoffset
        have hroom : UInt32.size ≤ lastStart := by decide
        exact Nat.le_trans (Nat.le_of_lt entry.offset.toNat_lt) hroom

theorem keeps_pendingTable : Keeps (Container.InRange data) (fun _ => True) Container.pendingTable := by
  refine .get_bind fun container h => ?_
  split
  · exact .pure trivial
  · exact .throw _

theorem keeps_beginToc (reserved : Nat) :
    Keeps (Container.InRange data) (fun _ => True) (Container.beginToc reserved) :=
  (Keeps.ofExcept (P := fun _ => True) _ fun _ _ => trivial).bind fun _ _ =>
    .modify fun _ h => ⟨h.stream, h.form, h.list⟩

theorem keeps_addTocEntry (label offset : UInt32) :
    Keeps (Container.InRange data) (fun _ => True) (Container.addTocEntry label offset) := by
  refine keeps_pendingTable.bind fun toc _ =>
    (Keeps.ofExcept (P := fun _ => True) _ fun _ _ => trivial).bind fun ⟨index, table⟩ _ => ?_
  exact Keeps.bind (.modify fun _ h => ⟨h.stream, h.form, h.list⟩) fun _ _ => .pure trivial

theorem keeps_endToc : Keeps (Container.InRange data) (fun _ => True) Container.endToc :=
  keeps_pendingTable.bind fun _ _ =>
    Keeps.bind (.modify fun _ h => ⟨h.stream, h.form, h.list⟩) fun _ _ => .pure trivial

section
variable (hdata : data.length < UInt64.size / 2)
include hdata

theorem keeps_readContainerWord : Keeps (Container.InRange data) (fun _ => True) Container.readWord :=
  .get_bind fun _ _ => keeps_onStream (keeps_readWord hdata _)

theorem agrees_enter (descent : Descent) {parent : Option Chunk}
    (hparent : ∀ chunk, parent = some chunk → chunk.Within data) :
    Agrees (Container.InRange data) (Within data) (enter descent parent)
      (Container.descend descent parent) :=
  .get_bind fun _ _ => agrees_onStream (agrees_descend hdata _ _ hparent)

theorem agrees_leave {chunk : Chunk} (h : chunk.Within data) :
    Agrees (Container.InRange data) (fun _ => True) (onStream (ascend chunk)) (Container.ascend chunk) :=
  agrees_onStream (agrees_ascend hdata h)

theorem agrees_inside {P : α → Prop} {chunk : Chunk} {body : Checked Container α}
    {body' : ContainerStep α} (h : chunk.Within data) (hbody : Agrees (Container.InRange data) P body body') :
    Agrees (Container.InRange data) P (inside chunk body) (Container.inside chunk body') :=
  hbody.closing (agrees_leave hdata h)

theorem agrees_openForm :
    Agrees (Container.InRange data) (fun _ => True) openForm Container.openForm := by
  refine (agrees_enter hdata _ (by rintro _ ⟨⟩)).bind fun form hform => Keeps.modify fun container h => ?_
  exact ⟨h.stream, by rintro _ ⟨⟩; exact hform, h.list⟩

theorem agrees_close : Agrees (Container.InRange data) (fun _ => True) close Container.close := by
  refine Agrees.bind keeps_openedForm fun form hform => Agrees.bind (Keeps.modify fun _ h => ?_) fun _ _ =>
    (agrees_leave hdata hform).bind fun _ _ => ?_
  · exact ⟨h.stream, by rintro _ ⟨⟩, h.list⟩
  · exact (keeps_onStream keeps_position).mono fun _ _ => trivial

theorem agrees_expectNext (expected : Tag) :
    Agrees (Container.InRange data) (Within data) (expectNext expected)
      (Container.expectNext expected) :=
  (agrees_enter hdata _ (by rintro _ ⟨⟩)).bind fun _ hchunk =>
    .ite (fun _ => .pure hchunk) fun _ => (agrees_leave hdata hchunk).bind fun _ _ => .fail _

theorem keeps_decodeHeader : Keeps (Container.InRange data) (fun _ => True) Container.decodeHeader :=
  (keeps_readContainerWord hdata).bind fun _ _ => (keeps_readContainerWord hdata).bind fun _ _ =>
    .pure trivial

theorem keeps_decodeInfo : Keeps (Container.InRange data) (fun _ => True) Container.decodeInfo :=
  (keeps_readContainerWord hdata).bind fun _ _ => (keeps_readContainerWord hdata).bind fun _ _ =>
    (keeps_readContainerWord hdata).bind fun _ _ => .pure trivial

theorem agrees_readHeaderChunk :
    Agrees (Container.InRange data) (fun _ => True) readHeaderChunk Container.readHeader := by
  refine Agrees.bind keeps_openedForm fun _ _ => (agrees_expectNext hdata _).bind fun _ hchunk => ?_
  refine Agrees.bind (agrees_inside hdata hchunk (keeps_decodeHeader hdata)) fun header _ =>
    Agrees.bind (Keeps.modify fun _ h => ?_) fun _ _ => .pure trivial
  exact ⟨h.stream, h.form, h.list⟩

theorem keeps_readTocEntry : Keeps (Container.InRange data) (fun _ => True) Container.readTocEntry :=
  (keeps_readContainerWord hdata).bind fun _ _ => (keeps_readContainerWord hdata).bind fun _ _ =>
    keeps_addTocEntry _ _

theorem agrees_decodeToc {chunk : Chunk} (h : chunk.Within data) :
    Agrees (Container.InRange data) (fun _ => True) (decodeToc chunk) (Container.decodeToc chunk) := by
  refine Agrees.bind (keeps_readContainerWord hdata) fun count _ => ?_
  have hoffset : chunk.offset + 4 < UInt64.size := h.add_lt hdata (by decide)
  refine .ite (fun _ => .sum_bind hoffset (.fail_bind _ _ _)) fun _ => ?_
  exact Agrees.bind (keeps_beginToc _) fun _ _ =>
    Agrees.bind ((keeps_readTocEntry hdata).times _) fun _ _ => keeps_endToc

theorem agrees_readToc : Agrees (Container.InRange data) (fun _ => True) readToc Container.readToc :=
  Agrees.bind keeps_openedForm fun _ _ => (agrees_expectNext hdata _).bind fun _ hchunk =>
    agrees_inside hdata hchunk (agrees_decodeToc hdata hchunk)

theorem agrees_readSection (tag : Tag) (use : Bytes → Except FormatError α) :
    Agrees (Container.InRange data) (fun _ => True) (readSection tag use) (Container.readSection tag use) := by
  refine Agrees.bind keeps_openedForm fun form hform => .get_bind fun container _ =>
    .sum_bind (hform.stop_lt hdata) ?_
  refine (agrees_onStream (agrees_seekSibling hdata _ _ _ fun _ _ => rfl)).bind fun chunk hchunk => ?_
  exact (agrees_inside hdata hchunk (agrees_onStream (agrees_readPayload hdata hchunk))).bind fun _ _ =>
    Keeps.ofExcept _ fun _ _ => trivial

theorem agrees_readChunkAt (index : Nat) (expected : Tag) :
    Agrees (Container.InRange data) (fun _ => True) (readChunkAt index expected)
      (Container.readChunkAt index expected) :=
  Agrees.bind (keeps_tocOffset index) fun _ hoffset =>
    Agrees.bind (keeps_onStream (keeps_goto hoffset)) fun _ _ =>
      (agrees_expectNext hdata expected).bind fun _ hchunk =>
        agrees_inside hdata hchunk (agrees_onStream (agrees_readPayload hdata hchunk))

theorem agrees_beginMediaList :
    Agrees (Container.InRange data) (fun _ => True) beginMediaList Container.beginMediaList := by
  refine (agrees_expectNext hdata _).bind fun list hlist => ?_
  refine .ite (fun _ => (agrees_leave hdata hlist).bind fun _ _ => .fail_bind _ _ _) fun _ => ?_
  refine Agrees.bind (Keeps.modify fun _ h => ?_) fun _ _ =>
    (agrees_enter hdata _ ?_).bind fun _ hchunk => agrees_inside hdata hchunk (keeps_decodeInfo hdata)
  · exact ⟨h.stream, h.form, by rintro _ ⟨⟩; exact hlist⟩
  · rintro _ ⟨⟩
    exact hlist

theorem agrees_decodeMedia {chunk : Chunk} (h : chunk.Within data) :
    Agrees (Container.InRange data) (fun _ => True) (decodeMedia chunk) (Container.decodeMedia chunk) := by
  have hoffset : chunk.offset + 12 < UInt64.size := h.add_lt hdata (by decide)
  refine Agrees.bind (keeps_readContainerWord hdata) fun _ _ =>
    Agrees.bind (keeps_readContainerWord hdata) fun _ _ =>
      Agrees.bind (keeps_readContainerWord hdata) fun size _ => ?_
  refine .ite (fun _ => .sum_bind hoffset (.fail_bind _ _ _)) fun _ => .sum_bind hoffset ?_
  exact (agrees_onStream (agrees_ensureAvailable _ _)).bind fun _ _ =>
    Agrees.bind (keeps_onStream (keeps_take hdata _ _)) fun _ _ => .pure trivial

theorem agrees_readMedia :
    Agrees (Container.InRange data) (fun _ => True) readMedia Container.readMedia := by
  refine Agrees.bind keeps_openMediaList fun list hlist => .sum_bind (hlist.stop_lt hdata) ?_
  refine Agrees.bind (keeps_onStream keeps_position) fun pos hpos => ?_
  have hnext : pos + 8 < UInt64.size := Nat.lt_of_le_of_lt (Nat.add_le_add_right hpos 8) (by decide)
  refine .sum_bind hnext ?_
  have hread := (agrees_expectNext hdata Tag.mref).bind fun chunk hchunk =>
    agrees_inside hdata hchunk (agrees_decodeMedia hdata hchunk)
  by_cases hfits : pos + 8 ≤ list.stop
  · have hheader := (Chunk.headerFits_iff hpos).mpr hfits
    simp only [hheader, Bool.not_true, Bool.false_eq_true, if_false]
    exact (if_neg (Nat.not_lt.mpr hfits)).symm ▸ hread
  · have hheader : Chunk.headerFits pos list.stop = false :=
      Bool.eq_false_iff.mpr (mt (Chunk.headerFits_iff hpos).mp hfits)
    simp only [hheader, Bool.not_false, if_true]
    exact (if_pos (Nat.lt_of_not_le hfits)).symm ▸ .fail_bind _ _ _

theorem agrees_endMediaList :
    Agrees (Container.InRange data) (fun _ => True) endMediaList Container.endMediaList := by
  refine Agrees.bind keeps_openMediaList fun list hlist =>
    Agrees.bind (Keeps.modify fun _ h => ?_) fun _ _ => agrees_leave hdata hlist
  exact ⟨h.stream, h.form, by rintro _ ⟨⟩⟩

theorem outcome_abandonMediaList {container : Container} (h : container.InRange data) :
    abandonMediaList.outcome container = (.ok (), Container.abandonMediaList container) ∧
      (Container.abandonMediaList container).InRange data := by
  rw [abandonMediaList, Step.outcome_bind_ok (Step.outcome_get _), Container.abandonMediaList]
  cases hlist : container.mediaList with
  | none => exact ⟨rfl, h⟩
  | some list =>
      have hwithin := h.list list hlist
      refine ⟨?_, ⟨h.stream.data_eq, hwithin.finish_le hdata⟩, h.form, by rintro _ ⟨⟩⟩
      dsimp only
      rw [ascend_eq hdata hwithin]
      rfl

theorem agrees_enterMediaList :
    Agrees (Container.InRange data) (fun _ => True) enterMediaList Container.enterMediaList := by
  refine .of_outcome fun container h => ?_
  obtain ⟨hsame, hleft, _⟩ := (agrees_beginMediaList hdata).ends h
  rw [enterMediaList, Step.outcome_of, hsame]
  rcases hbegin : Container.beginMediaList.outcome container with ⟨e | info, left⟩ <;>
    rw [hbegin] at hleft <;> rw [outcome_plain hbegin]
  · obtain ⟨habandon, hrange⟩ := outcome_abandonMediaList hdata hleft
    have hrun : Container.enterMediaList.outcome container = (.error e, left.abandonMediaList) :=
      Step.outcome_onFailure_error hbegin
    rw [outcome_plain hrun, hrun]
    exact ⟨Step.outcome_bind_ok habandon, hrange, by rintro _ ⟨⟩⟩
  · have hrun : Container.enterMediaList.outcome container = (.ok info, left) :=
      Step.outcome_onFailure_ok hbegin
    rw [outcome_plain hrun, hrun]
    exact ⟨rfl, hleft, fun _ _ => trivial⟩

/-- A body that agrees where the list was entered, and leaves chunks of the data open, is closed in range. -/
theorem outcome_withMediaList {container : Container} (h : container.InRange data)
    {body : MediaInfo → Checked Container α} {body' : MediaInfo → ContainerStep α}
    (hbody : ∀ info entered, Container.enterMediaList.outcome container = (.ok info, entered) →
      (body info).outcome entered = (plain (body' info)).outcome entered ∧
        ((body' info).outcome entered).2.InRange data) :
    (withMediaList body).outcome container = (plain (Container.withMediaList body')).outcome container := by
  obtain ⟨hsame, _, _⟩ := (agrees_enterMediaList hdata).ends h
  rw [withMediaList, Container.withMediaList, plain_bind]
  rcases henter : Container.enterMediaList.outcome container with ⟨e | info, entered⟩
  · rw [outcome_plain henter] at hsame
    rw [Step.outcome_bind_error hsame, Step.outcome_bind_error (outcome_plain henter)]
  · rw [outcome_plain henter] at hsame
    obtain ⟨hrun, hrange⟩ := hbody info entered henter
    have hclose := (agrees_endMediaList hdata).outcome_eq hrange
    rw [Step.outcome_bind_ok hsame, Step.outcome_bind_ok (outcome_plain henter), plain_closing]
    simp only [Step.closing, Step.outcome_of, hrun]
    simp only [plain, Step.outcome_mapError] at hclose ⊢
    rw [hclose]

theorem agrees_topLevelChunks :
    Agrees (Container.InRange data) (fun chunks => ∀ chunk ∈ chunks, chunk.Within data) topLevelChunks
      Container.topLevelChunks := by
  refine Agrees.bind keeps_openedForm fun form hform => .get_bind fun container h => ?_
  have hlength := length_le hdata
  have hsame := siblings_eq container.order form.stop hdata
    (Nat.le_trans hform.offset hlength)
  refine .sum_bind (hform.stop_lt hdata) ?_
  rw [h.stream.data_eq, ← Chunk.stop, hsame]
  cases hlist : Chunk.siblings container.order data form.stop form.offset with
  | none => exact Agrees.bind (keeps_onStream (keeps_goto hlength)) fun _ _ => .fail _
  | some chunks => exact .pure (within_of_mem_siblings hlist)

end

end Checked

end Playprint
