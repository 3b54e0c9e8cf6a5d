import Playprint.Proofs.Container.Confinement

/-!
What a failed reading of the table of contents leaves behind. The entries of a table go into the table under
construction one by one, and it is installed when all of them are there. Main statement: the installed table
survives every failure; the table under construction survives all but one, the data ending among the entries,
which puts the entries read so far in its place, and only then can later calls tell that there was a failure.
-/

namespace Playprint

namespace Chunk

variable {order : ByteOrder} {data : Bytes} {pos : Nat}

/-- The entries of a table of contents that are in the data, out of `count` from a position on. -/
def tocEntriesAt (order : ByteOrder) (data : Bytes) (pos : Nat) : Nat → List TocEntry
  | 0 => []
  | count + 1 =>
    match wordAt? order data pos, wordAt? order data (pos + 4) with
    | some label, some offset => ⟨label, offset⟩ :: tocEntriesAt order data (pos + 8) count
    | _, _ => []

theorem tocEntriesAt_next {label offset : UInt32} (hlabel : wordAt? order data pos = some label)
    (hoffset : wordAt? order data (pos + 4) = some offset) (count : Nat) :
    tocEntriesAt order data pos (count + 1) =
      ⟨label, offset⟩ :: tocEntriesAt order data (pos + 8) count := by
  simp only [tocEntriesAt, hlabel, hoffset]

theorem tocEntriesAt_short (h : data.length < pos + 8) (count : Nat) :
    tocEntriesAt order data pos count = [] := by
  cases count with
  | zero => rfl
  | succ count =>
      have hoffset : wordAt? order data (pos + 4) = none := wordAt?_eq_none_iff.mpr h
      rw [tocEntriesAt, hoffset]
      split
      · rename_i heq
        cases heq
      · rfl

end Chunk

namespace Container

variable {container left other : Container} {chunk : Chunk} {count : UInt32} {pos reserved : Nat}
  {done : Array TocEntry} {error : FormatError}

/-! ### Reading entries -/

theorem outcome_readTocEntry_short (hshort : container.stream.data.length < pos + 8) :
    readTocEntry.outcome (container.moved pos) =
      (.error (.io .readingWord .endOfData), container.moved container.stream.data.length) := by
  rw [readTocEntry]
  cases hlabel : Chunk.wordAt? container.order container.stream.data pos with
  | none => exact Step.outcome_bind_error (outcome_readWord_none hlabel)
  | some label =>
      rw [Step.outcome_bind_ok (outcome_readWord_some hlabel)]
      exact Step.outcome_bind_error (outcome_readWord_none (Chunk.wordAt?_eq_none_iff.mpr hshort))

/-- An entry that is in the data is appended to the table under construction. -/
theorem exists_outcome_readTocEntry (hroom : done.size < reserved)
    (hinside : pos + 8 ≤ container.stream.data.length) :
    ∃ entry, (∀ count, Chunk.tocEntriesAt container.order container.stream.data pos (count + 1) =
        entry :: Chunk.tocEntriesAt container.order container.stream.data (pos + 8) count) ∧
      readTocEntry.outcome ((container.withPending ⟨reserved, done⟩).moved pos) =
        (.ok (UInt32.ofNat done.size),
          (container.withPending ⟨reserved, done.push entry⟩).moved (pos + 8)) := by
  have hfirst : pos + 4 ≤ container.stream.data.length := by omega
  obtain ⟨label, hlabel⟩ := Chunk.exists_wordAt? container.order hfirst
  obtain ⟨offset, hoffset⟩ := Chunk.exists_wordAt? container.order hinside
  exact ⟨⟨label, offset⟩, Chunk.tocEntriesAt_next hlabel hoffset,
    outcome_readTocEntry hroom hlabel hoffset⟩

/-- When the data ends among the entries, those before its end have been appended; -/
theorem outcome_times_readTocEntry_short (count : Nat) (hroom : done.size + count ≤ reserved)
    (hpos : pos ≤ container.stream.data.length)
    (hshort : container.stream.data.length < pos + 8 * count) :
    (Step.times readTocEntry count).outcome ((container.withPending ⟨reserved, done⟩).moved pos) =
      (.error (.io .readingWord .endOfData),
        (container.withPending ⟨reserved, done ++
          (Chunk.tocEntriesAt container.order container.stream.data pos count).toArray⟩).moved
          container.stream.data.length) := by
  induction count generalizing pos done with
  | zero => exact absurd hshort (Nat.not_lt.mpr hpos)
  | succ count ih =>
      rw [Step.times]
      by_cases hinside : pos + 8 ≤ container.stream.data.length
      · obtain ⟨entry, hentries, hread⟩ :=
          exists_outcome_readTocEntry (by omega : done.size < reserved) hinside
        have hroomRest : (done.push entry).size + count ≤ reserved := by
          rw [Array.size_push]
          omega
        have hrest := ih hroomRest hinside (by omega)
        rw [Step.outcome_bind_ok hread, Step.outcome_bind_error hrest, hentries]
        simp
      · have hread : readTocEntry.outcome ((container.withPending ⟨reserved, done⟩).moved pos) = _ :=
          outcome_readTocEntry_short (Nat.lt_of_not_le hinside)
        rw [Step.outcome_bind_error hread, Chunk.tocEntriesAt_short (Nat.lt_of_not_le hinside)]
        simp [withPending]

/-- otherwise all of them have. -/
theorem outcome_times_readTocEntry_whole (count : Nat) (hroom : done.size + count ≤ reserved)
    (hinside : pos + 8 * count ≤ container.stream.data.length) :
    ∃ indices, (Step.times readTocEntry count).outcome
        ((container.withPending ⟨reserved, done⟩).moved pos) =
      (.ok indices, (container.withPending ⟨reserved, done ++
        (Chunk.tocEntriesAt container.order container.stream.data pos count).toArray⟩).moved
        (pos + 8 * count)) := by
  induction count generalizing pos done with
  | zero => exact ⟨[], by simp [Step.times, Chunk.tocEntriesAt]⟩
  | succ count ih =>
      obtain ⟨entry, hentries, hread⟩ :=
        exists_outcome_readTocEntry (by omega : done.size < reserved)
          (by omega : pos + 8 ≤ container.stream.data.length)
      have hroomRest : (done.push entry).size + count ≤ reserved := by
        rw [Array.size_push]
        omega
      obtain ⟨indices, hrest⟩ := ih hroomRest (by omega : pos + 8 + 8 * count ≤ _)
      refine ⟨UInt32.ofNat done.size :: indices, ?_⟩
      rw [Step.times, Step.outcome_bind_ok hread, Step.outcome_bind_ok hrest, Step.outcome_pure, hentries,
        show pos + 8 + 8 * count = pos + 8 * (count + 1) by omega]
      simp

/-! ### Reading the table -/

/-- The table of contents that is next in the stream is torn: its chunk has room for the entries it counts,
and the data ends among them. -/
structure Torn (container : Container) (chunk : Chunk) (count : UInt32) : Prop where
  opened : container.form.isSome
  next : container.Next Tag.toc chunk
  counted : Chunk.wordAt? container.order container.stream.data chunk.offset = some count
  nonempty : count ≠ 0
  room : count.toNat ≤ (chunk.size.toNat - 4) / 8
  short : container.stream.data.length < chunk.offset + 4 + 8 * count.toNat

/-- What was read of a torn table. -/
def tornTable (container : Container) (chunk : Chunk) (count : UInt32) : Toc :=
  ⟨count.toNat, (Chunk.tocEntriesAt container.order container.stream.data (chunk.offset + 4)
    count.toNat).toArray⟩

theorem outcome_decodeToc_torn (h : container.Torn chunk count) :
    (decodeToc chunk).outcome (container.moved chunk.offset) =
      (.error (.io .readingWord .endOfData),
        (container.withPending (container.tornTable chunk count)).moved
          container.stream.data.length) := by
  have hbegin := outcome_beginToc container (chunk.offset + 4)
    (fun hzero => h.nonempty (UInt32.toNat_inj.mp hzero))
  have hroom : (#[] : Array TocEntry).size + count.toNat ≤ count.toNat := by simp
  have hentries :=
    outcome_times_readTocEntry_short count.toNat hroom (Chunk.le_of_wordAt? h.counted) h.short
  rw [decodeToc, Step.outcome_bind_ok (outcome_readWord_some h.counted)]
  simp only [if_neg (Nat.not_lt.mpr h.room)]
  rw [Step.outcome_bind_ok hbegin]
  refine (Step.outcome_bind_error hentries).trans ?_
  rw [Array.empty_append, tornTable]

/-- Where the table is not torn, a failure changes nothing but the position. -/
theorem decodeToc_error (hopened : container.form.isSome) (hnext : container.Next Tag.toc chunk)
    (hwhole : ∀ count, ¬container.Torn chunk count)
    (h : (decodeToc chunk).outcome (container.moved chunk.offset) = (.error error, left)) :
    ∃ next, left = container.moved next := by
  cases hcount : Chunk.wordAt? container.order container.stream.data chunk.offset with
  | none =>
      rw [decodeToc, Step.outcome_bind_error (outcome_readWord_none hcount)] at h
      cases h
      exact ⟨_, rfl⟩
  | some count =>
      rw [decodeToc, Step.outcome_bind_ok (outcome_readWord_some hcount)] at h
      dsimp only at h
      split at h
      · cases h
        exact ⟨_, rfl⟩
      rename_i hroom
      by_cases hempty : count = 0
      · subst hempty
        cases h
        exact ⟨_, rfl⟩
      have hinside : chunk.offset + 4 + 8 * count.toNat ≤ container.stream.data.length :=
        Nat.le_of_not_lt fun hshort =>
          hwhole count ⟨hopened, hnext, hcount, hempty, Nat.le_of_not_lt hroom, hshort⟩
      have hbegin := outcome_beginToc container (chunk.offset + 4)
        (fun hzero => hempty (UInt32.toNat_inj.mp hzero))
      have hreserved : (#[] : Array TocEntry).size + count.toNat ≤ count.toNat := by simp
      obtain ⟨indices, hentries⟩ := outcome_times_readTocEntry_whole count.toNat hreserved hinside
      rw [Step.outcome_bind_ok hbegin] at h
      cases (Step.outcome_bind_ok hentries).symm.trans h

/-- A torn table fails, and what was read of it is under construction. -/
theorem Torn.outcome_readToc (h : container.Torn chunk count) :
    readToc.outcome container = (.error (.io .readingWord .endOfData),
      (container.withPending (container.tornTable chunk count)).moved chunk.finish) := by
  obtain ⟨form, hform⟩ := Option.isSome_iff_exists.mp h.opened
  have hopen : openedForm.outcome container = (.ok form, container) :=
    outcome_openedForm container.stream.pos hform
  have hread := outcome_reading Tag.toc decodeToc h.next.1 h.next.2
  rw [outcome_decodeToc_torn h] at hread
  rw [readToc_eq, Step.outcome_bind_ok hopen]
  exact hread

/-- Any other failure changes nothing but the position. -/
theorem readToc_error (hwhole : ∀ chunk count, ¬container.Torn chunk count)
    (h : readToc.outcome container = (.error error, left)) : ∃ next, left = container.moved next := by
  rw [readToc_eq] at h
  cases hform : container.form with
  | none =>
      rw [Step.outcome_bind_error (outcome_openedForm_none hform)] at h
      cases h
      exact ⟨container.stream.pos, rfl⟩
  | some form =>
      have hopen : openedForm.outcome container = (.ok form, container) :=
        outcome_openedForm container.stream.pos hform
      rw [Step.outcome_bind_ok hopen] at h
      change (reading Tag.toc decodeToc).outcome (container.moved container.stream.pos) = _ at h
      cases hat : Chunk.at? container.order container.stream.data container.stream.pos with
      | none =>
          rw [outcome_reading_cut Tag.toc decodeToc hat] at h
          cases h
          exact ⟨_, rfl⟩
      | some chunk =>
          by_cases htag : chunk.tag = Tag.toc
          · rw [outcome_reading Tag.toc decodeToc hat htag] at h
            obtain ⟨hanswer, rfl⟩ := Prod.mk.inj h
            obtain ⟨next, hnext⟩ := decodeToc_error (by rw [hform]; rfl) ⟨hat, htag⟩ (hwhole chunk)
              (Prod.ext hanswer rfl)
            exact ⟨chunk.finish, congrArg (·.moved chunk.finish) hnext⟩
          · rw [outcome_reading_other Tag.toc decodeToc hat htag] at h
            cases h
            exact ⟨_, rfl⟩

/-! ### Calls afterwards -/

/-- A look at the installed table of contents, or a call that goes on with the one under construction. -/
inductive TocCall
  /-- The installed table. -/
  | table
  /-- Appends an entry. -/
  | add (label start : UInt32)
  /-- Installs the table under construction. -/
  | finish
  /-- Where the chunk of an entry starts. -/
  | offset (index : Nat)

/-- What such a call answers. -/
inductive TocReply
  | table (toc : Option Toc)
  | number (value : Nat)

/-- Runs a call. -/
def TocCall.run : TocCall → ContainerStep TocReply
  | .table => do return .table (← get).toc
  | .add label start => do return .number (← addTocEntry label start)
  | .finish => do return .number (← endToc)
  | .offset index => do return .number (← tocOffset index)

/-- What calls answer one after another. A call that fails stops none of those behind it. -/
def tocReplies (container : Container) : List TocCall → List (Except FormatError TocReply)
  | [] => []
  | call :: rest => (call.run.outcome container).1 :: tocReplies (call.run.outcome container).2 rest

/-- The same tables, installed and under construction. -/
def SameTables (one other : Container) : Prop :=
  one.toc = other.toc ∧ one.pendingToc = other.pendingToc

open Step (Paired Same)

theorem paired_pendingTable : Paired SameTables (Same SameTables) SameTables pendingTable pendingTable := by
  refine .get_bind fun s t h => ?_
  rw [h.2]
  cases t.pendingToc with
  | none => exact .error h
  | some toc => exact .ok ⟨rfl, h⟩

theorem paired_tables_modify {f : Container → Container}
    (h : ∀ s t, SameTables s t → SameTables (f s) (f t)) :
    Paired SameTables (Same SameTables) SameTables (modify f : ContainerStep PUnit) (modify f) :=
  .modify fun s t hst => ⟨rfl, h s t hst⟩

theorem paired_tables_pure {α : Type} (a : α) :
    Paired SameTables (Same SameTables) SameTables (pure a : ContainerStep α) (pure a) :=
  .pure fun _ _ h => ⟨rfl, h⟩

/-- A call does alike on the same tables. -/
theorem paired_run (call : TocCall) :
    Paired SameTables (Same SameTables) SameTables call.run call.run := by
  cases call with
  | table =>
      intro s t h
      exact .ok ⟨congrArg TocReply.table h.1, h⟩
  | add label start =>
      refine Paired.bind_same ?_ fun _ => paired_tables_pure _
      refine paired_pendingTable.bind_same fun toc => (Paired.ofExcept _).bind_same fun ⟨_, added⟩ => ?_
      refine Paired.bind_same (paired_tables_modify ?_) fun _ => paired_tables_pure _
      exact fun _ _ h => ⟨h.1, rfl⟩
  | finish =>
      refine Paired.bind_same ?_ fun _ => paired_tables_pure _
      refine paired_pendingTable.bind_same fun toc => ?_
      refine Paired.bind_same (paired_tables_modify ?_) fun _ => paired_tables_pure _
      exact fun _ _ _ => ⟨rfl, rfl⟩
  | offset index =>
      refine Paired.bind_same (.get_bind fun s t h => ?_) fun _ => paired_tables_pure _
      rw [h.1]
      cases t.toc with
      | none => exact .error h
      | some toc => exact Paired.ofExcept (toc.offset index) s t h

theorem tocReplies_congr (calls : List TocCall) (h : SameTables container other) :
    container.tocReplies calls = other.tocReplies calls := by
  induction calls generalizing container other with
  | nil => rfl
  | cons call rest ih =>
      rw [tocReplies, tocReplies]
      rcases (paired_run call container other h).ends with
        ⟨reply, _, s, t, hone, hother, rfl, hleft⟩ | ⟨e, s, t, hone, hother, hleft⟩
      · rw [hone, hother, ih hleft]
      · rw [hone, hother, ih hleft]

theorem outcome_pendingTable_some {toc : Toc} (h : container.pendingToc = some toc) :
    pendingTable.outcome container = (.ok toc, container) := by
  rw [pendingTable, Step.outcome_bind_ok (Step.outcome_get _), h]
  rfl

theorem outcome_pendingTable_none (h : container.pendingToc = none) :
    pendingTable.outcome container = (.error .tocUnavailable, container) := by
  rw [pendingTable, Step.outcome_bind_ok (Step.outcome_get _), h]
  rfl

theorem outcome_endToc_none (h : container.pendingToc = none) :
    endToc.outcome container = (.error .tocUnavailable, container) := by
  rw [endToc, Step.outcome_bind_error (outcome_pendingTable_none h)]

theorem outcome_endToc_some {toc : Toc} (h : container.pendingToc = some toc) :
    endToc.outcome container = (.ok toc.size, { container with pendingToc := none, toc := some toc }) := by
  rw [endToc, Step.outcome_bind_ok (outcome_pendingTable_some h)]
  rfl

/-- Installing the table under construction and looking at it shows whether there was one, and all of it. -/
theorem tocReplies_finish_table (container : Container) :
    container.tocReplies [.finish, .table] =
      match container.pendingToc with
      | some toc => [.ok (.number toc.size), .ok (.table (some toc))]
      | none => [.error .tocUnavailable, .ok (.table container.toc)] := by
  cases hpending : container.pendingToc with
  | none =>
      have hfinish : TocCall.finish.run.outcome container = (.error .tocUnavailable, container) :=
        Step.outcome_bind_error (outcome_endToc_none hpending)
      simp only [tocReplies, hfinish]
      rfl
  | some toc =>
      have hfinish : TocCall.finish.run.outcome container =
          (.ok (.number toc.size), { container with pendingToc := none, toc := some toc }) :=
        Step.outcome_bind_ok (outcome_endToc_some hpending)
      simp only [tocReplies, hfinish]
      rfl

/-- So calls tell tables under construction apart. -/
theorem pendingToc_eq_of_tocReplies
    (h : ∀ calls, container.tocReplies calls = other.tocReplies calls) :
    container.pendingToc = other.pendingToc := by
  have hsame := h [.finish, .table]
  rw [tocReplies_finish_table, tocReplies_finish_table] at hsame
  cases hone : container.pendingToc <;> cases hother : other.pendingToc <;>
    simp only [hone, hother, List.cons.injEq, reduceCtorEq, false_and, Except.ok.injEq,
      TocReply.table.injEq, and_true] at hsame ⊢
  exact hsame.2

/-- What a reading of the table of contents that has failed leaves of the tables. -/
structure FailedToc (container : Container) (error : FormatError) (left : Container) : Prop where
  /-- The installed table stays, -/
  installed : left.toc = container.toc
  /-- and so does the one under construction, unless the table in the data is torn. -/
  kept : (∀ chunk count, ¬container.Torn chunk count) → left.pendingToc = container.pendingToc
  /-- Then what was read of that one is under construction. -/
  replaced : ∀ chunk count, container.Torn chunk count →
    error = .io .readingWord .endOfData ∧ left.pendingToc = some (container.tornTable chunk count)
  /-- Later calls answer as they would have without the failure exactly when the table is not torn, or the one
  under construction happens to be what was read of it. -/
  replies_iff : (∀ calls, left.tocReplies calls = container.tocReplies calls) ↔
    ∀ chunk count, container.Torn chunk count →
      container.pendingToc = some (container.tornTable chunk count)

/-- Whatever tables there are, whether the container is open, and wherever the stream stands. -/
theorem failed_readToc_shows_iff (h : readToc.outcome container = (.error error, left)) :
    container.FailedToc error left := by
  by_cases htorn : ∃ chunk count, container.Torn chunk count
  · have hleft : ∀ chunk count, container.Torn chunk count → error = .io .readingWord .endOfData ∧
        left = (container.withPending (container.tornTable chunk count)).moved chunk.finish := by
      intro chunk count htorn
      obtain ⟨herror, hleft⟩ := Prod.mk.inj (htorn.outcome_readToc.symm.trans h)
      exact ⟨(Except.error.inj herror).symm, hleft.symm⟩
    obtain ⟨chunk, count, htorn⟩ := htorn
    obtain ⟨_, rfl⟩ := hleft chunk count htorn
    refine ⟨rfl, fun hwhole => absurd htorn (hwhole chunk count), fun other found hother => ?_, ?_⟩
    · obtain ⟨herror, hsame⟩ := hleft other found hother
      exact ⟨herror, congrArg Container.pendingToc hsame⟩
    · constructor
      · intro hreplies other found hother
        rw [← pendingToc_eq_of_tocReplies hreplies]
        exact congrArg Container.pendingToc (hleft other found hother).2
      · intro hpending calls
        exact tocReplies_congr calls ⟨rfl, (hpending chunk count htorn).symm⟩
  · have hwhole : ∀ chunk count, ¬container.Torn chunk count :=
      fun chunk count h => htorn ⟨chunk, count, h⟩
    obtain ⟨next, rfl⟩ := readToc_error hwhole h
    refine ⟨rfl, fun _ => rfl, fun chunk count h => absurd h (hwhole chunk count), ?_⟩
    exact ⟨fun _ chunk count h => absurd h (hwhole chunk count),
      fun _ calls => tocReplies_congr calls ⟨rfl, rfl⟩⟩

/-- A container whose data ends within the only entry of its table of contents. -/
def cutTable : Bytes :=
  Tag.ppbe.bytes ++ [0, 0, 0, 20] ++ Tag.mlrt.bytes ++ Tag.toc.bytes ++
    [0, 0, 0, 12, 0, 0, 0, 1, 0, 0, 0, 7]

/-- What is opened of it, with the stream before the table. -/
def cutTableOpened : Container :=
  { ofStream .big ⟨cutTable, 12⟩ with form := some ⟨Tag.ppbe, 20, Tag.mlrt, 12⟩ }

/-- A table that a caller has started, with one entry of two. -/
def startedTable : Toc := ⟨2, #[⟨7, 40⟩]⟩

theorem cutTable_at : Chunk.at? .big cutTable 12 = some ⟨Tag.toc, 12, Tag.blank, 20⟩ := by
  decide +kernel

theorem cutTable_counts : Chunk.wordAt? .big cutTable 20 = some 1 := by
  decide +kernel

theorem cutTable_torn (table : Toc) :
    (cutTableOpened.withPending table).Torn ⟨Tag.toc, 12, Tag.blank, 20⟩ 1 where
  opened := rfl
  next := ⟨cutTable_at, rfl⟩
  counted := cutTable_counts
  nonempty := by decide
  room := by decide
  short := show cutTable.length < 20 + 4 + 8 * 1 by decide

/-- What was read of its table has no entry. -/
theorem tornTable_cutTable (table : Toc) :
    (cutTableOpened.withPending table).tornTable ⟨Tag.toc, 12, Tag.blank, 20⟩ 1 = ⟨1, #[]⟩ := by
  have hshort : (cutTableOpened.withPending table).stream.data.length < 20 + 4 + 8 :=
    show cutTable.length < 20 + 4 + 8 by decide
  rw [tornTable, Chunk.tocEntriesAt_short hshort]
  rfl

/-- The failure shows when a table was started, and does not when the one under construction is empty and has
room for one entry. -/
theorem cutTable_failedToc :
    (∃ error left, readToc.outcome (cutTableOpened.withPending startedTable) = (.error error, left) ∧
      ¬∀ calls, left.tocReplies calls = (cutTableOpened.withPending startedTable).tocReplies calls) ∧
    ∃ error left, readToc.outcome (cutTableOpened.withPending ⟨1, #[]⟩) = (.error error, left) ∧
      ∀ calls, left.tocReplies calls = (cutTableOpened.withPending ⟨1, #[]⟩).tocReplies calls := by
  constructor
  · have hfails := (cutTable_torn startedTable).outcome_readToc
    refine ⟨_, _, hfails, fun hreplies => ?_⟩
    have hsame := (failed_readToc_shows_iff hfails).replies_iff.mp hreplies _ _ (cutTable_torn startedTable)
    rw [tornTable_cutTable] at hsame
    exact absurd hsame (by decide)
  · have hfails := (cutTable_torn ⟨1, #[]⟩).outcome_readToc
    refine ⟨_, _, hfails, (failed_readToc_shows_iff hfails).replies_iff.mpr fun chunk count htorn => ?_⟩
    cases htorn.next.1.symm.trans cutTable_at
    cases htorn.counted.symm.trans cutTable_counts
    rw [tornTable_cutTable]
    rfl

/-- A table that a caller has started is gone after a failed reading: what is installed instead is empty. -/
theorem startedTable_lost :
    (do beginToc 2; addTocEntry 7 40 : ContainerStep UInt32).outcome cutTableOpened =
      (.ok 0, cutTableOpened.withPending startedTable) ∧
    (cutTableOpened.withPending startedTable).tocReplies [.finish, .table] =
      [.ok (.number 1), .ok (.table (some startedTable))] ∧
    ∃ left, readToc.outcome (cutTableOpened.withPending startedTable) =
        (.error (.io .readingWord .endOfData), left) ∧
      left.tocReplies [.finish, .table] = [.ok (.number 0), .ok (.table (some ⟨1, #[]⟩))] ∧
      left.tocReplies [.finish, .table] ≠
        (cutTableOpened.withPending startedTable).tocReplies [.finish, .table] := by
  have hstarted : (cutTableOpened.withPending startedTable).tocReplies [.finish, .table] =
      [.ok (.number 1), .ok (.table (some startedTable))] := tocReplies_finish_table _
  have hfails := (cutTable_torn startedTable).outcome_readToc
  rw [tornTable_cutTable] at hfails
  have hlost := tocReplies_finish_table
    (((cutTableOpened.withPending startedTable).withPending ⟨1, #[]⟩).moved 32)
  refine ⟨rfl, hstarted, _, hfails, hlost, fun hsame => ?_⟩
  rw [hstarted] at hsame
  cases hlost.symm.trans hsame

end Container

end Playprint
