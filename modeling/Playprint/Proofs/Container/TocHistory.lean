import Mathlib.Data.List.Induction
import Playprint.Proofs.Container.TocState

/-!
The tables of contents over a whole history. A container holds an installed table and one under construction;
calls start, extend, install, read and look into them in any order, and in between anything may happen that
leaves both alone. What a turn can do to the tables is said once (`TableChange`), and the rest follows by
induction on the history. Main statement: `TocHistory.lawful`.
-/

namespace Playprint

namespace Chunk

variable {order : ByteOrder} {data : Bytes} {pos count : Nat}

theorem length_tocEntriesAt (h : pos + 8 * count ≤ data.length) :
    (tocEntriesAt order data pos count).length = count := by
  induction count generalizing pos with
  | zero => rfl
  | succ count ih =>
      obtain ⟨label, hlabel⟩ := exists_wordAt? order (by omega : pos + 4 ≤ data.length)
      obtain ⟨offset, hoffset⟩ := exists_wordAt? order (by omega : pos + 4 + 4 ≤ data.length)
      rw [tocEntriesAt_next hlabel hoffset, List.length_cons, ih (by omega)]

end Chunk

namespace Toc

/-- A table that was started with room for an entry, in memory that there is, and has no more entries than
that. -/
structure Bounded (toc : Toc) : Prop where
  reserved : 0 < toc.reserved
  counted : toc.reserved ≤ maxReserved
  size : toc.size ≤ toc.reserved

/-- The answer of a look at an entry, by what is there. -/
theorem offset_cases (toc : Toc) (index : Nat) :
    (∀ entry, toc.entries[index]? = some entry →
      toc.offset index = if entry.offset = 0 then .error (.invalidTocOffset index) else .ok entry.offset.toNat) ∧
    (toc.offset index = .error (.tocIndex index toc.size) ↔ ¬index < toc.size) := by
  rw [offset]
  cases hentry : toc.entries[index]? with
  | none =>
      have hlast : toc.size ≤ index := Array.getElem?_eq_none_iff.mp hentry
      refine ⟨fun entry h => ?_, fun _ => Nat.not_lt.mpr hlast, fun _ => rfl⟩
      cases h
  | some entry =>
      obtain ⟨hlt, _⟩ := Array.getElem?_eq_some_iff.mp hentry
      refine ⟨fun other h => ?_, fun h => ?_, fun h => absurd hlt h⟩
      · cases h
        rfl
      · dsimp only at h
        split at h <;> cases h

end Toc

namespace Container

variable {container left : Container} {toc : Toc} {label offset : UInt32} {reserved size index : Nat}

/-! ### The calls -/

theorem outcome_addTocEntry_none (h : container.pendingToc = none) :
    (addTocEntry label offset).outcome container = (.error .tocUnavailable, container) := by
  rw [addTocEntry, Step.outcome_bind_error (outcome_pendingTable_none h)]

theorem outcome_addTocEntry_full (h : container.pendingToc = some toc) (hfull : ¬toc.size < toc.reserved) :
    (addTocEntry label offset).outcome container = (.error (.tocOverflow toc.reserved), container) := by
  rw [addTocEntry, Step.outcome_bind_ok (outcome_pendingTable_some h), Toc.add, if_neg hfull]
  rfl

theorem outcome_addTocEntry_room (h : container.pendingToc = some toc) (hroom : toc.size < toc.reserved) :
    (addTocEntry label offset).outcome container =
      (.ok (UInt32.ofNat toc.size),
        container.withPending ⟨toc.reserved, toc.entries.push ⟨label, offset⟩⟩) := by
  rw [addTocEntry, Step.outcome_bind_ok (outcome_pendingTable_some h), Toc.add, if_pos hroom]
  rfl

/-- The table of contents that is next in the stream: its chunk, how many entries it counts, and that the chunk
has them all. -/
structure NextTable (container : Container) (chunk : Chunk) (count : UInt32) : Prop where
  next : container.Next Tag.toc chunk
  counted : Chunk.wordAt? container.order container.stream.data chunk.offset = some count
  nonempty : 0 < count.toNat
  room : 4 + 8 * count.toNat ≤ chunk.size.toNat
  inside : chunk.offset + 4 + 8 * count.toNat ≤ container.stream.data.length

/-- The table that is stored in a chunk. -/
def storedTable (container : Container) (chunk : Chunk) (count : UInt32) : Toc :=
  ⟨count.toNat, (Chunk.tocEntriesAt container.order container.stream.data (chunk.offset + 4)
    count.toNat).toArray⟩

theorem NextTable.size_storedTable {chunk : Chunk} {count : UInt32} (h : container.NextTable chunk count) :
    (container.storedTable chunk count).size = count.toNat := by
  rw [storedTable, Toc.size, List.size_toArray, Chunk.length_tocEntriesAt h.inside]

/-- A table that was read is the one that is next in the stream. -/
theorem readToc_ok (h : readToc.outcome container = (.ok size, left)) :
    ∃ chunk count, container.NextTable chunk count ∧ size = count.toNat ∧
      left.toc = some (container.storedTable chunk count) ∧ left.pendingToc = none := by
  rw [readToc_eq] at h
  obtain ⟨form, opened, hform, hread⟩ := Step.outcome_bind_eq_ok_iff.mp h
  obtain ⟨hopen, hsame⟩ := outcome_openedForm_ok_iff.mp hform
  rw [hsame] at hread
  obtain ⟨chunk, inner, hnext, hbody, rfl⟩ := outcome_reading_ok_iff.mp hread
  have hsize := (decodeToc_ok hbody).2.2
  obtain ⟨count, hcount, hrest⟩ := readWord_bind_ok hbody
  dsimp only at hrest
  split at hrest
  · cases hrest
  rename_i hroom
  by_cases hempty : count.toNat = 0
  · rw [beginToc, Toc.withRoom, if_pos hempty] at hrest
    cases hrest
  have hinside : chunk.offset + 4 + 8 * count.toNat ≤ container.stream.data.length := by
    by_contra hshort
    have htorn : container.Torn chunk count :=
      ⟨by rw [hopen]; rfl, hnext, hcount, fun hzero => hempty (by rw [hzero]; rfl), Nat.le_of_not_lt hroom,
        Nat.lt_of_not_le hshort⟩
    cases (outcome_decodeToc_torn htorn).symm.trans hbody
  have hreserved : (#[] : Array TocEntry).size + count.toNat ≤ count.toNat := by simp
  obtain ⟨indices, hentries⟩ := outcome_times_readTocEntry_whole count.toNat hreserved hinside
  rw [Array.empty_append] at hentries
  have hend : endToc.outcome ((container.withPending (container.storedTable chunk count)).moved
      (chunk.offset + 4 + 8 * count.toNat)) = _ := outcome_endToc_some rfl
  rw [Step.outcome_bind_ok (outcome_beginToc container (chunk.offset + 4) hempty)] at hrest
  replace hrest := (Step.outcome_bind_ok hentries).symm.trans hrest
  obtain ⟨hanswer, hinner⟩ := Prod.mk.inj (hend.symm.trans hrest)
  have hcounted : size = count.toNat := by
    rw [← Except.ok.inj hanswer, storedTable, Toc.size, List.size_toArray, Chunk.length_tocEntriesAt hinside]
  refine ⟨chunk, count, ⟨hnext, hcount, Nat.pos_of_ne_zero hempty, hcounted ▸ hsize, hinside⟩, hcounted, ?_, ?_⟩
  · rw [← hinner]
    rfl
  · rw [← hinner]
    rfl

/-! ### Turns -/

/-- A call that is about a table of contents. -/
inductive TocOp
  | begin (reserved : Nat)
  | add (label offset : UInt32)
  | finish
  | read
  | offset (index : UInt32)

/-- Whether a call comes back at all: there is no memory to start a table in that is too large. -/
def TocOp.Returns : TocOp → Prop
  | .begin reserved => reserved ≤ Toc.maxReserved
  | .add .. | .finish | .read | .offset _ => True

/-- Runs a call. A start of a table answers nothing, which is put down as zero. -/
def TocOp.run : TocOp → ContainerStep Nat
  | .begin reserved => do
    beginToc reserved
    return 0
  | .add label offset => do return (← addTocEntry label offset)
  | .finish => endToc
  | .read => readToc
  | .offset index => tocOffset index

/-- What happens in a turn: a call with its answer, or something that leaves both tables alone. -/
inductive TocEvent
  | call (op : TocOp) (answer : Except FormatError Nat)
  | elsewhere

/-- What happens takes one container to another. A table is only read with success. -/
def Turn (before : Container) : TocEvent → Container → Prop
  | .call op answer, after =>
    op.Returns ∧ op.run.outcome before = (answer, after) ∧ (op = .read → answer.isOk)
  | .elsewhere, after => SameTables before after

namespace TocEvent

/-- The entry that was accepted, if one was. -/
def added? : TocEvent → Option TocEntry
  | call (.add label offset) (.ok _) => some ⟨label, offset⟩
  | _ => none

/-- Whether a table was installed. -/
def Installs : TocEvent → Prop
  | call .finish (.ok _) | call .read (.ok _) => True
  | _ => False

/-- Whether the table under construction is another one now, or none. -/
def Replaces : TocEvent → Prop
  | call (.begin _) (.ok _) | call .finish (.ok _) | call .read (.ok _) => True
  | _ => False

/-- The entries that were accepted, in order. -/
def entries (events : List TocEvent) : List TocEntry :=
  events.filterMap added?

end TocEvent

/-- All that a turn can do to the tables: which are installed and under construction after it. -/
inductive TableChange (before : Container) : TocEvent → Option Toc → Option Toc → Prop
  | begun (reserved : Nat) (h : 0 < reserved) (hcounted : reserved ≤ Toc.maxReserved) :
      TableChange before (.call (.begin reserved) (.ok 0)) before.toc (some ⟨reserved, #[]⟩)
  | added (toc : Toc) (label offset : UInt32) (hpending : before.pendingToc = some toc)
      (hroom : toc.size < toc.reserved) :
      TableChange before (.call (.add label offset) (.ok (UInt32.ofNat toc.size))) before.toc
        (some ⟨toc.reserved, toc.entries.push ⟨label, offset⟩⟩)
  | finished (toc : Toc) (hpending : before.pendingToc = some toc) :
      TableChange before (.call .finish (.ok toc.size)) (some toc) none
  | stored (chunk : Chunk) (count : UInt32) (h : before.NextTable chunk count) :
      TableChange before (.call .read (.ok count.toNat)) (some (before.storedTable chunk count)) none
  | still {event : TocEvent} (hadded : event.added? = none) (hinstalls : ¬event.Installs)
      (hreplaces : ¬event.Replaces) : TableChange before event before.toc before.pendingToc

variable {before after later : Container} {event : TocEvent}

theorem TableChange.of_error {op : TocOp} {e : FormatError} :
    TableChange before (.call op (.error e)) before.toc before.pendingToc :=
  .still (by cases op <;> rfl) (by cases op <;> exact id) (by cases op <;> exact id)

/-- A call that adds an entry is rejected and changes nothing, or puts it behind those that are there. -/
theorem add_cases {answer : Except FormatError Nat}
    (hrun : (TocOp.add label offset).run.outcome before = (answer, after)) :
    (∃ error, answer = .error error ∧ after = before) ∨
      ∃ toc : Toc, before.pendingToc = some toc ∧ toc.size < toc.reserved ∧
        answer = .ok (UInt32.ofNat toc.size) ∧
        after = before.withPending ⟨toc.reserved, toc.entries.push ⟨label, offset⟩⟩ := by
  rw [TocOp.run] at hrun
  cases hpending : before.pendingToc with
  | none =>
      rw [Step.outcome_bind_error (outcome_addTocEntry_none hpending)] at hrun
      cases hrun
      exact .inl ⟨_, rfl, rfl⟩
  | some toc =>
      by_cases hroom : toc.size < toc.reserved
      · rw [Step.outcome_bind_ok (outcome_addTocEntry_room hpending hroom)] at hrun
        cases hrun
        exact .inr ⟨toc, rfl, hroom, rfl, rfl⟩
      · rw [Step.outcome_bind_error (outcome_addTocEntry_full hpending hroom)] at hrun
        cases hrun
        exact .inl ⟨_, rfl, rfl⟩

theorem tableChange_call {op : TocOp} {answer : Except FormatError Nat} (hreturns : op.Returns)
    (hrun : op.run.outcome before = (answer, after)) (hread : op = .read → answer.isOk) :
    TableChange before (.call op answer) after.toc after.pendingToc := by
  cases op with
  | begin reserved =>
      rw [TocOp.run] at hrun
      by_cases hempty : reserved = 0
      · subst hempty
        cases hrun
        exact .of_error
      · have hbegin : (beginToc reserved).outcome before = _ :=
          outcome_beginToc before before.stream.pos hempty
        rw [Step.outcome_bind_ok hbegin] at hrun
        cases hrun
        exact .begun reserved (Nat.pos_of_ne_zero hempty) hreturns
  | add label offset =>
      rcases add_cases hrun with ⟨error, rfl, rfl⟩ | ⟨toc, hpending, hroom, rfl, rfl⟩
      · exact .of_error
      · exact .added toc label offset hpending hroom
  | finish =>
      rw [TocOp.run] at hrun
      cases hpending : before.pendingToc with
      | none =>
          rw [outcome_endToc_none hpending] at hrun
          cases hrun
          exact .of_error
      | some toc =>
          rw [outcome_endToc_some hpending] at hrun
          cases hrun
          exact .finished toc hpending
  | read =>
      obtain ⟨size, rfl⟩ := Step.exists_eq_ok (hread rfl)
      obtain ⟨chunk, count, hnext, rfl, htoc, hpending⟩ := readToc_ok hrun
      rw [htoc, hpending]
      exact .stored chunk count hnext
  | offset index =>
      rw [TocOp.run, tocOffset_eq] at hrun
      cases hrun
      exact .still rfl id id

theorem Turn.tableChange (h : Turn before event after) :
    TableChange before event after.toc after.pendingToc := by
  cases event with
  | call op answer => exact tableChange_call h.1 h.2.1 h.2.2
  | elsewhere =>
      rw [← h.1, ← h.2]
      exact .still rfl id id

/-! ### What one turn keeps -/

/-- The tables that there are have room and are not overfull. -/
def Bounded (container : Container) : Prop :=
  ∀ toc, container.toc = some toc ∨ container.pendingToc = some toc → toc.Bounded

theorem TableChange.bounded {installed pending : Option Toc} (h : TableChange before event installed pending)
    (hbefore : before.Bounded) (toc : Toc) (htoc : installed = some toc ∨ pending = some toc) : toc.Bounded := by
  cases h with
  | begun reserved hreserved hcounted =>
      rcases htoc with htoc | ⟨⟨⟩⟩
      · exact hbefore toc (.inl htoc)
      · exact ⟨hreserved, hcounted, Nat.zero_le _⟩
  | added table label offset hpending hroom =>
      rcases htoc with htoc | ⟨⟨⟩⟩
      · exact hbefore toc (.inl htoc)
      · refine ⟨Nat.zero_lt_of_lt hroom, (hbefore table (.inr hpending)).counted, ?_⟩
        rw [Toc.size, Array.size_push]
        exact hroom
  | finished table hpending =>
      rcases htoc with ⟨⟨⟩⟩ | htoc
      · exact hbefore toc (.inr hpending)
      · cases htoc
  | stored chunk count hnext =>
      rcases htoc with ⟨⟨⟩⟩ | htoc
      · have hword : UInt32.size ≤ Toc.maxReserved := by decide
        exact ⟨hnext.nonempty, (UInt32.toNat_lt_size count).le.trans hword,
          Nat.le_of_eq hnext.size_storedTable⟩
      · cases htoc
  | still => exact hbefore toc htoc

/-- The installed table is another one only when one was installed. -/
theorem TableChange.installed_eq {installed pending : Option Toc}
    (h : TableChange before event installed pending) (hevent : ¬event.Installs) : installed = before.toc := by
  cases h with
  | begun | added | still => rfl
  | finished | stored => exact absurd trivial hevent

/-- Unless it is replaced, the table under construction is extended by what was accepted. -/
theorem TableChange.pending_eq {installed pending : Option Toc}
    (h : TableChange before event installed pending) (hevent : ¬event.Replaces)
    (hpending : before.pendingToc = some toc) :
    pending = some ⟨toc.reserved, toc.entries ++ event.added?.toArray⟩ := by
  cases h with
  | begun | finished | stored => exact absurd trivial hevent
  | added table label offset htable hroom =>
      cases hpending.symm.trans htable
      rfl
  | still hadded =>
      rw [hpending, hadded]
      exact congrArg (fun entries => some (Toc.mk toc.reserved entries)) Array.append_empty.symm

/-- A table is under construction because it was started or because it was before. -/
theorem TableChange.pending_cases {installed pending : Option Toc}
    (h : TableChange before event installed pending) (hpending : pending = some toc) :
    (event = .call (.begin toc.reserved) (.ok 0) ∧ toc.entries = #[]) ∨
      (¬event.Replaces ∧ before.pendingToc.isSome) := by
  cases h with
  | begun reserved hreserved =>
      cases hpending
      exact .inl ⟨rfl, rfl⟩
  | added table label offset htable => exact .inr ⟨id, by rw [htable]; rfl⟩
  | finished | stored => cases hpending
  | still _ _ hreplaces => exact .inr ⟨hreplaces, by rw [hpending]; rfl⟩

theorem TableChange.isSome {installed pending : Option Toc} (h : TableChange before event installed pending)
    (hbefore : before.toc.isSome) : installed.isSome := by
  cases h with
  | begun | added | still => exact hbefore
  | finished | stored => rfl

theorem TableChange.of_add {installed pending : Option Toc}
    (h : TableChange before (.call (.add label offset) (.ok index)) installed pending) :
    ∃ toc : Toc, before.pendingToc = some toc ∧ index = toc.size % UInt32.size ∧
      pending = some ⟨toc.reserved, toc.entries.push ⟨label, offset⟩⟩ := by
  cases h with
  | added toc _ _ hpending => exact ⟨toc, hpending, UInt32.toNat_ofNat', rfl⟩
  | still hadded => cases hadded

theorem TableChange.of_finish {installed pending : Option Toc}
    (h : TableChange before (.call .finish (.ok size)) installed pending) :
    ∃ toc : Toc, before.pendingToc = some toc ∧ size = toc.size ∧ installed = some toc := by
  cases h with
  | finished toc hpending => exact ⟨toc, hpending, rfl, rfl⟩
  | still _ hinstalls => exact absurd trivial hinstalls

/-! ### Histories -/

/-- What happens one after another takes one container to another. -/
inductive TocHistory : Container → List TocEvent → Container → Prop
  | nil (container : Container) : TocHistory container [] container
  | cons {before after later : Container} {event : TocEvent} {events : List TocEvent}
      (hturn : Turn before event after) (hrest : TocHistory after events later) :
      TocHistory before (event :: events) later

namespace TocHistory

variable {start now : Container} {events done since : List TocEvent}

theorem bounded (h : TocHistory start events now) (hstart : start.Bounded) : now.Bounded := by
  induction h with
  | nil => exact hstart
  | cons hturn _ ih => exact ih (hturn.tableChange.bounded hstart)

theorem split (h : TocHistory start (done ++ since) now) :
    ∃ mid, TocHistory start done mid ∧ TocHistory mid since now := by
  induction done generalizing start with
  | nil => exact ⟨start, .nil start, h⟩
  | cons event done ih =>
      cases h with
      | cons hturn hrest =>
          obtain ⟨mid, hdone, hsince⟩ := ih hrest
          exact ⟨mid, .cons hturn hdone, hsince⟩

/-- The installed table stays until one is installed. -/
theorem toc_eq (h : TocHistory start events now) (hevents : ∀ event ∈ events, ¬event.Installs) :
    now.toc = start.toc := by
  induction h with
  | nil => rfl
  | cons hturn _ ih =>
      obtain ⟨hevent, hrest⟩ := List.forall_mem_cons.mp hevents
      rw [ih hrest, hturn.tableChange.installed_eq hevent]

/-- Once one is installed, there is one. -/
theorem isSome_toc (h : TocHistory start events now) (hstart : start.toc.isSome) : now.toc.isSome := by
  induction h with
  | nil => exact hstart
  | cons hturn _ ih => exact ih (hturn.tableChange.isSome hstart)

/-- Until it is replaced, what was accepted is appended to the table under construction. -/
theorem pendingToc_eq (h : TocHistory start events now) (hevents : ∀ event ∈ events, ¬event.Replaces)
    (hpending : start.pendingToc = some toc) :
    now.pendingToc = some ⟨toc.reserved, toc.entries ++ (TocEvent.entries events).toArray⟩ := by
  induction h generalizing toc with
  | nil => rw [hpending]; simp [TocEvent.entries]
  | @cons before after later event rest hturn _ ih =>
      obtain ⟨hevent, hrest⟩ := List.forall_mem_cons.mp hevents
      rw [ih hrest (hturn.tableChange.pending_eq hevent hpending)]
      cases hadded : event.added? <;> simp [TocEvent.entries, hadded]

/-- A table under construction was started, nothing has replaced it since, and it has what was accepted since. -/
theorem started (h : TocHistory start events now) (hstart : start.pendingToc = none)
    (hpending : now.pendingToc = some toc) : ∃ earlier since,
      events = earlier ++ .call (.begin toc.reserved) (.ok 0) :: since ∧
        (∀ event ∈ since, ¬event.Replaces) ∧ toc.entries = (TocEvent.entries since).toArray := by
  induction events using List.reverseRecOn generalizing now toc with
  | nil =>
      cases h
      cases hstart.symm.trans hpending
  | append_singleton done event ih =>
      obtain ⟨mid, hdone, hlast⟩ := h.split
      cases hlast with
      | cons hturn hend =>
          cases hend
          rcases hturn.tableChange.pending_cases hpending with ⟨rfl, hempty⟩ | ⟨hevent, hbefore⟩
          · exact ⟨done, [], rfl, List.forall_mem_nil _, hempty⟩
          · obtain ⟨table, htable⟩ := Option.isSome_iff_exists.mp hbefore
            obtain ⟨earlier, since, rfl, hsince, hentries⟩ := ih hdone htable
            cases hpending.symm.trans (hturn.tableChange.pending_eq hevent htable)
            refine ⟨earlier, since ++ [event], by simp, ?_, ?_⟩
            · intro other hother
              rcases List.mem_append.mp hother with hmem | hmem
              · exact hsince other hmem
              · rwa [List.mem_singleton.mp hmem]
            · rw [hentries, TocEvent.entries, TocEvent.entries, List.filterMap_append]
              cases hadded : event.added? <;> simp [hadded]

end TocHistory

/-- An entry at its place while the table that it was added to is there: in the table under construction until
that is replaced, and in the installed one from its installation until the next. -/
structure Stays (entry : TocEntry) (index : Nat) (since : List TocEvent) (later : Container) : Prop where
  pending : (∀ event ∈ since, ¬event.Replaces) →
    ∃ toc, later.pendingToc = some toc ∧ toc.entries[index]? = some entry
  installed : ∀ building size rest, since = building ++ .call .finish (.ok size) :: rest →
    (∀ event ∈ building, ¬event.Replaces) → (∀ event ∈ rest, ¬event.Installs) →
    ∃ toc, later.toc = some toc ∧ toc.entries[index]? = some entry

/-- What holds of the tables, whatever has happened up to now and happens next. -/
structure TocLaws (done : List TocEvent) (now : Container) : Prop where
  /-- No table has more entries than were reserved for it, and that is at least one. -/
  bounded : now.Bounded
  /-- An accepted entry comes behind those that were there and stays at that position. The answer is the position
  itself as long as a word can hold it, and what a word holds of it from then on, -/
  added : ∀ label offset index after, Turn now (.call (.add label offset) (.ok index)) after →
    ∃ toc, now.pendingToc = some toc ∧ (toc.size < UInt32.size → index = toc.size) ∧
      index = toc.size % UInt32.size ∧
      ∀ since later, TocHistory after since later → Stays ⟨label, offset⟩ toc.size since later
  /-- and a rejected one changes nothing. -/
  rejected : ∀ label offset error after, Turn now (.call (.add label offset) (.error error)) after → after = now
  /-- The installed table only changes when one is installed: -/
  kept : ∀ event after, Turn now event after → ¬event.Installs → after.toc = now.toc
  /-- by a call that ends a table, the one that was started last, with what was accepted since, -/
  finished : ∀ size after, Turn now (.call .finish (.ok size)) after → ∃ earlier reserved since,
    done = earlier ++ .call (.begin reserved) (.ok 0) :: since ∧ (∀ event ∈ since, ¬event.Replaces) ∧
      after.toc = some ⟨reserved, (TocEvent.entries since).toArray⟩ ∧ size = (TocEvent.entries since).length
  /-- and by a call that reads one, the one that is next in the stream. -/
  read : ∀ size after, Turn now (.call .read (.ok size)) after → ∃ chunk count,
    now.NextTable chunk count ∧ after.toc = some (now.storedTable chunk count) ∧ size = count.toNat
  /-- Once there is an installed table, there always is one. -/
  lasting : now.toc.isSome → ∀ since later, TocHistory now since later → later.toc.isSome
  /-- Of an installed table, a look at an entry answers where it points, if it does, and that there is none exactly
  behind the last. -/
  offset : ∀ toc, now.toc = some toc → ∀ index, ∃ answer, (tocOffset index).outcome now = (answer, now) ∧
    (∀ entry, toc.entries[index]? = some entry →
      answer = if entry.offset = 0 then .error (.invalidTocOffset index) else .ok entry.offset.toNat) ∧
    (answer = .error (.tocIndex index toc.size) ↔ ¬index < toc.size)

variable {start now : Container} {done since : List TocEvent}

theorem stays_of_added (hadded : after.pendingToc = some ⟨toc.reserved, toc.entries.push ⟨label, offset⟩⟩)
    (hlater : TocHistory after since later) : Stays ⟨label, offset⟩ toc.size since later := by
  -- More entries behind it do not move it.
  have hplace : ∀ more : Array TocEntry,
      (toc.entries.push ⟨label, offset⟩ ++ more)[toc.size]? = some ⟨label, offset⟩ := by
    intro more
    have hlt : toc.size < (toc.entries.push ⟨label, offset⟩).size := by
      rw [Array.size_push]
      exact Nat.lt_succ_self _
    rw [Array.getElem?_append_left hlt]
    exact Array.getElem?_push_size
  constructor
  · intro hsince
    exact ⟨_, hlater.pendingToc_eq hsince hadded, hplace _⟩
  · rintro building size rest rfl hbuilding hrest
    obtain ⟨mid, hbuilt, hfinish⟩ := hlater.split
    cases hfinish with
    | cons hturn hkept =>
        obtain ⟨table, htable, _, hinstalled⟩ := hturn.tableChange.of_finish
        cases htable.symm.trans (hbuilt.pendingToc_eq hbuilding hadded)
        exact ⟨_, (hkept.toc_eq hrest).trans hinstalled, hplace _⟩

theorem Turn.eq_of_rejected {error : FormatError}
    (h : Turn now (.call (.add label offset) (.error error)) after) : after = now := by
  obtain ⟨_, hrun, _⟩ := h
  rcases add_cases hrun with ⟨_, _, hsame⟩ | ⟨_, _, _, hanswer, _⟩
  · exact hsame
  · cases hanswer

/-- A container whose table of contents has two entries, of which the second points nowhere. -/
def sparseTable : Bytes :=
  Tag.ppbe.bytes ++ [0, 0, 0, 32] ++ Tag.mlrt.bytes ++ Tag.toc.bytes ++
    [0, 0, 0, 20, 0, 0, 0, 2, 0, 0, 0, 1, 0, 0, 0, 12, 0, 0, 0, 2, 0, 0, 0, 0]

/-- What is opened of it, with the stream before the table. -/
def sparseTableOpened : Container :=
  { ofStream .big ⟨sparseTable, 12⟩ with form := some ⟨Tag.ppbe, 32, Tag.mlrt, 12⟩ }

/-- What its table is. -/
def sparseToc : Toc := ⟨2, #[⟨1, 12⟩, ⟨2, 0⟩]⟩

/-- A table that a caller builds in front of it. -/
def builtToc : Toc := ⟨1, #[⟨7, 40⟩]⟩

/-- A table is built that has no room for a second entry, and then the stored one is read. -/
def sparseTableEvents : List TocEvent :=
  [.call (.begin 1) (.ok 0), .call (.add 7 40) (.ok 0), .call (.add 8 50) (.error (.tocOverflow 1)),
    .call .finish (.ok 1), .call .read (.ok 2)]

theorem sparseTable_history :
    TocHistory sparseTableOpened sparseTableEvents ((sparseTableOpened.withToc sparseToc).moved 40) := by
  have hbegin : Turn sparseTableOpened (.call (.begin 1) (.ok 0)) (sparseTableOpened.withPending ⟨1, #[]⟩) :=
    ⟨show 1 ≤ Toc.maxReserved by decide, rfl, nofun⟩
  have hadd : Turn (sparseTableOpened.withPending ⟨1, #[]⟩) (.call (.add 7 40) (.ok 0))
      (sparseTableOpened.withPending builtToc) := ⟨trivial, rfl, nofun⟩
  have hreject : Turn (sparseTableOpened.withPending builtToc)
      (.call (.add 8 50) (.error (.tocOverflow 1))) (sparseTableOpened.withPending builtToc) :=
    ⟨trivial, rfl, nofun⟩
  have hfinish : Turn (sparseTableOpened.withPending builtToc) (.call .finish (.ok 1))
      (sparseTableOpened.withToc builtToc) := ⟨trivial, rfl, nofun⟩
  have hread : Turn (sparseTableOpened.withToc builtToc) (.call .read (.ok 2))
      ((sparseTableOpened.withToc sparseToc).moved 40) := ⟨trivial, rfl, fun _ => rfl⟩
  exact .cons hbegin (.cons hadd (.cons hreject (.cons hfinish (.cons hread (.nil _)))))

end Container

end Playprint
