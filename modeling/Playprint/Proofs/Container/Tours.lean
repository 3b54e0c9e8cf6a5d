import Playprint.Proofs.Container.Positions

/-!
Positions over whole sequences of operations. A caller tours a stream with chunks that it was given by
descents, or a container, and calls what it likes, after failures, too; the positions it goes to by itself
leave room for a header. Main statement: wherever it has come to in data of less than 2^63 bytes, no operation
adds or subtracts positions out of range, and all chunks that it was given start behind their headers and
inside the data.
-/

namespace Playprint

open Checked (plain Agrees)

namespace Navigation

/-- The operation with checked arithmetic. -/
def checked : (operation : Navigation) → Checked Stream operation.Answer
  | detectOrder => plain Playprint.detectOrder
  | goto pos => plain (Stream.goto pos)
  | position => plain Stream.position
  | readWord order => plain (Stream.readWord order)
  | readHalf order => plain (Stream.readHalf order)
  | take count => plain (Stream.take .readingPayload count)
  | ensureAvailable start count => Checked.ensureAvailable start count
  | descend order descent parent => Checked.descend order descent parent
  | ascend chunk => Checked.ascend chunk
  | readPayload chunk => Checked.readPayload chunk

/-- What a caller may ask that knows some chunks. -/
def Allowed (known : List Chunk) : Navigation → Prop
  | goto pos => pos ≤ Chunk.lastStart
  | descend _ _ parent => ∀ chunk, parent = some chunk → chunk ∈ known
  | ascend chunk | readPayload chunk => chunk ∈ known
  | detectOrder | position | readWord _ | readHalf _ | take _ | ensureAvailable .. => True

/-- The chunk that a caller gets to know. -/
def found : (operation : Navigation) → Except FormatError operation.Answer → List Chunk
  | descend .., .ok chunk => [chunk]
  | _, _ => []

/-- The streams over data that a caller comes to, with the chunks it knows there. A body that runs inside a
chunk comes between a descent and an ascent. -/
inductive Toured (data : Bytes) : Stream → List Chunk → Prop
  | start (pos : Nat) (hpos : pos ≤ Chunk.lastStart) : Toured data ⟨data, pos⟩ []
  | call {stream : Stream} {known : List Chunk} (operation : Navigation) (h : Toured data stream known)
      (hallowed : operation.Allowed known) :
      Toured data (operation.run.outcome stream).2
        (operation.found (operation.run.outcome stream).1 ++ known)

variable {data : Bytes} {known : List Chunk} {stream : Stream}

theorem agrees (hdata : data.length < UInt64.size / 2) (hknown : ∀ chunk ∈ known, chunk.Within data)
    {operation : Navigation} (hallowed : operation.Allowed known) :
    Agrees (Stream.InRange data)
      (fun answer => ∀ chunk ∈ operation.found (.ok answer), chunk.Within data)
      operation.checked operation.run := by
  cases operation with
  | goto pos => exact (Checked.keeps_goto hallowed).mono fun _ _ => List.forall_mem_nil _
  | descend order descent parent =>
      refine (Checked.agrees_descend hdata order descent fun chunk hchunk =>
        hknown chunk (hallowed chunk hchunk)).mono fun chunk hchunk => ?_
      exact List.forall_mem_singleton.mpr hchunk
  | ascend chunk =>
      exact (Checked.agrees_ascend hdata (hknown chunk hallowed)).mono fun _ _ => List.forall_mem_nil _
  | readPayload chunk =>
      exact (Checked.agrees_readPayload hdata (hknown chunk hallowed)).mono fun _ _ =>
        List.forall_mem_nil _
  | detectOrder => exact (Checked.keeps_detectOrder hdata).mono fun _ _ => List.forall_mem_nil _
  | position => exact Checked.keeps_position.mono fun _ _ => List.forall_mem_nil _
  | readWord order => exact (Checked.keeps_readWord hdata order).mono fun _ _ => List.forall_mem_nil _
  | readHalf order => exact (Checked.keeps_readHalf hdata order).mono fun _ _ => List.forall_mem_nil _
  | take count => exact (Checked.keeps_take hdata _ count).mono fun _ _ => List.forall_mem_nil _
  | ensureAvailable start count =>
      exact (Checked.agrees_ensureAvailable start count).mono fun _ _ => List.forall_mem_nil _

/-- What a tour keeps. -/
theorem Toured.inRange (hdata : data.length < UInt64.size / 2) (h : Toured data stream known) :
    stream.InRange data ∧ ∀ chunk ∈ known, chunk.Within data := by
  induction h with
  | start pos hpos => exact ⟨⟨rfl, hpos⟩, List.forall_mem_nil _⟩
  | @call stream known operation h hallowed ih =>
      obtain ⟨hstream, hknown⟩ := ih
      obtain ⟨_, hleft, hanswer⟩ := (agrees hdata hknown hallowed).ends hstream
      refine ⟨hleft, fun chunk hmem => ?_⟩
      rcases List.mem_append.mp hmem with hnew | hold
      · cases hrun : (operation.run.outcome stream).1 with
        | error e =>
            rw [hrun] at hnew
            cases operation <;> cases hnew
        | ok answer =>
            rw [hrun] at hnew
            exact hanswer answer hrun chunk hnew
      · exact hknown chunk hold

end Navigation

namespace Query

variable {τ : Type}

/-- The operation with checked arithmetic. -/
def checked : (query : Query τ) → Checked Container query.Answer
  | openForm => Checked.openForm
  | close => Checked.close
  | readHeader => Checked.readHeaderChunk
  | beginToc reserved => plain (Container.beginToc reserved)
  | addTocEntry label offset => plain (Container.addTocEntry label offset)
  | endToc => plain Container.endToc
  | readToc => Checked.readToc
  | tocOffset index => plain (Container.tocOffset index)
  | goto pos => plain (Container.goto pos)
  | position => plain Container.position
  | readSection tag use => Checked.readSection tag use
  | readChunkAt index expected => Checked.readChunkAt index expected
  | beginMediaList => Checked.beginMediaList
  | readMedia => Checked.readMedia
  | endMediaList => Checked.endMediaList
  | topLevelChunks => Checked.topLevelChunks

/-- What a caller may ask. -/
def Allowed : Query τ → Prop
  | goto pos => pos ≤ Chunk.lastStart
  | _ => True

variable {data : Bytes}

theorem agrees (hdata : data.length < UInt64.size / 2) {query : Query τ} (hallowed : query.Allowed) :
    Agrees (Container.InRange data) (fun _ => True) query.checked query.run := by
  cases query with
  | openForm => exact Checked.agrees_openForm hdata
  | close => exact Checked.agrees_close hdata
  | readHeader => exact Checked.agrees_readHeaderChunk hdata
  | beginToc reserved => exact Checked.keeps_beginToc reserved
  | addTocEntry label offset => exact Checked.keeps_addTocEntry label offset
  | endToc => exact Checked.keeps_endToc
  | readToc => exact Checked.agrees_readToc hdata
  | tocOffset index => exact (Checked.keeps_tocOffset index).mono fun _ _ => trivial
  | goto pos => exact Checked.keeps_onStream (Checked.keeps_goto hallowed)
  | position => exact (Checked.keeps_onStream Checked.keeps_position).mono fun _ _ => trivial
  | readSection tag use => exact Checked.agrees_readSection hdata tag use
  | readChunkAt index expected => exact Checked.agrees_readChunkAt hdata index expected
  | beginMediaList => exact Checked.agrees_beginMediaList hdata
  | readMedia => exact Checked.agrees_readMedia hdata
  | endMediaList => exact Checked.agrees_endMediaList hdata
  | topLevelChunks => exact (Checked.agrees_topLevelChunks hdata).mono fun _ _ => trivial

end Query

namespace Container

/-- The containers over data that a caller comes to. A body that runs inside a media list comes between its
entering and its end. -/
inductive Toured (data : Bytes) : Container → Prop
  | fresh {container : Container} (h : ofBytes data = .ok container) : Toured data container
  | call {container : Container} {τ : Type} (query : Query τ) (h : Toured data container)
      (hallowed : query.Allowed) : Toured data (query.run.outcome container).2
  | enter {container : Container} (h : Toured data container) :
      Toured data (enterMediaList.outcome container).2

variable {data : Bytes} {container : Container}

/-- What a tour keeps. -/
theorem Toured.inRange (hdata : data.length < UInt64.size / 2) (h : Toured data container) :
    container.InRange data := by
  induction h with
  | @fresh container h =>
      have hstart : (Stream.ofBytes data).InRange data := ⟨rfl, Nat.zero_le _⟩
      obtain ⟨_, hleft, _⟩ := (Checked.keeps_detectOrder hdata).ends hstart
      rw [ofBytes] at h
      generalize detectOrder.outcome (Stream.ofBytes data) = ends at h hleft
      obtain ⟨_ | order, stream⟩ := ends
      · cases h
      · cases h
        exact ⟨hleft, by rintro _ ⟨⟩, by rintro _ ⟨⟩⟩
  | call query h hallowed ih => exact ((query.agrees hdata hallowed).ends ih).2.1
  | enter h ih => exact ((Checked.agrees_enterMediaList hdata).ends ih).2.1

end Container

/-- Positions do not leave the range of 64 bits. Wherever a caller has come to, an operation with checked
arithmetic comes to the same end as the operation itself, and so do bodies that run inside a chunk or a media
list if they do so themselves. All chunks whose headers are read, that a caller is given or that a container has
open start behind their headers and inside the data, so that the start of a header is no negative number. -/
theorem positions_in_range {data : Bytes} (hdata : data.length < UInt64.size / 2) :
    (∀ order pos chunk, Chunk.at? order data pos = some chunk →
      chunk.headerLength ≤ chunk.offset ∧ chunk.offset ≤ data.length) ∧
    (∀ stream known, Navigation.Toured data stream known →
      (∀ chunk ∈ known, chunk.headerLength ≤ chunk.offset ∧ chunk.offset ≤ data.length) ∧
      (∀ operation : Navigation, operation.Allowed known →
        operation.checked.outcome stream = (plain operation.run).outcome stream) ∧
      ∀ (order : ByteOrder) (descent : Descent) (parent : Option Chunk),
        (∀ chunk, parent = some chunk → chunk ∈ known) →
        ∀ (α : Type) (body : Chunk → Checked Stream α) (body' : Chunk → Reading α),
          (∀ chunk entered, (Chunk.descend order descent parent).outcome stream = (.ok chunk, entered) →
            (body chunk).outcome entered = (plain (body' chunk)).outcome entered) →
          (Checked.visit order descent parent body).outcome stream =
            (plain (Chunk.visit order descent parent body')).outcome stream) ∧
    ∀ container, Container.Toured data container →
      (∀ chunk, container.form = some chunk ∨ container.mediaList = some chunk →
        chunk.headerLength ≤ chunk.offset ∧ chunk.offset ≤ data.length) ∧
      (∀ (τ : Type) (query : Query τ), query.Allowed →
        query.checked.outcome container = (plain query.run).outcome container) ∧
      (∀ (α : Type) (body : MediaInfo → Checked Container α) (body' : MediaInfo → ContainerStep α),
        (∀ info entered, Container.enterMediaList.outcome container = (.ok info, entered) →
          (body info).outcome entered = (plain (body' info)).outcome entered ∧
            Container.Toured data ((body' info).outcome entered).2) →
        (Checked.withMediaList body).outcome container =
          (plain (Container.withMediaList body')).outcome container) ∧
      ∀ chunks, (Container.topLevelChunks.outcome container).1 = .ok chunks → ∀ chunk ∈ chunks,
        chunk.headerLength ≤ chunk.offset ∧ chunk.offset ≤ data.length ∧
          Checked.difference? chunk.offset chunk.headerLength = some chunk.start := by
  refine ⟨fun order pos chunk hat => ?_, ?_, ?_⟩
  · exact ⟨(Chunk.within_of_at? hat).header, (Chunk.within_of_at? hat).offset⟩
  · intro stream known h
    obtain ⟨hstream, hknown⟩ := h.inRange hdata
    refine ⟨fun chunk hmem => ⟨(hknown chunk hmem).header, (hknown chunk hmem).offset⟩, ?_, ?_⟩
    · exact fun operation hallowed => (Navigation.agrees hdata hknown hallowed).outcome_eq hstream
    · exact fun order descent parent hparent _ body body' hbody =>
        Checked.outcome_visit hdata order descent (fun chunk hchunk => hknown chunk (hparent chunk hchunk))
          hstream hbody
  · intro container h
    have hrange := h.inRange hdata
    refine ⟨?_, fun _ query hallowed => (query.agrees hdata hallowed).outcome_eq hrange, ?_, ?_⟩
    · rintro chunk (hform | hlist)
      · exact ⟨(hrange.form chunk hform).header, (hrange.form chunk hform).offset⟩
      · exact ⟨(hrange.list chunk hlist).header, (hrange.list chunk hlist).offset⟩
    · exact fun _ body body' hbody => Checked.outcome_withMediaList hdata hrange fun info entered henter =>
        ⟨(hbody info entered henter).1, (hbody info entered henter).2.inRange hdata⟩
    · intro chunks hchunks chunk hmem
      have hwithin := ((Checked.agrees_topLevelChunks hdata).ends hrange).2.2 chunks hchunks chunk hmem
      exact ⟨hwithin.header, hwithin.offset, if_pos hwithin.header⟩

/-- A group is looked for from the last position at which a header can start, and the sum is in range; from
the next one it is not. -/
theorem torn_in_range :
    Container.torn.length < UInt64.size / 2 ∧
    Container.Toured Container.torn
      (Container.tornAt (some ⟨Tag.ppbe, 22, Tag.mlrt, 12⟩) Chunk.lastStart) ∧
    (Checked.readSection Tag.grp Except.ok).outcome
        (Container.tornAt (some ⟨Tag.ppbe, 22, Tag.mlrt, 12⟩) Chunk.lastStart) =
      (.error (.format (.chunkNotFound Tag.grp Tag.ppbe)),
        Container.tornAt (some ⟨Tag.ppbe, 22, Tag.mlrt, 12⟩) Chunk.lastStart) ∧
    Checked.walk .big Container.torn 34 (Checked.sectionVerdict Tag.grp) (Chunk.lastStart + 1) = none := by
  have hdata : Container.torn.length < UInt64.size / 2 := by decide
  have hfresh : Container.Toured Container.torn (Container.tornAt none 0) := .fresh rfl
  have hopened : Container.Toured Container.torn
      (Container.tornAt (some ⟨Tag.ppbe, 22, Tag.mlrt, 12⟩) 12) :=
    hfresh.call (.openForm : Query Unit) trivial
  have htoured : Container.Toured Container.torn
      (Container.tornAt (some ⟨Tag.ppbe, 22, Tag.mlrt, 12⟩) Chunk.lastStart) :=
    hopened.call (.goto Chunk.lastStart : Query Unit) (Nat.le_refl _)
  have hread := ((positions_in_range hdata).2.2 _ htoured).2.1 Bytes (.readSection Tag.grp Except.ok) trivial
  have hform : (Container.tornAt (some ⟨Tag.ppbe, 22, Tag.mlrt, 12⟩) Chunk.lastStart).form =
      some ⟨Tag.ppbe, 22, Tag.mlrt, 12⟩ := rfl
  have hmissing : (Container.readSection Tag.grp Except.ok).outcome
      (Container.tornAt (some ⟨Tag.ppbe, 22, Tag.mlrt, 12⟩) Chunk.lastStart) =
        (.error (.chunkNotFound Tag.grp Tag.ppbe),
          Container.tornAt (some ⟨Tag.ppbe, 22, Tag.mlrt, 12⟩) Chunk.lastStart) :=
    Container.outcome_readSection_ended Except.ok hform (by decide) (Nat.le_refl _) (.here Chunk.lastStart)
      (by decide) (List.forall_mem_nil _)
  refine ⟨hdata, htoured, hread.trans (Checked.outcome_plain hmissing), ?_⟩
  rw [Checked.walk]
  rfl

end Playprint
