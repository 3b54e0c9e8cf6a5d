import Playprint.Proofs.Container.Sections
import Playprint.Proofs.Program

/-!
Reading data that was cut off. Sizes are declared in chunk headers, availability is checked in some places
and left to the reads in others, and seeking never fails; still no success hangs on where the data ends.
Whatever a sequence of operations answers on the beginning of some data, it answers on all of it, and it
stands at the same position after each operation. The operations come as programs, in which everything may
depend on what was answered before, and bodies that run inside a chunk or a media list are programs again.
-/

namespace Playprint

theorem Bytes.slice?_append {data part : Bytes} {start count : Nat} (more : Bytes)
    (h : data.slice? start count = some part) : (data ++ more).slice? start count = some part := by
  simp only [slice?] at h ⊢
  split at h
  · rename_i hlength
    rw [List.length_take] at hlength
    rw [List.drop_append, List.take_append_of_le_length (by omega), if_pos (by rwa [List.length_take])]
    exact h
  · cases h

namespace Chunk

variable {order : ByteOrder} {data : Bytes} {pos limit : Nat} {chunk : Chunk}
  {verdict : Chunk → Verdict}

theorem wordAt?_append {word : UInt32} (more : Bytes) (h : wordAt? order data pos = some word) :
    wordAt? order (data ++ more) pos = some word := by
  simp only [wordAt?, Option.map_eq_some_iff] at h ⊢
  obtain ⟨part, hpart, hword⟩ := h
  exact ⟨part, Bytes.slice?_append more hpart, hword⟩

theorem at?_append (more : Bytes) (h : at? order data pos = some chunk) :
    at? order (data ++ more) pos = some chunk := by
  simp only [at?, bind, Option.bind_eq_some_iff] at h ⊢
  obtain ⟨tag, htag, size, hsize, h⟩ := h
  refine ⟨tag, wordAt?_append more htag, size, wordAt?_append more hsize, ?_⟩
  by_cases hform : (Tag.mk tag).hasForm
  · simp only [if_pos hform, Option.bind_eq_some_iff] at h ⊢
    obtain ⟨form, hword, hchunk⟩ := h
    exact ⟨form, wordAt?_append more hword, hchunk⟩
  · simp only [if_neg hform] at h ⊢
    exact h

theorem walk_of_at? (hfits : headerFits pos limit = true) (h : at? order data pos = some chunk) :
    walk order data limit verdict pos =
      match verdict chunk with
      | .found => .found chunk
      | .giveUp => .ended chunk.offset
      | .skip => walk order data limit verdict chunk.finish := by
  rw [walk, if_pos hfits]
  split <;> rename_i heq <;> rw [h] at heq <;> cases heq
  rfl

theorem walk_of_cut (hfits : headerFits pos limit = true) (h : at? order data pos = none) :
    walk order data limit verdict pos = .cut := by
  rw [walk, if_pos hfits]
  split
  · rfl
  · rename_i heq
    rw [h] at heq
    cases heq

/-- A walk that finds a chunk reads only headers that are wholly in the data. -/
theorem walk_append (more : Bytes) (h : walk order data limit verdict pos = .found chunk) :
    walk order (data ++ more) limit verdict pos = .found chunk := by
  fun_induction walk order data limit verdict pos with
  | case1 => cases h
  | case2 pos hfits found hat hverdict =>
      rw [walk_of_at? hfits (at?_append more hat), hverdict]
      exact h
  | case3 => cases h
  | case4 pos hfits skipped hat hverdict ih =>
      rw [walk_of_at? hfits (at?_append more hat), hverdict]
      exact ih h
  | case5 => cases h

theorem siblings_append {chunks : List Chunk} (more : Bytes)
    (h : siblings order data limit pos = some chunks) :
    siblings order (data ++ more) limit pos = some chunks := by
  fun_induction siblings order data limit pos generalizing chunks with
  | case1 => cases h
  | case2 pos hfits found hat ih =>
      obtain ⟨rest, hrest, rfl⟩ := Option.map_eq_some_iff.mp h
      rw [siblings_next hfits (at?_append more hat), ih hrest, Option.map_some]
  | case3 pos hfits =>
      rw [siblings, if_neg hfits]
      exact h

end Chunk

/-! ### Reading a stream -/

namespace Stream

open Step (Survives)

variable {order : ByteOrder}

/-- The stream with more data behind its own. -/
def extended (more : Bytes) (stream : Stream) : Stream :=
  { stream with data := stream.data ++ more }

theorem survives_goto (more : Bytes) (pos : Nat) : Survives (extended more) (goto pos) :=
  .modify fun _ => rfl

theorem survives_position (more : Bytes) : Survives (extended more) position := by
  rintro stream left a ⟨⟩
  rfl

theorem survives_take (more : Bytes) (activity : Activity) (count : Nat) :
    Survives (extended more) (take activity count) := by
  intro stream left part h
  simp only [take, Step.outcome_of] at h ⊢
  by_cases hcount : count = 0
  · rw [if_pos hcount] at h ⊢
    cases h
    rfl
  rw [if_neg hcount] at h ⊢
  cases hslice : stream.data.slice? stream.pos count with
  | none =>
      rw [hslice] at h
      cases h
  | some found =>
      rw [hslice] at h
      cases h
      simp only [extended, Bytes.slice?_append more hslice]
      rfl

theorem survives_readWord (more : Bytes) (order : ByteOrder) :
    Survives (extended more) (readWord order) :=
  (survives_take more _ _).bind fun _ => .pure _

theorem survives_readHalf (more : Bytes) (order : ByteOrder) :
    Survives (extended more) (readHalf order) :=
  (survives_take more _ _).bind fun _ => .pure _

theorem survives_ensureAvailable (more : Bytes) (start count : Nat) :
    Survives (extended more) (ensureAvailable start count) := by
  intro stream left a h
  simp only [ensureAvailable, Step.outcome_of] at h ⊢
  split at h
  · cases h
  · rename_i hroom
    cases h
    rw [if_neg]
    simp only [extended, List.length_append]
    omega

end Stream

namespace Chunk

open Step (Survives)
open Playprint.Stream (extended)

theorem survives_readHeader (more : Bytes) (order : ByteOrder) :
    Survives (extended more) (readHeader order) := by
  intro stream left chunk h
  simp only [readHeader, Step.outcome_of] at h ⊢
  cases hat : at? order stream.data stream.pos with
  | none =>
      rw [hat] at h
      cases h
  | some found =>
      rw [hat] at h
      cases h
      simp only [extended, at?_append more hat]
      rfl

theorem survives_readPayload (more : Bytes) (chunk : Chunk) :
    Survives (extended more) chunk.readPayload :=
  (Stream.survives_ensureAvailable more _ _).bind fun _ =>
    (Stream.survives_goto more _).bind fun _ => Stream.survives_take more _ _

theorem survives_ascend (more : Bytes) (chunk : Chunk) : Survives (extended more) chunk.ascend :=
  Stream.survives_goto more _

theorem survives_seekSibling (more : Bytes) (order : ByteOrder) (limit : Nat)
    (verdict : Chunk → Verdict) (missing : FormatError) :
    Survives (extended more) (seekSibling order limit verdict missing) := by
  intro stream left chunk h
  simp only [seekSibling, Step.outcome_of] at h ⊢
  cases hwalk : walk order stream.data limit verdict stream.pos with
  | found found =>
      rw [hwalk] at h
      cases h
      simp only [extended, walk_append more hwalk]
      rfl
  | ended pos | cut =>
      rw [hwalk] at h
      cases h

theorem survives_seekChild (more : Bytes) (order : ByteOrder) (parent : Chunk) (name : Tag)
    (wanted : Chunk → Bool) : Survives (extended more) (seekChild order parent name wanted) :=
  (Stream.survives_goto more _).bind fun _ => survives_seekSibling more _ _ _ _

theorem survives_descend (more : Bytes) (order : ByteOrder) (descent : Descent)
    (parent : Option Chunk) : Survives (extended more) (descend order descent parent) := by
  cases descent with
  | next => exact survives_readHeader more order
  | child tag | list form =>
      cases parent with
      | none => exact .throw _
      | some parent => exact survives_seekChild more order parent _ _
  | outermost form =>
      cases parent with
      | some parent => exact .throw _
      | none =>
          refine (Stream.survives_goto more 0).bind fun _ =>
            (survives_readHeader more order).bind fun chunk => ?_
          dsimp only
          split
          · exact .throw_bind _ _
          split
          · exact .throw_bind _ _
          · exact .pure chunk

theorem survives_visit {α : Type} (more : Bytes) (order : ByteOrder) (descent : Descent)
    (parent : Option Chunk) {body : Chunk → Reading α}
    (hbody : ∀ chunk, Survives (extended more) (body chunk)) :
    Survives (extended more) (visit order descent parent body) :=
  (survives_descend more order descent parent).bind fun chunk =>
    (hbody chunk).closing (survives_ascend more chunk)

end Chunk

theorem survives_detectOrder (more : Bytes) :
    Step.Survives (Stream.extended more) detectOrder := by
  refine (Stream.survives_position more).bind fun saved => (Stream.survives_goto more 0).bind fun _ =>
    (Stream.survives_take more _ _).bind fun word => (Stream.survives_goto more saved).bind fun _ => ?_
  split
  · exact .pure _
  split
  · exact .pure _
  · exact .throw _

/-! ### Reading a container -/

namespace Container

open Step (Survives)

/-- The container with more data behind its own. -/
def extended (more : Bytes) (container : Container) : Container :=
  { container with stream := container.stream.extended more }

section
variable (more : Bytes)

theorem survives_onStream {α : Type} {reading : Reading α}
    (h : Survives (Stream.extended more) reading) : Survives (extended more) (onStream reading) :=
  h.on (fun _ => rfl) fun _ _ => rfl

theorem survives_readWord : Survives (extended more) readWord :=
  .get_bind (fun _ => rfl) fun _ => survives_onStream more (Stream.survives_readWord more _)

theorem survives_goto (pos : Nat) : Survives (extended more) (goto pos) :=
  survives_onStream more (Stream.survives_goto more pos)

theorem survives_position : Survives (extended more) position :=
  survives_onStream more (Stream.survives_position more)

theorem survives_descend (descent : Descent) (parent : Option Chunk) :
    Survives (extended more) (descend descent parent) :=
  .get_bind (fun _ => rfl) fun _ => survives_onStream more (Chunk.survives_descend more _ _ _)

theorem survives_ascend (chunk : Chunk) : Survives (extended more) (ascend chunk) :=
  survives_onStream more (Chunk.survives_ascend more chunk)

theorem survives_inside {α : Type} (chunk : Chunk) {body : ContainerStep α}
    (h : Survives (extended more) body) : Survives (extended more) (inside chunk body) :=
  h.closing (survives_ascend more chunk)

theorem survives_openForm : Survives (extended more) openForm :=
  (survives_descend more _ _).bind fun _ => .modify fun _ => rfl

theorem survives_openedForm : Survives (extended more) openedForm := by
  refine .get_bind (fun _ => rfl) fun container => ?_
  split
  · exact .pure _
  · exact .throw _

theorem survives_close : Survives (extended more) close := by
  refine (survives_openedForm more).bind fun _ => Survives.bind (.modify ?_) fun _ =>
    (survives_ascend more _).bind fun _ => survives_position more
  exact fun _ => rfl

theorem survives_expectNext (expected : Tag) : Survives (extended more) (expectNext expected) := by
  refine (survives_descend more _ _).bind fun chunk => ?_
  split
  · exact .pure _
  · exact (survives_ascend more _).bind fun _ => .throw _

theorem survives_readHeader : Survives (extended more) readHeader := by
  refine (survives_openedForm more).bind fun _ => (survives_expectNext more _).bind fun chunk => ?_
  refine Survives.bind (survives_inside more chunk ?_) fun header =>
    Survives.bind (.modify ?_) fun _ => .pure _
  · exact (survives_readWord more).bind fun _ => (survives_readWord more).bind fun _ => .pure _
  · exact fun _ => rfl

/-! ### The table of contents -/

theorem survives_beginToc (reserved : Nat) : Survives (extended more) (beginToc reserved) :=
  (Survives.ofExcept _).bind fun _ => .modify fun _ => rfl

theorem survives_pendingTable : Survives (extended more) pendingTable := by
  refine .get_bind (fun _ => rfl) fun container => ?_
  split
  · exact .pure _
  · exact .throw _

theorem survives_addTocEntry (label offset : UInt32) :
    Survives (extended more) (addTocEntry label offset) := by
  refine (survives_pendingTable more).bind fun _ => (Survives.ofExcept _).bind fun ⟨index, toc⟩ =>
    Survives.bind (.modify ?_) fun _ => .pure _
  exact fun _ => rfl

theorem survives_endToc : Survives (extended more) endToc := by
  refine (survives_pendingTable more).bind fun _ => Survives.bind (.modify ?_) fun _ => .pure _
  exact fun _ => rfl

theorem survives_decodeToc (chunk : Chunk) : Survives (extended more) (decodeToc chunk) := by
  refine (survives_readWord more).bind fun count => ?_
  dsimp only
  split
  · exact .throw_bind _ _
  refine (survives_beginToc more _).bind fun _ =>
    Survives.bind (Survives.times ?_ _) fun _ => survives_endToc more
  exact (survives_readWord more).bind fun _ => (survives_readWord more).bind fun _ =>
    survives_addTocEntry more _ _

theorem survives_readToc : Survives (extended more) readToc :=
  (survives_openedForm more).bind fun _ => (survives_expectNext more _).bind fun chunk =>
    survives_inside more chunk (survives_decodeToc more chunk)

theorem survives_tocOffset (index : Nat) : Survives (extended more) (tocOffset index) := by
  refine .get_bind (fun _ => rfl) fun container => ?_
  split
  · exact .ofExcept _
  · exact .throw _

/-! ### Sections and media -/

theorem survives_readSection {α : Type} (tag : Tag) (use : Bytes → Except FormatError α) :
    Survives (extended more) (readSection tag use) := by
  refine (survives_openedForm more).bind fun form => .get_bind (fun _ => rfl) fun container => ?_
  refine (survives_onStream more (Chunk.survives_seekSibling more _ _ _ _)).bind fun chunk => ?_
  exact (survives_inside more chunk (survives_onStream more (Chunk.survives_readPayload more chunk))).bind
    fun _ => .ofExcept _

theorem survives_readChunkAt (index : Nat) (expected : Tag) :
    Survives (extended more) (readChunkAt index expected) :=
  (survives_tocOffset more index).bind fun _ => (survives_goto more _).bind fun _ =>
    (survives_expectNext more expected).bind fun chunk =>
      survives_inside more chunk (survives_onStream more (Chunk.survives_readPayload more chunk))

theorem survives_beginMediaList : Survives (extended more) beginMediaList := by
  refine (survives_expectNext more _).bind fun list => ?_
  dsimp only
  split
  · exact (survives_ascend more _).bind fun _ => .throw_bind _ _
  refine Survives.bind (Survives.modify fun _ => rfl) fun _ =>
    (survives_descend more _ _).bind fun chunk => survives_inside more chunk ?_
  exact (survives_readWord more).bind fun _ => (survives_readWord more).bind fun _ =>
    (survives_readWord more).bind fun _ => .pure _

theorem survives_openMediaList : Survives (extended more) openMediaList := by
  refine .get_bind (fun _ => rfl) fun container => ?_
  split
  · exact .pure _
  · exact .throw _

theorem survives_decodeMedia (chunk : Chunk) : Survives (extended more) (decodeMedia chunk) := by
  refine (survives_readWord more).bind fun _ => (survives_readWord more).bind fun _ =>
    (survives_readWord more).bind fun size => ?_
  dsimp only
  split
  · exact .throw_bind _ _
  · exact (survives_onStream more (Stream.survives_ensureAvailable more _ _)).bind fun _ =>
      (survives_onStream more (Stream.survives_take more _ _)).bind fun _ => .pure _

theorem survives_readMedia : Survives (extended more) readMedia := by
  refine (survives_openMediaList more).bind fun list => (survives_position more).bind fun pos => ?_
  dsimp only
  split
  · exact .throw_bind _ _
  · exact (survives_expectNext more _).bind fun chunk =>
      survives_inside more chunk (survives_decodeMedia more chunk)

theorem survives_endMediaList : Survives (extended more) endMediaList := by
  refine (survives_openMediaList more).bind fun _ => Survives.bind (.modify ?_) fun _ =>
    survives_ascend more _
  exact fun _ => rfl

theorem survives_withMediaList {α : Type} {body : MediaInfo → ContainerStep α}
    (h : ∀ info, Survives (extended more) (body info)) :
    Survives (extended more) (withMediaList body) :=
  ((survives_beginMediaList more).onFailure abandonMediaList).bind fun info =>
    (h info).closing (survives_endMediaList more)

/-- A listing that comes to the end of the form has read every header. -/
theorem survives_topLevelChunks : Survives (extended more) topLevelChunks := by
  refine (survives_openedForm more).bind fun form => ?_
  intro container left chunks h
  rw [Step.outcome_bind_ok (Step.outcome_get _)] at h ⊢
  cases hlist : Chunk.siblings container.order container.stream.data form.stop form.offset with
  | none =>
      rw [hlist] at h
      cases h
  | some found =>
      rw [hlist] at h
      cases h
      have hmore := Chunk.siblings_append more hlist
      simp only [extended, Stream.extended, hmore]
      rfl

end

end Container

/-! ### Programs -/

/-- What a caller asks of a navigator over a stream. -/
inductive Navigation
  | detectOrder
  | goto (pos : Nat)
  | position
  | readWord (order : ByteOrder)
  | readHalf (order : ByteOrder)
  | take (count : Nat)
  | ensureAvailable (start count : Nat)
  | descend (order : ByteOrder) (descent : Descent) (parent : Option Chunk)
  | ascend (chunk : Chunk)
  | readPayload (chunk : Chunk)

namespace Navigation

/-- The type of what is answered. -/
def Answer : Navigation → Type
  | detectOrder => ByteOrder
  | position => Nat
  | readWord _ => UInt32
  | readHalf _ => UInt16
  | take _ | readPayload _ => Bytes
  | descend .. => Chunk
  | goto _ | ascend _ | ensureAvailable .. => Unit

def run : (operation : Navigation) → Reading operation.Answer
  | detectOrder => Playprint.detectOrder
  | goto pos => Stream.goto pos
  | position => Stream.position
  | readWord order => Stream.readWord order
  | readHalf order => Stream.readHalf order
  | take count => Stream.take .readingPayload count
  | ensureAvailable start count => Stream.ensureAvailable start count
  | descend order descent parent => Chunk.descend order descent parent
  | ascend chunk => chunk.ascend
  | readPayload chunk => chunk.readPayload

/-- Navigators in any byte order; a body runs inside a chunk, which is left after it. -/
def interface : Interface Stream where
  Operation := Navigation
  Answer := Answer
  run := run
  Scope := ByteOrder × Descent × Option Chunk
  Inner _ := Chunk
  enter := fun (order, descent, parent) {_} body => Chunk.visit order descent parent body
  position := Stream.position

theorem survives (more : Bytes) : interface.Survives (Stream.extended more) where
  run operation := by
    cases operation with
    | detectOrder => exact survives_detectOrder more
    | goto pos => exact Stream.survives_goto more pos
    | position => exact Stream.survives_position more
    | readWord order => exact Stream.survives_readWord more order
    | readHalf order => exact Stream.survives_readHalf more order
    | take count => exact Stream.survives_take more _ count
    | ensureAvailable start count => exact Stream.survives_ensureAvailable more start count
    | descend order descent parent => exact Chunk.survives_descend more order descent parent
    | ascend chunk => exact Chunk.survives_ascend more chunk
    | readPayload chunk => exact Chunk.survives_readPayload more chunk
  enter := fun (order, descent, parent) _ _ hbody => Chunk.survives_visit more order descent parent hbody
  position := Stream.survives_position more

end Navigation

/-- What a caller asks of a container. The payload of a section goes to a function of the caller's, which
makes something of type `τ` of it, or fails. -/
inductive Query (τ : Type)
  | openForm
  | close
  | readHeader
  | beginToc (reserved : Nat)
  | addTocEntry (label offset : UInt32)
  | endToc
  | readToc
  | tocOffset (index : Nat)
  | goto (pos : Nat)
  | position
  | readSection (tag : Tag) (use : Bytes → Except FormatError τ)
  | readChunkAt (index : Nat) (expected : Tag)
  | beginMediaList
  | readMedia
  | endMediaList
  | topLevelChunks

namespace Query

variable {τ : Type}

/-- The type of what is answered. -/
def Answer : Query τ → Type
  | openForm | beginToc _ | goto _ | endMediaList => Unit
  | close | endToc | readToc | tocOffset _ | position => Nat
  | addTocEntry .. => UInt32
  | readHeader => Header
  | readSection .. => τ
  | readChunkAt .. => Bytes
  | beginMediaList => MediaInfo
  | readMedia => Media
  | topLevelChunks => List Chunk

def run : (query : Query τ) → ContainerStep query.Answer
  | openForm => Container.openForm
  | close => Container.close
  | readHeader => Container.readHeader
  | beginToc reserved => Container.beginToc reserved
  | addTocEntry label offset => Container.addTocEntry label offset
  | endToc => Container.endToc
  | readToc => Container.readToc
  | tocOffset index => Container.tocOffset index
  | goto pos => Container.goto pos
  | position => Container.position
  | readSection tag use => Container.readSection tag use
  | readChunkAt index expected => Container.readChunkAt index expected
  | beginMediaList => Container.beginMediaList
  | readMedia => Container.readMedia
  | endMediaList => Container.endMediaList
  | topLevelChunks => Container.topLevelChunks

/-- Containers; a body runs inside a media list, which is left after it. -/
def interface (τ : Type) : Interface Container where
  Operation := Query τ
  Answer := Answer
  run := run
  Scope := Unit
  Inner _ := MediaInfo
  enter _ := Container.withMediaList
  position := Container.position

theorem survives (τ : Type) (more : Bytes) : (interface τ).Survives (Container.extended more) where
  run query := by
    cases query with
    | openForm => exact Container.survives_openForm more
    | close => exact Container.survives_close more
    | readHeader => exact Container.survives_readHeader more
    | beginToc reserved => exact Container.survives_beginToc more reserved
    | addTocEntry label offset => exact Container.survives_addTocEntry more label offset
    | endToc => exact Container.survives_endToc more
    | readToc => exact Container.survives_readToc more
    | tocOffset index => exact Container.survives_tocOffset more index
    | goto pos => exact Container.survives_goto more pos
    | position => exact Container.survives_position more
    | readSection tag use => exact Container.survives_readSection more tag use
    | readChunkAt index expected => exact Container.survives_readChunkAt more index expected
    | beginMediaList => exact Container.survives_beginMediaList more
    | readMedia => exact Container.survives_readMedia more
    | endMediaList => exact Container.survives_endMediaList more
    | topLevelChunks => exact Container.survives_topLevelChunks more
  enter _ _ _ hbody := Container.survives_withMediaList more hbody
  position := Container.survives_position more

end Query

namespace Container

theorem ofBytes_append {data : Bytes} {container : Container} (more : Bytes)
    (h : ofBytes data = .ok container) : ofBytes (data ++ more) = .ok (container.extended more) := by
  simp only [ofBytes] at h ⊢
  rcases hdetect : detectOrder.outcome (Stream.ofBytes data) with ⟨_ | order, stream⟩
  · rw [hdetect] at h
    cases h
  · have hmore := survives_detectOrder more _ _ _ hdetect
    rw [hdetect] at h
    cases h
    rw [show Stream.ofBytes (data ++ more) = (Stream.ofBytes data).extended more from rfl, hmore]
    rfl

/-- Loading opens a container and then reads its leading chunks. -/
theorem load_eq_ok_iff {data : Bytes} {container : Container} :
    load data = .ok container ↔
      ∃ fresh, ofBytes data = .ok fresh ∧
        Step.outcome (do openForm; let _ ← readHeader; let _ ← readToc) fresh = (.ok (), container) := by
  simp only [load]
  cases ofBytes data with
  | error e =>
      constructor
      · rintro ⟨⟩
      · rintro ⟨_, ⟨⟩, _⟩
  | ok fresh =>
      simp only [bind, Except.bind, Except.ok.injEq, exists_eq_left']
      generalize Step.outcome _ fresh = outcome
      rcases outcome with ⟨_ | _, left⟩ <;> constructor <;> rintro ⟨⟩ <;> rfl

theorem load_append {data : Bytes} {container : Container} (more : Bytes)
    (h : load data = .ok container) : load (data ++ more) = .ok (container.extended more) := by
  obtain ⟨fresh, hfresh, hreads⟩ := load_eq_ok_iff.mp h
  have hsurvives := (survives_openForm more).bind fun _ => (survives_readHeader more).bind fun _ =>
    (survives_readToc more).bind fun _ => Step.Survives.pure ()
  exact load_eq_ok_iff.mpr ⟨_, ofBytes_append more hfresh, hsurvives _ _ _ hreads⟩

end Container

/-- Data that was cut off never answers anything else than the whole data would. Whatever a program of a
navigator sees on the beginning of some data, it sees on all of it, at the same positions, and it ends in
the same place; and a container that opens on the beginning opens on the whole data just the same, with
every program of its callers seeing the same in both. -/
theorem success_survives_more_data (τ : Type) (data more : Bytes) :
    (∀ (program : Program Navigation.interface) (pos : Nat) seen left,
      program.run.outcome ⟨data, pos⟩ = (.ok seen, left) →
        program.run.outcome ⟨data ++ more, pos⟩ = (.ok seen, left.extended more)) ∧
    (∀ opening ∈ [Container.ofBytes, Container.load], ∀ container, opening data = .ok container →
      opening (data ++ more) = .ok (container.extended more) ∧
      ∀ (program : Program (Query.interface τ)) seen left,
        program.run.outcome container = (.ok seen, left) →
          program.run.outcome (container.extended more) = (.ok seen, left.extended more)) := by
  constructor
  · intro program pos seen left h
    exact program.survives_run (Navigation.survives more) ⟨data, pos⟩ left seen h
  · intro opening hopening container hopens
    constructor
    · obtain rfl | rfl : opening = Container.ofBytes ∨ opening = Container.load := by
        simpa using hopening
      · exact Container.ofBytes_append more hopens
      · exact Container.load_append more hopens
    · intro program seen left h
      exact program.survives_run (Query.survives τ more) container left seen h

deriving instance DecidableEq for Stream, Chunk, Header, TocEntry, Toc, Container

/-- A container with one group, of a single byte, that ends without the pad byte behind it. -/
def unpadded : Bytes :=
  Tag.ppbe.bytes ++ [0, 0, 0, 50] ++ Tag.mlrt.bytes ++
    Tag.hdr.bytes ++ [0, 0, 0, 8, 0, 0, 0, 1, 0, 0, 0, 2] ++
    Tag.toc.bytes ++ [0, 0, 0, 12, 0, 0, 0, 1, 0, 0, 0, 0, 0, 0, 0, 48] ++
    Tag.grp.bytes ++ [0, 0, 0, 1, 0x8a]

/-- What is loaded from it, with the stream at a position. -/
def unpaddedAt (pos : Nat) : Container where
  order := .big
  stream := ⟨unpadded, pos⟩
  path := none
  form := some ⟨Tag.ppbe, 50, Tag.mlrt, 12⟩
  header := some ⟨1, 2⟩
  toc := some ⟨1, #[⟨0, 48⟩]⟩
  pendingToc := none
  mediaList := none

/-- Tells the byte order, and looks at the first chunk inside the outermost one. -/
def looksInside : Program Navigation.interface :=
  .call .detectOrder fun order =>
    .within (order, .outermost Tag.mlrt, none)
      (fun _ => .call (.descend order .next none) fun _ => .stop) fun _ => .stop

/-- The group is read to its end, and the stream left behind the data, where the pad byte would end. -/
theorem unpadded_reads :
    Container.load unpadded = .ok (unpaddedAt 48) ∧
    Container.load (unpadded ++ [0]) = .ok ((unpaddedAt 48).extended [0]) ∧
    (∃ program : Program (Query.interface Unit),
      program.run.outcome ((unpaddedAt 48).extended [0]) =
        (.ok [.answered (.readChunkAt 0 Tag.grp) [(0x8a : UInt8)] 58], (unpaddedAt 58).extended [0])) ∧
    looksInside.run.outcome ⟨unpadded ++ [0], 0⟩ =
      (.ok [.answered .detectOrder ByteOrder.big 0,
          .entered (.big, .outermost Tag.mlrt, none) ⟨Tag.ppbe, 50, Tag.mlrt, 12⟩ 12,
          .answered (.descend .big .next none) ⟨Tag.hdr, 8, Tag.blank, 20⟩ 20, .left 62],
        Stream.extended [0] ⟨unpadded, 62⟩) := by
  have ⟨htours, hopens⟩ := success_survives_more_data Unit unpadded [0]
  have hload : Container.load unpadded = .ok (unpaddedAt 48) := by
    have hloaded : (Container.load unpadded).toOption = some (unpaddedAt 48) := by decide +kernel
    rcases hanswer : Container.load unpadded with error | container
    · rw [hanswer] at hloaded
      cases hloaded
    · rw [hanswer] at hloaded
      rw [Option.some.inj hloaded]
  have ⟨hmore, hprograms⟩ := hopens Container.load (by simp) _ hload
  refine ⟨hload, hmore, ⟨.call (.readChunkAt 0 Tag.grp) fun _ => .stop, ?_⟩, htours _ _ _ _ rfl⟩
  exact hprograms _ _ (unpaddedAt 58) rfl

end Playprint
