import Playprint.Proofs.Container.Reading
import Playprint.Proofs.Paired

/-!
What reading a container depends on. Two containers with the same bytes, byte order and table of contents
answer alike wherever their streams stand and whatever else they hold, as soon as the position was set by a
table entry; and reading changes nothing but the position and the media list that is open.
-/

namespace Playprint

open Step (Along Paired Same)

namespace Stream

/-- At most the position has changed. -/
def Moves (before after : Stream) : Prop :=
  ∃ pos, after = before.seek pos

instance : Std.Refl Moves := ⟨fun stream => ⟨stream.pos, rfl⟩⟩

instance : Trans Moves Moves Moves where
  trans := by
    rintro before mid after ⟨_, rfl⟩ ⟨pos, rfl⟩
    exact ⟨pos, rfl⟩

theorem moves_goto (pos : Nat) : Along Moves (goto pos) := fun _ => ⟨pos, rfl⟩

theorem moves_position : Along Moves position := Along.get.bind fun _ => .pure _

theorem moves_take (activity : Activity) (count : Nat) : Along Moves (take activity count) := by
  intro stream
  simp only [take, Step.outcome_of]
  split
  · exact Std.Refl.refl stream
  split
  · exact ⟨_, rfl⟩
  · exact ⟨_, rfl⟩

theorem moves_readWord (order : ByteOrder) : Along Moves (readWord order) :=
  (moves_take _ _).bind fun _ => .pure _

theorem moves_ensureAvailable (start count : Nat) : Along Moves (ensureAvailable start count) := by
  intro stream
  simp only [ensureAvailable, Step.outcome_of]
  split <;> exact Std.Refl.refl stream

end Stream

namespace Chunk

open Playprint.Stream (Moves)

theorem moves_readHeader (order : ByteOrder) : Along Moves (readHeader order) := by
  intro stream
  simp only [readHeader, Step.outcome_of]
  split
  · exact ⟨_, rfl⟩
  · exact ⟨_, rfl⟩

theorem moves_readPayload (chunk : Chunk) : Along Moves chunk.readPayload :=
  (Stream.moves_ensureAvailable _ _).bind fun _ => (Stream.moves_goto _).bind fun _ =>
    Stream.moves_take _ _

theorem moves_seekChild (order : ByteOrder) (parent : Chunk) (name : Tag) (wanted : Chunk → Bool) :
    Along Moves (seekChild order parent name wanted) := by
  refine (Stream.moves_goto _).bind fun _ stream => ?_
  simp only [seekSibling, Step.outcome_of]
  split
  · exact ⟨_, rfl⟩
  · exact ⟨_, rfl⟩
  · exact ⟨_, rfl⟩

theorem moves_descend (order : ByteOrder) (descent : Descent) (parent : Option Chunk) :
    Along Moves (descend order descent parent) := by
  cases descent with
  | next => exact moves_readHeader order
  | child tag =>
      cases parent with
      | none => exact .throw _
      | some parent => exact moves_seekChild order parent tag _
  | list form =>
      cases parent with
      | none => exact .throw _
      | some parent => exact moves_seekChild order parent form _
  | outermost form =>
      cases parent with
      | some parent => exact .throw _
      | none =>
          refine (Stream.moves_goto 0).bind fun _ => (moves_readHeader order).bind fun chunk => ?_
          by_cases htag : chunk.tag ≠ order.formTag
          · simp only [if_pos htag]
            exact .throw _
          by_cases hform : chunk.form ≠ form
          · simp only [if_neg htag, if_pos hform]
            exact .throw _
          · simp only [if_neg htag, if_neg hform]
            exact .pure _

end Chunk

namespace Container

open Playprint.Stream (Moves)

/-- The same bytes, byte order and table of contents. -/
structure Agree (one other : Container) : Prop where
  order : one.order = other.order
  data : one.stream.data = other.stream.data
  toc : one.toc = other.toc

theorem Agree.refl (container : Container) : Agree container container := ⟨rfl, rfl, rfl⟩

theorem Agree.symm {one other : Container} (h : Agree one other) : Agree other one :=
  ⟨h.order.symm, h.data.symm, h.toc.symm⟩

theorem Agree.trans {one other third : Container} (h : Agree one other) (h' : Agree other third) :
    Agree one third :=
  ⟨h.order.trans h'.order, h.data.trans h'.data, h.toc.trans h'.toc⟩

theorem agree_moved (container : Container) (pos : Nat) : Agree container (container.moved pos) :=
  ⟨rfl, rfl, rfl⟩

theorem Agree.stream {one other : Container} (h : Agree one other) (pos : Nat) :
    (one.moved pos).stream = (other.moved pos).stream := by
  show Stream.mk one.stream.data pos = Stream.mk other.stream.data pos
  rw [h.data]

/-- Two containers that differ from these in position only, and stand at the same one. -/
def SideBySide (one other s t : Container) : Prop :=
  ∃ pos, s = one.moved pos ∧ t = other.moved pos

/-- Two containers that differ from these in position only. -/
def Apart (one other s t : Container) : Prop :=
  ∃ pos pos', s = one.moved pos ∧ t = other.moved pos'

theorem SideBySide.apart {one other s t : Container} (h : SideBySide one other s t) :
    Apart one other s t :=
  h.imp fun pos h => ⟨pos, h⟩

variable {one other : Container} {α : Type}

theorem paired_onStream (hagree : Agree one other) {reading : Reading α} (h : Along Moves reading) :
    Paired (SideBySide one other) (Same (SideBySide one other)) (SideBySide one other)
      (onStream reading) (onStream reading) := by
  rintro s t ⟨pos, rfl, rfl⟩
  rw [onStream, Step.outcome_on, Step.outcome_on, ← hagree.stream pos]
  obtain ⟨left, hleft⟩ := h (one.moved pos).stream
  rcases hend : reading.outcome (one.moved pos).stream with ⟨e | a, stream⟩
  all_goals
    rw [hend] at hleft
    obtain rfl : stream = _ := hleft
    have hmoved : SideBySide one other
        { one.moved pos with stream := (one.moved pos).stream.seek left }
        { other.moved pos with stream := (one.moved pos).stream.seek left } := by
      refine ⟨left, rfl, ?_⟩
      rw [hagree.stream pos]
      rfl
  · exact .error hmoved
  · exact .ok ⟨rfl, hmoved⟩

theorem paired_inOrder (hagree : Agree one other) {reading : ByteOrder → Reading α}
    (h : ∀ order, Along Moves (reading order)) :
    Paired (SideBySide one other) (Same (SideBySide one other)) (SideBySide one other)
      (do onStream (reading (← get).order)) (do onStream (reading (← get).order)) := by
  apply Paired.get_bind
  rintro s t ⟨pos, rfl, rfl⟩
  have horder : (one.moved pos).order = (other.moved pos).order := hagree.order
  rw [horder]
  exact paired_onStream hagree (h _) _ _ ⟨pos, rfl, rfl⟩

theorem paired_readWord (hagree : Agree one other) :
    Paired (SideBySide one other) (Same (SideBySide one other)) (SideBySide one other)
      readWord readWord :=
  paired_inOrder hagree Stream.moves_readWord

theorem paired_ascend (hagree : Agree one other) (chunk : Chunk) :
    Paired (SideBySide one other) (Same (SideBySide one other)) (SideBySide one other)
      (ascend chunk) (ascend chunk) :=
  paired_onStream hagree (Stream.moves_goto _)

theorem paired_inside (hagree : Agree one other) (chunk : Chunk) {body : ContainerStep α}
    (h : Paired (SideBySide one other) (Same (SideBySide one other)) (SideBySide one other) body body) :
    Paired (SideBySide one other) (Same (SideBySide one other)) (SideBySide one other)
      (inside chunk body) (inside chunk body) :=
  h.closing_same (paired_ascend hagree chunk)

theorem paired_expectNext (hagree : Agree one other) (expected : Tag) :
    Paired (SideBySide one other) (Same (SideBySide one other)) (SideBySide one other)
      (expectNext expected) (expectNext expected) := by
  refine (paired_inOrder hagree Chunk.moves_readHeader).bind_same fun chunk => ?_
  by_cases htag : chunk.tag = expected
  · simp only [if_pos htag]
    exact .pure fun _ _ hst => ⟨rfl, hst⟩
  · simp only [if_neg htag]
    exact (paired_ascend hagree chunk).bind_same fun _ => .throw _ fun _ _ => id

/-! ### Chunks of table entries -/

theorem paired_tocOffset (hagree : Agree one other) (index : Nat) :
    Paired (Apart one other) (Same (Apart one other)) (Apart one other)
      (tocOffset index) (tocOffset index) := by
  apply Paired.get_bind
  rintro s t ⟨pos, pos', rfl, rfl⟩
  have htoc : (one.moved pos).toc = (other.moved pos').toc := hagree.toc
  rw [htoc]
  cases (other.moved pos').toc with
  | none => exact .error ⟨pos, pos', rfl, rfl⟩
  | some toc => exact Paired.ofExcept (toc.offset index) _ _ ⟨pos, pos', rfl, rfl⟩

theorem paired_goto (pos : Nat) :
    Paired (Apart one other) (Same (SideBySide one other)) (SideBySide one other)
      (goto pos) (goto pos) := by
  rintro s t ⟨_, _, rfl, rfl⟩
  exact .ok ⟨rfl, pos, rfl, rfl⟩

theorem paired_readChunkAt (hagree : Agree one other) (index : Nat) (expected : Tag) :
    Paired (Apart one other) (Same (Apart one other)) (Apart one other)
      (readChunkAt index expected) (readChunkAt index expected) := by
  refine (paired_tocOffset hagree index).bind_same fun offset => ?_
  have hread : Paired (SideBySide one other) (Same (SideBySide one other)) (SideBySide one other)
      (do let chunk ← expectNext expected; inside chunk (onStream chunk.readPayload))
      (do let chunk ← expectNext expected; inside chunk (onStream chunk.readPayload)) :=
    (paired_expectNext hagree expected).bind_same fun chunk =>
      paired_inside hagree chunk (paired_onStream hagree chunk.moves_readPayload)
  exact ((paired_goto offset).bind_same fun _ => hread).mono (fun _ _ => id)
    (fun _ _ _ _ h => ⟨h.1, h.2.apart⟩) fun _ _ => SideBySide.apart

/-! ### Media lists -/

/-- The container with a media list open. -/
def listing (container : Container) (list : Chunk) : Container :=
  { container with mediaList := some list }

theorem Agree.listing {one other : Container} (h : Agree one other) (list : Chunk) :
    Agree (one.listing list) (other.listing list) :=
  ⟨h.order, h.data, h.toc⟩

/-- The bytes, byte order and table of contents of these two containers. -/
def Unharmed (one other s t : Container) : Prop :=
  Agree one s ∧ Agree other t

/-- Two containers with the same media list open, at the same position. -/
def Listing (one other s t : Container) : Prop :=
  ∃ list, SideBySide (one.listing list) (other.listing list) s t

theorem Apart.unharmed {s t : Container} (h : Apart one other s t) : Unharmed one other s t := by
  obtain ⟨pos, pos', rfl, rfl⟩ := h
  exact ⟨agree_moved one pos, agree_moved other pos'⟩

theorem Listing.unharmed {s t : Container} (h : Listing one other s t) : Unharmed one other s t := by
  obtain ⟨list, pos, rfl, rfl⟩ := h
  exact ⟨⟨rfl, rfl, rfl⟩, ⟨rfl, rfl, rfl⟩⟩

theorem Unharmed.abandonMediaList {s t : Container} (h : Unharmed one other s t) :
    Unharmed one other (abandonMediaList s) (abandonMediaList t) := by
  have hleave (container : Container) : Agree container (Container.abandonMediaList container) := by
    unfold Container.abandonMediaList
    split <;> exact ⟨rfl, rfl, rfl⟩
  exact ⟨h.1.trans (hleave s), h.2.trans (hleave t)⟩

theorem paired_enterMediaList (hagree : Agree one other) :
    Paired (SideBySide one other) (Same (Listing one other)) (Unharmed one other)
      enterMediaList enterMediaList := by
  refine Paired.onFailure (E := Unharmed one other) ?_ fun _ _ => Unharmed.abandonMediaList
  have hlist := (paired_expectNext hagree Tag.list).failing fun _ _ h => h.apart.unharmed
  refine hlist.bind_same fun list => ?_
  have hlisting := hagree.listing list
  by_cases hform : list.form = Tag.mrfl
  · simp only [hform, ne_eq, not_true_eq_false, if_false]
    refine Paired.bind (S := fun _ _ => SideBySide (one.listing list) (other.listing list))
      (.modify ?enter) fun _ _ => ?info
    case enter =>
      rintro s t ⟨pos, rfl, rfl⟩
      exact ⟨pos, rfl, rfl⟩
    case info =>
      refine Paired.mono (S := Same (SideBySide (one.listing list) (other.listing list)))
        (E := SideBySide (one.listing list) (other.listing list)) ?_ (fun _ _ => id)
        (fun _ _ _ _ h => ⟨h.1, list, h.2⟩) fun _ _ h => Listing.unharmed ⟨list, h⟩
      refine (paired_inOrder hlisting fun order => Chunk.moves_seekChild order list _ _).bind_same fun chunk =>
        paired_inside hlisting chunk ?_
      exact (paired_readWord hlisting).bind_same fun flags =>
        (paired_readWord hlisting).bind_same fun typeIndex =>
          (paired_readWord hlisting).bind_same fun count => .pure fun _ _ hst => ⟨rfl, hst⟩
  · simp only [ne_eq, hform, not_false_eq_true, if_true]
    refine ((paired_ascend hagree list).failing fun _ _ h => h.apart.unharmed).bind_same fun _ => ?_
    exact Paired.throw _ fun _ _ h => h.apart.unharmed

/-- With the same list open two containers stay so. -/
theorem paired_listing {step : ContainerStep α}
    (h : ∀ list, Paired (SideBySide (one.listing list) (other.listing list))
      (Same (SideBySide (one.listing list) (other.listing list)))
      (SideBySide (one.listing list) (other.listing list)) step step) :
    Paired (Listing one other) (Same (Listing one other)) (Listing one other) step step := by
  rintro s t ⟨list, hst⟩
  exact (h list s t hst).mono (fun _ _ _ _ h => ⟨h.1, list, h.2⟩) fun _ _ h => ⟨list, h⟩

theorem paired_openMediaList (list : Chunk) :
    Paired (SideBySide (one.listing list) (other.listing list))
      (Same (SideBySide (one.listing list) (other.listing list)))
      (SideBySide (one.listing list) (other.listing list)) openMediaList openMediaList := by
  apply Paired.get_bind
  rintro s t ⟨pos, rfl, rfl⟩
  exact .ok ⟨rfl, pos, rfl, rfl⟩

theorem paired_decodeMedia (hagree : Agree one other) (chunk : Chunk) :
    Paired (SideBySide one other) (Same (SideBySide one other)) (SideBySide one other)
      (decodeMedia chunk) (decodeMedia chunk) := by
  refine (paired_readWord hagree).bind_same fun flags => (paired_readWord hagree).bind_same fun mediaType =>
    (paired_readWord hagree).bind_same fun size => ?_
  by_cases hroom : chunk.size.toNat - 12 < size.toNat
  · simp only [if_pos hroom]
    exact Paired.throw _ fun _ _ => id
  · simp only [if_neg hroom]
    exact (paired_onStream hagree (Stream.moves_ensureAvailable _ _)).bind_same fun _ =>
      (paired_onStream hagree (Stream.moves_take _ _)).bind_same fun data =>
        .pure fun _ _ hst => ⟨rfl, hst⟩

theorem paired_readMedia (hagree : Agree one other) :
    Paired (Listing one other) (Same (Listing one other)) (Listing one other) readMedia readMedia := by
  apply paired_listing
  intro list
  have hlisting := hagree.listing list
  refine (paired_openMediaList list).bind_same fun list =>
    (paired_onStream hlisting Stream.moves_position).bind_same fun pos => ?_
  by_cases hfits : Chunk.headerFits pos list.stop
  · simp only [hfits, Bool.not_true, Bool.false_eq_true, if_false]
    exact (paired_expectNext hlisting _).bind_same fun chunk =>
      paired_inside hlisting chunk (paired_decodeMedia hlisting chunk)
  · simp only [hfits, Bool.not_false, if_true]
    exact Paired.throw _ fun _ _ => id

theorem paired_endMediaList :
    Paired (Listing one other) (Same (Unharmed one other)) (Unharmed one other)
      endMediaList endMediaList := by
  rintro s t ⟨list, pos, rfl, rfl⟩
  exact .ok ⟨rfl, ⟨rfl, rfl, rfl⟩, ⟨rfl, rfl, rfl⟩⟩

/-! ### Positions and bytes -/

/-- At most the position has changed. -/
def Shifts (before after : Container) : Prop :=
  ∃ pos, after = before.moved pos

instance : Std.Refl Shifts := ⟨fun container => ⟨container.stream.pos, rfl⟩⟩

instance : Trans Shifts Shifts Shifts where
  trans := by
    rintro before mid after ⟨_, rfl⟩ ⟨pos, rfl⟩
    exact ⟨pos, rfl⟩

theorem shifts_onStream {reading : Reading α} (h : Along Moves reading) :
    Along Shifts (onStream reading) := by
  intro container
  obtain ⟨pos, hpos⟩ := h container.stream
  refine ⟨pos, ?_⟩
  show { container with stream := (reading.outcome container.stream).2 } = container.moved pos
  rw [hpos]
  rfl

theorem shifts_readWord : Along Shifts readWord :=
  Along.get.bind fun container => shifts_onStream (Stream.moves_readWord container.order)

theorem shifts_descend (descent : Descent) (parent : Option Chunk) : Along Shifts (descend descent parent) :=
  Along.get.bind fun container => shifts_onStream (Chunk.moves_descend container.order descent parent)

theorem shifts_ascend (chunk : Chunk) : Along Shifts (ascend chunk) :=
  shifts_onStream (Stream.moves_goto _)

theorem shifts_expectNext (expected : Tag) : Along Shifts (expectNext expected) := by
  refine (shifts_descend _ _).bind fun chunk => ?_
  split
  · exact .pure _
  · exact (shifts_ascend chunk).bind fun _ => .throw _

theorem shifts_tocOffset (index : Nat) : Along Shifts (tocOffset index) := by
  refine Along.get.bind fun container => ?_
  split
  · exact .ofExcept _
  · exact .throw _

theorem shifts_readChunkAt (index : Nat) (expected : Tag) : Along Shifts (readChunkAt index expected) :=
  (shifts_tocOffset index).bind fun _ => (shifts_onStream (Stream.moves_goto _)).bind fun _ =>
    (shifts_expectNext expected).bind fun chunk =>
      (shifts_onStream chunk.moves_readPayload).closing (shifts_ascend chunk)

/-- The same bytes. -/
abbrev SameData : Container → Container → Prop :=
  Step.Alike fun container => container.stream.data

/-- A step that only moves leaves the bytes. -/
theorem sameData_of_shifts {step : ContainerStep α} (h : Along Shifts step) : Along SameData step := by
  refine h.mono ?_
  rintro before after ⟨pos, rfl⟩
  rfl

theorem sameData_readWord : Along SameData readWord :=
  sameData_of_shifts shifts_readWord

theorem sameData_ascend (chunk : Chunk) : Along SameData (ascend chunk) :=
  sameData_of_shifts (shifts_ascend chunk)

theorem sameData_openForm : Along SameData openForm :=
  (sameData_of_shifts (shifts_descend _ _)).bind fun _ _ => rfl

theorem sameData_openedForm : Along SameData openedForm := by
  refine Along.get.bind fun container => ?_
  split
  · exact .pure _
  · exact .throw _

theorem sameData_expectNext (expected : Tag) : Along SameData (expectNext expected) :=
  sameData_of_shifts (shifts_expectNext expected)

theorem sameData_pendingTable : Along SameData pendingTable := by
  refine Along.get.bind fun container => ?_
  split
  · exact .pure _
  · exact .throw _

theorem sameData_readHeader : Along SameData readHeader := by
  refine sameData_openedForm.bind fun _ => (sameData_expectNext _).bind fun chunk => ?_
  have hbody : Along SameData (do return (⟨← readWord, ← readWord⟩ : Header)) :=
    sameData_readWord.bind fun _ => sameData_readWord.bind fun _ => .pure _
  exact (hbody.closing (sameData_ascend chunk)).bind fun header =>
    Along.bind (fun _ => rfl) fun _ => .pure _

theorem sameData_decodeToc (chunk : Chunk) : Along SameData (decodeToc chunk) := by
  have hentry : Along SameData (do addTocEntry (← readWord) (← readWord)) :=
    sameData_readWord.bind fun _ => sameData_readWord.bind fun _ => sameData_pendingTable.bind fun _ =>
      (Along.ofExcept _).bind fun _ => Along.bind (fun _ => rfl) fun _ => .pure _
  refine sameData_readWord.bind fun count => ?_
  by_cases hroom : (chunk.size.toNat - 4) / 8 < count.toNat
  · simp only [if_pos hroom]
    exact .throw _
  · simp only [if_neg hroom]
    refine Along.bind ((Along.ofExcept _).bind fun _ _ => rfl) fun _ => (hentry.times _).bind fun _ => ?_
    exact sameData_pendingTable.bind fun _ => Along.bind (fun _ => rfl) fun _ => .pure _

theorem sameData_readToc : Along SameData readToc :=
  sameData_openedForm.bind fun _ => (sameData_expectNext _).bind fun chunk =>
    (sameData_decodeToc chunk).closing (sameData_ascend chunk)

end Container

end Playprint
