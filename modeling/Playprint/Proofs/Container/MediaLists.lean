import Playprint.Proofs.Container.Confinement

/-!
Scopes around media lists. Entering a list may fail before it is noted as open and after that, and a caller who
was let in may stop anywhere in it or read on behind it. Main statement: once the header of a chunk has been
read, the stream is behind that chunk at the end, no list is open, and what is reported is the failure of
entering or whatever the caller came to.
-/

namespace Playprint

open Step (Along)

/-- A caller that reads media, as many as it likes, and then answers or fails in its own way. A read that fails
need not be the last one. -/
inductive MediaReader (ε α : Type)
  | stop (answer : Except ε α)
  | read (next : Except FormatError Media → MediaReader ε α)

/-- Runs a caller in a media list. -/
def MediaReader.run {ε α : Type} : MediaReader ε α → Step ε Container α
  | stop answer => Step.ofExcept answer
  | read next => Step.of fun container =>
    let (media, left) := Container.readMedia.outcome container
    (next media).run.outcome left

/-! ### Steps that only move -/

namespace Container

variable {container left : Container} {chunk : Chunk} {pos : Nat} {ε α : Type}

theorem shifts_openMediaList : Along Shifts openMediaList := by
  refine Along.get.bind fun container => ?_
  split
  · exact .pure _
  · exact .throw _

theorem shifts_decodeInfo : Along Shifts decodeInfo :=
  shifts_readWord.bind fun _ => shifts_readWord.bind fun _ => shifts_readWord.bind fun _ => .pure _

theorem shifts_decodeMedia (chunk : Chunk) : Along Shifts (decodeMedia chunk) := by
  refine shifts_readWord.bind fun flags => shifts_readWord.bind fun mediaType =>
    shifts_readWord.bind fun size => ?_
  have hdata : Along Shifts (do
      onStream (Stream.ensureAvailable (chunk.offset + 12) size.toNat)
      let data ← onStream (Stream.take .readingPayload size.toNat)
      return ({ flags, mediaType, data } : Media)) :=
    (shifts_onStream (Stream.moves_ensureAvailable _ _)).bind fun _ =>
      (shifts_onStream (Stream.moves_take _ _)).bind fun _ => .pure _
  dsimp only
  split
  · exact Along.bind (.throw _) fun _ => hdata
  · exact hdata

theorem shifts_readMedia : Along Shifts readMedia := by
  refine shifts_openMediaList.bind fun list => (shifts_onStream Stream.moves_position).bind fun pos => ?_
  have hentry : Along Shifts (do
      let chunk ← expectNext Tag.mref
      inside chunk (decodeMedia chunk)) :=
    (shifts_expectNext _).bind fun chunk => (shifts_decodeMedia chunk).closing (shifts_ascend chunk)
  dsimp only
  split
  · exact Along.bind (.throw _) fun _ => hentry
  · exact hentry

/-- A caller that reads media only moves. -/
theorem shifts_run (reader : MediaReader ε α) : Along Shifts reader.run := by
  induction reader with
  | stop answer => exact .ofExcept answer
  | read next ih =>
      intro container
      exact Trans.trans (shifts_readMedia container) (ih _ _)

/-! ### Entering -/

/-- A list that is entered is open wherever its leading chunk ends or fails. -/
theorem beginMediaList_opens (hat : Chunk.at? container.order container.stream.data pos = some chunk)
    (htag : chunk.tag = Tag.list) (hform : chunk.form = Tag.mrfl) :
    Shifts (container.opened chunk) (beginMediaList.outcome (container.moved pos)).2 := by
  have hinfo : Along Shifts (do
      let child ← descend (.child Tag.info) (some chunk)
      inside child decodeInfo) :=
    (shifts_descend _ _).bind fun child => shifts_decodeInfo.closing (shifts_ascend child)
  have hopened : Shifts (container.opened chunk) ((container.moved chunk.offset).opened chunk) :=
    ⟨chunk.offset, rfl⟩
  rw [beginMediaList_eq, Step.outcome_bind_ok (outcome_expectNext Tag.list htag hat)]
  dsimp only
  rw [if_neg (not_not_intro hform), Step.outcome_bind_ok (Step.outcome_modify _ _)]
  exact Trans.trans hopened (hinfo _)

/-- Other chunks are refused, -/
theorem outcome_beginMediaList_other
    (hat : Chunk.at? container.order container.stream.data pos = some chunk) (htag : chunk.tag ≠ Tag.list) :
    beginMediaList.outcome (container.moved pos) =
      (.error (.unexpectedChunk Tag.list chunk.tag), container.moved chunk.finish) :=
  Step.outcome_bind_error (outcome_expectNext_other Tag.list htag hat)

/-- and so are lists of another form. -/
theorem outcome_beginMediaList_otherForm
    (hat : Chunk.at? container.order container.stream.data pos = some chunk) (htag : chunk.tag = Tag.list)
    (hform : chunk.form ≠ Tag.mrfl) :
    beginMediaList.outcome (container.moved pos) =
      (.error (.unexpectedChunk Tag.mrfl chunk.form), container.moved chunk.finish) := by
  rw [beginMediaList_eq, Step.outcome_bind_ok (outcome_expectNext Tag.list htag hat)]
  dsimp only
  rw [if_pos hform]
  rfl

/-- An open list that was only moved in is left for where its container stood, behind it. -/
theorem outcome_endMediaList_shifts (hnone : container.mediaList = none)
    (h : Shifts (container.opened chunk) left) :
    endMediaList.outcome left = (.ok (), container.moved chunk.finish) := by
  obtain ⟨pos, rfl⟩ := h
  have hsame : { container with mediaList := none } = container := by rw [← hnone]
  refine (outcome_endMediaList _ rfl).trans ?_
  show (_, { container with mediaList := none }.moved chunk.finish) = _
  rw [hsame]

/-- Giving it up comes to the same. -/
theorem abandonMediaList_shifts (hnone : container.mediaList = none)
    (h : Shifts (container.opened chunk) left) : left.abandonMediaList = container.moved chunk.finish := by
  have hend := outcome_endMediaList_shifts hnone h
  obtain ⟨pos, rfl⟩ := h
  exact congrArg Prod.snd hend

/-- Entering fails behind the chunk, and with no list open. -/
theorem outcome_enterMediaList_error (hnone : container.mediaList = none)
    (hat : Chunk.at? container.order container.stream.data pos = some chunk) {error : FormatError}
    (h : beginMediaList.outcome (container.moved pos) = (.error error, left)) :
    enterMediaList.outcome (container.moved pos) = (.error error, container.moved chunk.finish) := by
  refine (Step.outcome_onFailure_error h).trans (congrArg _ ?_)
  by_cases htag : chunk.tag = Tag.list
  · by_cases hform : chunk.form = Tag.mrfl
    · have hopens := beginMediaList_opens hat htag hform
      rw [h] at hopens
      exact abandonMediaList_shifts hnone hopens
    · cases h.symm.trans (outcome_beginMediaList_otherForm hat htag hform)
      rw [abandonMediaList, show (container.moved chunk.finish).mediaList = none from hnone]
  · cases h.symm.trans (outcome_beginMediaList_other hat htag)
    rw [abandonMediaList, show (container.moved chunk.finish).mediaList = none from hnone]

/-- What is entered is a list, and it is open. -/
theorem shifts_of_beginMediaList (hat : Chunk.at? container.order container.stream.data pos = some chunk)
    {info : MediaInfo} (h : beginMediaList.outcome (container.moved pos) = (.ok info, left)) :
    Shifts (container.opened chunk) left := by
  by_cases htag : chunk.tag = Tag.list
  · by_cases hform : chunk.form = Tag.mrfl
    · have hopens := beginMediaList_opens hat htag hform
      rwa [h] at hopens
    · cases h.symm.trans (outcome_beginMediaList_otherForm hat htag hform)
  · cases h.symm.trans (outcome_beginMediaList_other hat htag)

/-! ### The scope -/

/-- A scope around a media list for a caller with failures of its own, to which those of the container
belong. -/
def withMediaListAs (tell : FormatError → ε) (body : MediaInfo → Step ε Container α) : Step ε Container α := do
  let info ← enterMediaList.mapError tell
  (body info).closing (endMediaList.mapError tell)

/-- The scope of the library is the one for callers with the failures of the container. -/
theorem withMediaListAs_id (body : MediaInfo → ContainerStep α) :
    withMediaListAs id body = withMediaList body := by
  have hsame {β : Type} (step : ContainerStep β) : step.mapError id = step := Step.ext fun state => by
    rw [Step.outcome_mapError]
    cases step.outcome state with
    | mk answer left => cases answer <;> rfl
  rw [withMediaListAs, withMediaList, hsame, hsame]

/-- A body that only moves in the list is left behind the list, with what it came to. -/
theorem outcome_withMediaListAs {tell : FormatError → ε} {body : MediaInfo → Step ε Container α}
    (hnone : container.mediaList = none)
    (hat : Chunk.at? container.order container.stream.data pos = some chunk)
    (hbody : ∀ info, Along Shifts (body info)) :
    (withMediaListAs tell body).outcome (container.moved pos) =
      (match beginMediaList.outcome (container.moved pos) with
        | (.error error, _) => .error (tell error)
        | (.ok info, inside) => ((body info).outcome inside).1,
        container.moved chunk.finish) := by
  rcases hbegin : beginMediaList.outcome (container.moved pos) with ⟨error | info, inside⟩
  · have henter : (enterMediaList.mapError tell).outcome (container.moved pos) =
        (.error (tell error), container.moved chunk.finish) := by
      rw [Step.outcome_mapError, outcome_enterMediaList_error hnone hat hbegin]
      rfl
    exact Step.outcome_bind_error henter
  · have henter : (enterMediaList.mapError tell).outcome (container.moved pos) = (.ok info, inside) := by
      rw [Step.outcome_mapError, enterMediaList, Step.outcome_onFailure_ok hbegin]
      rfl
    have hinside := Trans.trans (shifts_of_beginMediaList hat hbegin) (hbody info inside)
    have hleave : ((endMediaList.mapError tell).outcome ((body info).outcome inside).2) =
        (.ok (), container.moved chunk.finish) := by
      rw [Step.outcome_mapError, outcome_endMediaList_shifts hnone hinside]
      rfl
    rw [withMediaListAs, Step.outcome_bind_ok henter]
    exact Step.outcome_closing rfl hleave

/-- What becomes of a scope around the media list that should start at a chunk. -/
structure LeavesList (container : Container) (chunk : Chunk) (behind : Container) : Prop where
  /-- When the list cannot be entered, that is reported from behind the chunk. -/
  refused : ∀ {ε α : Type} (tell : FormatError → ε) (reader : MediaInfo → MediaReader ε α) error left,
    beginMediaList.outcome container = (.error error, left) →
    (withMediaListAs tell fun info => (reader info).run).outcome container = (.error (tell error), behind)
  /-- Otherwise it is what the caller came to in the list, its own failure included. -/
  entered : ∀ {ε α : Type} (tell : FormatError → ε) (reader : MediaInfo → MediaReader ε α) info inside,
    beginMediaList.outcome container = (.ok info, inside) →
    (withMediaListAs tell fun info => (reader info).run).outcome container =
      (((reader info).run.outcome inside).1, behind)
  /-- Nothing else than a list is entered, -/
  other_tag : chunk.tag ≠ Tag.list →
    (beginMediaList.outcome container).1 = .error (.unexpectedChunk Tag.list chunk.tag)
  /-- and no list of another form. -/
  other_form : chunk.tag = Tag.list → chunk.form ≠ Tag.mrfl →
    (beginMediaList.outcome container).1 = .error (.unexpectedChunk Tag.mrfl chunk.form)
  /-- No media can be read behind the chunk, and no list can be left. -/
  closed : behind.mediaList = none ∧ readMedia.outcome behind = (.error .missingParent, behind) ∧
    endMediaList.outcome behind = (.error .missingParent, behind)
  /-- The scope of the library is the one for callers with the failures of the container. -/
  library : ∀ {α : Type} (body : MediaInfo → ContainerStep α), withMediaListAs id body = withMediaList body

/-- Where the header of a chunk can be read and no list is open, a scope ends behind the padded payload of that
chunk with no list open, and the failure of the caller is not replaced by one of the container. -/
theorem scope_leaves_list (hnone : container.mediaList = none)
    (hat : Chunk.at? container.order container.stream.data container.stream.pos = some chunk) :
    LeavesList container chunk (container.moved (container.stream.pos + chunk.headerLength +
      chunk.size.toNat + (if chunk.size.toNat % 2 = 1 then 1 else 0))) := by
  rw [← Chunk.finish_eq_of_at? hat]
  have hopen : openMediaList.outcome (container.moved chunk.finish) =
      (.error .missingParent, container.moved chunk.finish) := outcome_openMediaList_none hnone
  have hscope {ε α : Type} (tell : FormatError → ε) (reader : MediaInfo → MediaReader ε α) :
      (withMediaListAs tell fun info => (reader info).run).outcome
        (container.moved container.stream.pos) = _ :=
    outcome_withMediaListAs hnone hat fun info => shifts_run (reader info)
  constructor
  case refused =>
    intro ε α tell reader error left hbegin
    refine (hscope tell reader).trans ?_
    rw [show beginMediaList.outcome (container.moved container.stream.pos) = _ from hbegin]
  case entered =>
    intro ε α tell reader info inside hbegin
    refine (hscope tell reader).trans ?_
    rw [show beginMediaList.outcome (container.moved container.stream.pos) = _ from hbegin]
  case other_tag => exact fun htag => congrArg Prod.fst (outcome_beginMediaList_other hat htag)
  case other_form =>
    exact fun htag hform => congrArg Prod.fst (outcome_beginMediaList_otherForm hat htag hform)
  case closed => exact ⟨hnone, Step.outcome_bind_error hopen, Step.outcome_bind_error hopen⟩
  case library => exact withMediaListAs_id

/-- A list of one medium. -/
def reel : Bytes :=
  Chunk.encodeForm .big Tag.list Tag.mrfl
    (infoChunk .big ⟨0, 0, 1⟩ ++ mediaChunks .big [⟨0, 0, [7]⟩])

/-- A caller that reads twice and fails with a note of which reads have succeeded. -/
def readsTwice : MediaReader (Bool × Bool) Unit :=
  .read fun first => .read fun second => .stop (.error (first.toBool, second.toBool))

/-- The list has one medium only, and the failure of the caller is reported from behind the list. -/
theorem reel_left :
    (withMediaListAs (fun _ => (false, false)) fun _ => readsTwice.run).outcome (ofStream .big ⟨reel, 0⟩) =
      (.error (true, false), ofStream .big ⟨reel, 54⟩) := by
  have hat : Chunk.at? .big reel 0 = some (Chunk.formAt Tag.list Tag.mrfl
      (infoChunk .big ⟨0, 0, 1⟩ ++ mediaChunks .big [⟨0, 0, [7]⟩]) 0) :=
    Chunk.at?_encodeForm rfl (Bytes.At.whole reel)
  have hbegin := @outcome_beginMediaList (ofStream .big ⟨reel, 0⟩) 0 ⟨0, 0, 1⟩ _ (by decide)
    (Bytes.At.whole reel)
  exact (scope_leaves_list rfl hat).entered (fun _ => (false, false)) (fun _ => readsTwice) _ _ hbegin

end Container

end Playprint
