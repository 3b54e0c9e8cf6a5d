import Playprint.Proofs.Container.Confinement
import Playprint.Proofs.Paired

/-!
Reading with checked arithmetic. Here every operation on a stream and on a container stands once more, with a
check at each sum and each difference of positions that it must be a number of 64 bits. A checked operation
agrees with the operation itself when it comes to the same end, so no check has failed; the rules are those of
two steps side by side, for states of which something is known.
-/

namespace Playprint

/-- Why a checked step fails: as it would without checks, or at a sum or a difference out of range. -/
inductive Fault
  | format (error : FormatError)
  | overflow

/-- A step whose arithmetic is checked. -/
abbrev Checked (σ : Type) := Step Fault σ

namespace Checked

variable {σ τ α β : Type}

/-- A step in which no positions are added or subtracted. How far a read moves on is up to the stream. -/
def plain (step : Step FormatError σ α) : Checked σ α :=
  step.mapError .format

def fail (error : FormatError) : Checked σ α :=
  throw (.format error)

/-- A sum, if it is a number of 64 bits. -/
def sum? (a b : Nat) : Option Nat :=
  if a + b < UInt64.size then some (a + b) else none

/-- A difference, if it is not negative. -/
def difference? (a b : Nat) : Option Nat :=
  if b ≤ a then some (a - b) else none

def orOverflow (result : Option Nat) : Checked σ Nat :=
  match result with
  | some value => pure value
  | none => throw .overflow

def sum (a b : Nat) : Checked σ Nat :=
  orOverflow (sum? a b)

def difference (a b : Nat) : Checked σ Nat :=
  orOverflow (difference? a b)

/-! ### Streams -/

/-- The end of the range is not checked, because it is cut to 64 bits. -/
def ensureAvailable (start count : Nat) : Checked Stream Unit := do
  let size := (← get).data.length
  let wanted := Stream.rangeEnd start count
  if size < wanted then
    let missing ← difference wanted size
    fail (.truncated size missing)

def readHeader (order : ByteOrder) : Checked Stream Chunk := do
  let start ← plain Stream.position
  let chunk ← plain (Chunk.readHeader order)
  let offset ← sum start chunk.headerLength
  return { chunk with offset }

def ascend (chunk : Chunk) : Checked Stream Unit := do
  let finish ← sum chunk.offset chunk.paddedSize
  plain (Stream.goto finish)

def readPayload (chunk : Chunk) : Checked Stream Bytes := do
  ensureAvailable chunk.offset chunk.size.toNat
  plain (Stream.goto chunk.offset)
  plain (Stream.take .readingPayload chunk.size.toNat)

def walk (order : ByteOrder) (data : Bytes) (limit : Nat) (verdict : Chunk → Option Chunk.Verdict)
    (pos : Nat) : Option Chunk.Walk := do
  let next ← sum? pos 8
  if next ≤ limit then
    match _h : Chunk.at? order data pos with
    | none => return .cut
    | some chunk =>
      let offset ← sum? pos chunk.headerLength
      match ← verdict chunk with
      | .found => return .found chunk
      | .giveUp => return .ended offset
      | .skip =>
        let _ ← sum? offset chunk.paddedSize
        walk order data limit verdict chunk.finish
  else return .ended pos
termination_by data.length - pos
decreasing_by exact Chunk.finish_measure _h

/-- A search among children looks at where each of them stops, -/
def childVerdict (limit : Nat) (wanted : Chunk → Bool) (chunk : Chunk) : Option Chunk.Verdict := do
  let stop ← sum? chunk.offset chunk.size.toNat
  return if limit < stop then .giveUp else if wanted chunk then .found else .skip

/-- a search in sequence does not. -/
def sectionVerdict (tag : Tag) (chunk : Chunk) : Option Chunk.Verdict :=
  some (Container.sectionVerdict tag chunk)

def seekSibling (order : ByteOrder) (limit : Nat) (verdict : Chunk → Option Chunk.Verdict)
    (missing : FormatError) : Checked Stream Chunk := do
  let stream ← get
  match walk order stream.data limit verdict stream.pos with
  | none => throw .overflow
  | some (.found chunk) =>
    plain (Stream.goto chunk.offset)
    return chunk
  | some (.ended pos) =>
    plain (Stream.goto pos)
    fail missing
  | some .cut =>
    plain (Stream.goto stream.data.length)
    fail (.io .readingWord .endOfData)

def seekChild (order : ByteOrder) (parent : Chunk) (name : Tag) (wanted : Chunk → Bool) :
    Checked Stream Chunk := do
  let limit ← sum parent.offset parent.size.toNat
  plain (Stream.goto parent.offset)
  seekSibling order limit (childVerdict limit wanted) (.chunkNotFound name parent.tag)

def descend (order : ByteOrder) (descent : Descent) (parent : Option Chunk) : Checked Stream Chunk :=
  match descent, parent with
  | .next, _ => readHeader order
  | .child tag, some parent => seekChild order parent tag (·.tag == tag)
  | .list form, some parent =>
    seekChild order parent form fun chunk => chunk.tag == Tag.list && chunk.form == form
  | .child _, none | .list _, none => fail .missingParent
  | .outermost _, some _ => fail .unexpectedParent
  | .outermost form, none => do
    plain (Stream.goto 0)
    let chunk ← readHeader order
    if chunk.tag ≠ order.formTag then fail (.unknownForm chunk.tag)
    if chunk.form ≠ form then fail (.chunkNotFound form order.formTag)
    return chunk

def visit (order : ByteOrder) (descent : Descent) (parent : Option Chunk)
    (body : Chunk → Checked Stream α) : Checked Stream α := do
  let chunk ← descend order descent parent
  (body chunk).closing (ascend chunk)

def siblings (order : ByteOrder) (data : Bytes) (limit pos : Nat) : Option (Option (List Chunk)) := do
  let next ← sum? pos 8
  if next ≤ limit then
    match _h : Chunk.at? order data pos with
    | none => return none
    | some chunk =>
      let offset ← sum? pos chunk.headerLength
      let _ ← sum? offset chunk.paddedSize
      let rest ← siblings order data limit chunk.finish
      return rest.map (chunk :: ·)
  else return some []
termination_by data.length - pos
decreasing_by exact Chunk.finish_measure _h

/-! ### Containers -/

def onStream (reading : Checked Stream α) : Checked Container α :=
  Step.on Container.stream (fun stream container => { container with stream }) reading

def enter (descent : Descent) (parent : Option Chunk) : Checked Container Chunk := do
  onStream (descend (← get).order descent parent)

def inside (chunk : Chunk) (body : Checked Container α) : Checked Container α :=
  body.closing (onStream (ascend chunk))

def openForm : Checked Container Unit := do
  let form ← enter (.outermost Tag.mlrt) none
  plain (modify fun container => { container with form := some form })

def close : Checked Container Nat := do
  let form ← plain Container.openedForm
  plain (modify fun container => { container with form := none })
  onStream (ascend form)
  plain Container.position

def expectNext (expected : Tag) : Checked Container Chunk := do
  let chunk ← enter .next none
  if chunk.tag = expected then return chunk
  onStream (ascend chunk)
  fail (.unexpectedChunk expected chunk.tag)

def readHeaderChunk : Checked Container Header := do
  let _ ← plain Container.openedForm
  let chunk ← expectNext Tag.hdr
  let header ← inside chunk (plain Container.decodeHeader)
  plain (modify fun container => { container with header := some header })
  return header

def decodeToc (chunk : Chunk) : Checked Container Nat := do
  let count ← plain Container.readWord
  let room := (chunk.size.toNat - 4) / 8
  if room < count.toNat then
    let offset ← sum chunk.offset 4
    fail (.truncated offset ((count.toNat - room) * 8))
  plain (Container.beginToc count.toNat)
  let _ ← plain (Step.times Container.readTocEntry count.toNat)
  plain Container.endToc

def readToc : Checked Container Nat := do
  let _ ← plain Container.openedForm
  let chunk ← expectNext Tag.toc
  inside chunk (decodeToc chunk)

def readSection (tag : Tag) (use : Bytes → Except FormatError α) : Checked Container α := do
  let form ← plain Container.openedForm
  let order := (← get).order
  let limit ← sum form.offset form.size.toNat
  let chunk ← onStream (seekSibling order limit (sectionVerdict tag) (.chunkNotFound tag form.tag))
  let payload ← inside chunk (onStream (readPayload chunk))
  plain (Step.ofExcept (use payload))

def readChunkAt (index : Nat) (expected : Tag) : Checked Container Bytes := do
  let offset ← plain (Container.tocOffset index)
  plain (Container.goto offset)
  let chunk ← expectNext expected
  inside chunk (onStream (readPayload chunk))

def beginMediaList : Checked Container MediaInfo := do
  let list ← expectNext Tag.list
  if list.form ≠ Tag.mrfl then
    onStream (ascend list)
    fail (.unexpectedChunk Tag.mrfl list.form)
  plain (modify fun container => { container with mediaList := some list })
  let chunk ← enter (.child Tag.info) (some list)
  inside chunk (plain Container.decodeInfo)

def decodeMedia (chunk : Chunk) : Checked Container Media := do
  let flags ← plain Container.readWord
  let mediaType ← plain Container.readWord
  let size := (← plain Container.readWord).toNat
  let available := chunk.size.toNat - 12
  if available < size then
    let offset ← sum chunk.offset 12
    fail (.truncated offset (size - available))
  let start ← sum chunk.offset 12
  onStream (ensureAvailable start size)
  let data ← plain (Container.onStream (Stream.take .readingPayload size))
  return { flags, mediaType, data }

def readMedia : Checked Container Media := do
  let list ← plain Container.openMediaList
  let limit ← sum list.offset list.size.toNat
  let pos ← plain Container.position
  let next ← sum pos 8
  if limit < next then fail (.chunkNotFound Tag.mref Tag.mrfl)
  let chunk ← expectNext Tag.mref
  inside chunk (decodeMedia chunk)

def endMediaList : Checked Container Unit := do
  let list ← plain Container.openMediaList
  plain (modify fun container => { container with mediaList := none })
  onStream (ascend list)

def abandonMediaList : Checked Container Unit := do
  match (← get).mediaList with
  | some list =>
    plain (modify fun container => { container with mediaList := none })
    onStream (ascend list)
  | none => pure ()

def enterMediaList : Checked Container MediaInfo :=
  Step.of fun container =>
    match beginMediaList.outcome container with
    | (.error (.format error), left) =>
      (do abandonMediaList; fail error : Checked Container MediaInfo).outcome left
    | done => done

def withMediaList (body : MediaInfo → Checked Container α) : Checked Container α := do
  let info ← enterMediaList
  (body info).closing endMediaList

def topLevelChunks : Checked Container (List Chunk) := do
  let form ← plain Container.openedForm
  let container ← get
  let limit ← sum form.offset form.size.toNat
  match siblings container.order container.stream.data limit form.offset with
  | none => throw .overflow
  | some (some chunks) => return chunks
  | some none =>
    plain (Container.goto container.stream.data.length)
    fail (.io .readingWord .endOfData)

/-! ### Agreement -/

open Step (Paired Matched Same)

/-- Two copies of a state of which something is known. -/
def Both (I : σ → Prop) (s t : σ) : Prop :=
  s = t ∧ I s

/-- From a state of which something is known, the checked step comes to the same end as the step itself. The
same is known of the state that is left, and something of the answer. -/
def Agrees (I : σ → Prop) (P : α → Prop) (checked : Checked σ α) (step : Step FormatError σ α) : Prop :=
  Paired (Both I) (fun a b s t => P a ∧ Same (Both I) a b s t) (Both I) checked (plain step)

/-- What is known of the state is known afterwards, too, and something of the answer. -/
def Keeps (I : σ → Prop) (P : α → Prop) (step : Step FormatError σ α) : Prop :=
  Agrees I P (plain step) step

theorem outcome_plain {step : Step FormatError σ α} {state left : σ} {answer : Except FormatError α}
    (h : step.outcome state = (answer, left)) :
    (plain step).outcome state = (answer.mapError .format, left) := by
  rw [plain, Step.outcome_mapError, h]

theorem plain_bind (first : Step FormatError σ α) (next : α → Step FormatError σ β) :
    plain (first >>= next) = (do let a ← plain first; plain (next a)) :=
  Step.mapError_bind ..

theorem plain_closing (body : Step FormatError σ α) (close : Step FormatError σ Unit) :
    plain (body.closing close) = (plain body).closing (plain close) :=
  Step.mapError_closing ..

theorem sum_bind {a b : Nat} (h : a + b < UInt64.size) (next : Nat → Checked σ α) :
    (do next (← sum a b)) = next (a + b) := by
  rw [sum, sum?, if_pos h]
  rfl

variable {I : σ → Prop} {P : α → Prop} {Q : β → Prop}

namespace Agrees

variable {checked : Checked σ α} {step : Step FormatError σ α}

theorem of_outcome (h : ∀ state, I state → checked.outcome state = (plain step).outcome state ∧
    I (step.outcome state).2 ∧ ∀ a, (step.outcome state).1 = .ok a → P a) : Agrees I P checked step := by
  rintro state _ ⟨rfl, hstate⟩
  obtain ⟨hsame, hleft, hanswer⟩ := h state hstate
  rw [hsame, plain, Step.outcome_mapError]
  generalize step.outcome state = ends at hleft hanswer ⊢
  obtain ⟨e | a, left⟩ := ends
  · exact .error ⟨rfl, hleft⟩
  · exact .ok ⟨hanswer a rfl, rfl, rfl, hleft⟩

theorem ends (h : Agrees I P checked step) {state : σ} (hstate : I state) :
    checked.outcome state = (plain step).outcome state ∧
      I (step.outcome state).2 ∧ ∀ a, (step.outcome state).1 = .ok a → P a := by
  have hends := h state state ⟨rfl, hstate⟩
  rw [plain, Step.outcome_mapError] at hends ⊢
  generalize checked.outcome state = one at hends ⊢
  generalize step.outcome state = other at hends ⊢
  obtain ⟨e | a, left⟩ := other
  · change Matched _ _ one (.error (.format e), left) at hends
    cases hends with
    | error hstates =>
        obtain ⟨rfl, hleft⟩ := hstates
        exact ⟨rfl, hleft, by rintro a ⟨⟩⟩
  · change Matched _ _ one (.ok a, left) at hends
    cases hends with
    | ok hstates =>
        obtain ⟨hanswer, rfl, rfl, hleft⟩ := hstates
        refine ⟨rfl, hleft, ?_⟩
        rintro b ⟨⟩
        exact hanswer

theorem outcome_eq (h : Agrees I P checked step) {state : σ} (hstate : I state) :
    checked.outcome state = (plain step).outcome state :=
  (h.ends hstate).1

theorem mono {P' : α → Prop} (h : Agrees I P checked step) (himp : ∀ a, P a → P' a) :
    Agrees I P' checked step :=
  Paired.mono h (fun _ _ => id) (fun a _ _ _ hends => ⟨himp a hends.1, hends.2⟩) fun _ _ => id

theorem pure {a : α} (h : P a) : Agrees I P (Pure.pure a) (Pure.pure a) :=
  Paired.pure fun _ _ hstate => ⟨h, rfl, hstate⟩

theorem fail (e : FormatError) : Agrees I P (fail e) (throw e) :=
  Paired.throw (Fault.format e) fun _ _ => id

/-- Nothing is asked of what would follow a failure. -/
theorem fail_bind (e : FormatError) (next : β → Checked σ α) (next' : β → Step FormatError σ α) :
    Agrees I P (Checked.fail e >>= next) (throw e >>= next') :=
  Paired.throw (Fault.format e) fun _ _ => id

theorem bind {next : α → Checked σ β} {next' : α → Step FormatError σ β} (h : Agrees I P checked step)
    (hnext : ∀ a, P a → Agrees I Q (next a) (next' a)) : Agrees I Q (checked >>= next) (step >>= next') := by
  rw [Agrees, plain_bind]
  refine Paired.bind h fun a b => ?_
  rintro s t ⟨ha, rfl, hst⟩
  exact hnext a ha s t hst

theorem get_bind {next : σ → Checked σ β} {next' : σ → Step FormatError σ β}
    (h : ∀ state, I state → Agrees I Q (next state) (next' state)) :
    Agrees I Q (get >>= next) (get >>= next') := by
  rw [Agrees, plain_bind]
  apply Paired.get_bind
  rintro s _ ⟨rfl, hs⟩
  exact h s hs s s ⟨rfl, hs⟩

/-- A sum that is in range. -/
theorem sum_bind {a b : Nat} {next : Nat → Checked σ β} {step : Step FormatError σ β}
    (h : a + b < UInt64.size) (hnext : Agrees I Q (next (a + b)) step) :
    Agrees I Q (sum a b >>= next) step := by
  rw [Checked.sum_bind h]
  exact hnext

theorem ite {c : Prop} [Decidable c] {other : Checked σ α} {other' : Step FormatError σ α}
    (h : c → Agrees I P checked step) (hother : ¬c → Agrees I P other other') :
    Agrees I P (if c then checked else other) (if c then step else other') := by
  by_cases hc : c
  · rw [if_pos hc, if_pos hc]
    exact h hc
  · rw [if_neg hc, if_neg hc]
    exact hother hc

theorem closing {close : Checked σ Unit} {close' : Step FormatError σ Unit} {R : Unit → Prop}
    (h : Agrees I P checked step) (hclose : Agrees I R close close') :
    Agrees I P (checked.closing close) (step.closing close') := by
  rw [Agrees, plain_closing]
  refine Paired.closing (S := fun a b s t => P a ∧ Same (Both I) a b s t) (E := Both I) h
    (fun a b s t hst => ?_) ?_
  · exact (hclose s t hst.2.2).mono (fun _ _ _ _ hleft => ⟨hst.1, hst.2.1, hleft.2.2⟩) fun _ _ => id
  · exact Paired.mono hclose (fun _ _ => id) (fun _ _ _ _ hleft => hleft.2.2) fun _ _ => id

end Agrees

namespace Keeps

theorem of_outcome {step : Step FormatError σ α} (h : ∀ state, I state →
    I (step.outcome state).2 ∧ ∀ a, (step.outcome state).1 = .ok a → P a) : Keeps I P step :=
  Agrees.of_outcome fun state hstate => ⟨rfl, h state hstate⟩

theorem pure {a : α} (h : P a) : Keeps I P (Pure.pure a) :=
  Agrees.pure h

theorem throw (e : FormatError) : Keeps I P (MonadExcept.throw e) :=
  Agrees.fail e

theorem ofExcept (answer : Except FormatError α) (h : ∀ a, answer = .ok a → P a) :
    Keeps I P (Step.ofExcept answer) :=
  of_outcome fun _ hstate => ⟨hstate, h⟩

theorem modify {f : σ → σ} (h : ∀ state, I state → I (f state)) :
    Keeps I (fun _ => True) (modify f : Step FormatError σ PUnit) :=
  of_outcome fun state hstate => ⟨h state hstate, fun _ _ => trivial⟩

theorem bind {first : Step FormatError σ α} {next : α → Step FormatError σ β} (h : Keeps I P first)
    (hnext : ∀ a, P a → Keeps I Q (next a)) : Keeps I Q (first >>= next) := by
  rw [Keeps, plain_bind]
  exact Agrees.bind h hnext

theorem get_bind {next : σ → Step FormatError σ β} (h : ∀ state, I state → Keeps I Q (next state)) :
    Keeps I Q (get >>= next) := by
  rw [Keeps, plain_bind]
  change Agrees I Q (get >>= fun state => plain (next state)) (get >>= next)
  exact .get_bind h

theorem times {step : Step FormatError σ α} (h : Keeps I P step) (count : Nat) :
    Keeps I (fun _ => True) (step.times count) := by
  induction count with
  | zero => exact .pure trivial
  | succ count ih => exact h.bind fun _ _ => ih.bind fun _ _ => .pure trivial

end Keeps

end Checked

end Playprint
