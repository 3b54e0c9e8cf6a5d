import Playprint.Proofs.Container.Layout

/-!
What the readers of a container answer where something is known to stand, and where they leave the
stream. None of them changes anything of the container but the position, save that a media list is
open while its media are read.
-/

namespace Playprint.Container

open Bytes (At)

variable {container : Container} {pos : Nat} {payload : Bytes} {tag : Tag}

/-- The container with its stream at a position. -/
def moved (container : Container) (pos : Nat) : Container :=
  { container with stream := container.stream.seek pos }

@[simp] theorem moved_moved (container : Container) (first second : Nat) :
    (container.moved first).moved second = container.moved second := rfl

@[simp] theorem outcome_goto (pos : Nat) (container : Container) :
    (goto pos).outcome container = (.ok (), container.moved pos) := rfl

theorem outcome_ascend (chunk : Chunk) (container : Container) :
    (ascend chunk).outcome container = (.ok (), container.moved chunk.finish) := rfl

theorem outcome_inside {α : Type} (chunk : Chunk) {body : ContainerStep α} {inner : Container}
    {answer : Except FormatError α} (h : body.outcome container = (answer, inner)) :
    (inside chunk body).outcome container = (answer, inner.moved chunk.finish) :=
  Step.outcome_closing h (outcome_ascend chunk inner)

/-- A reading step that starts and stops at some positions of the stream. -/
theorem outcome_onStream {α : Type} {reading : Reading α} {answer : Except FormatError α}
    (pos : Nat) {next : Nat}
    (h : reading.outcome (container.stream.seek pos) = (answer, container.stream.seek next)) :
    (onStream reading).outcome (container.moved pos) = (answer, container.moved next) :=
  congrArg (fun result => (result.1, { container with stream := result.2 })) h

theorem outcome_readWord_some {word : UInt32}
    (h : Chunk.wordAt? container.order container.stream.data pos = some word) :
    readWord.outcome (container.moved pos) = (.ok word, container.moved (pos + 4)) := by
  rw [readWord, Step.outcome_bind_ok (Step.outcome_get _)]
  exact outcome_onStream pos (Stream.outcome_readWord_some (container.stream.seek pos) h)

theorem outcome_readWord_none (h : Chunk.wordAt? container.order container.stream.data pos = none) :
    readWord.outcome (container.moved pos) =
      (.error (.io .readingWord .endOfData), container.moved container.stream.data.length) := by
  rw [readWord, Step.outcome_bind_ok (Step.outcome_get _)]
  exact outcome_onStream pos (Stream.outcome_readWord_none (container.stream.seek pos) h)

/-- A word at the head of others is read, and leaves the stream at the others. -/
theorem outcome_readWord_head (container : Container) {word : UInt32} {rest : List UInt32}
    (h : At container.stream.data pos (Chunk.encodeWords container.order (word :: rest))) :
    readWord.outcome (container.moved pos) = (.ok word, container.moved (pos + 4)) :=
  outcome_readWord_some (Chunk.wordAt?_head h)

/-! ### The outermost chunk -/

theorem outcome_openedForm (pos : Nat) {form : Chunk} (hform : container.form = some form) :
    openedForm.outcome (container.moved pos) = (.ok form, container.moved pos) := by
  simp only [openedForm, Step.outcome_bind, Step.outcome_get, moved, hform, Step.outcome_pure]

theorem outcome_openedForm_none (h : container.form = none) :
    openedForm.outcome container = (.error .notStarted, container) := by
  simp only [openedForm, Step.outcome_bind, Step.outcome_get, h, Step.outcome_throw]

theorem outcome_topLevelChunks_some {form : Chunk} {chunks : List Chunk}
    (hform : container.form = some form)
    (h : Chunk.siblings container.order container.stream.data form.stop form.offset = some chunks) :
    topLevelChunks.outcome container = (.ok chunks, container) := by
  have hopen : openedForm.outcome container = _ := outcome_openedForm container.stream.pos hform
  rw [topLevelChunks, Step.outcome_bind_ok hopen, Step.outcome_bind_ok (Step.outcome_get _)]
  simp only [moved, Stream.seek, h]
  rfl

theorem outcome_topLevelChunks_none {form : Chunk} (hform : container.form = some form)
    (h : Chunk.siblings container.order container.stream.data form.stop form.offset = none) :
    topLevelChunks.outcome container =
      (.error (.io .readingWord .endOfData), container.moved container.stream.data.length) := by
  have hopen : openedForm.outcome container = _ := outcome_openedForm container.stream.pos hform
  rw [topLevelChunks, Step.outcome_bind_ok hopen, Step.outcome_bind_ok (Step.outcome_get _)]
  simp only [moved, Stream.seek, h]
  rfl

theorem outcome_topLevelChunks_closed (hform : container.form = none) :
    topLevelChunks.outcome container = (.error .notStarted, container) := by
  rw [topLevelChunks, Step.outcome_bind_error (outcome_openedForm_none hform)]

theorem topLevelChunks_ok_iff {chunks : List Chunk} : (topLevelChunks.outcome container).1 = .ok chunks ↔
    ∃ form, container.form = some form ∧
      Chunk.siblings container.order container.stream.data form.stop form.offset = some chunks := by
  cases hform : container.form with
  | none => simp [outcome_topLevelChunks_closed hform]
  | some form =>
      cases hlist : Chunk.siblings container.order container.stream.data form.stop form.offset with
      | none => simp [outcome_topLevelChunks_none hform hlist, hlist]
      | some found => simp [outcome_topLevelChunks_some hform hlist, hlist]

/-! ### Chunks -/

theorem outcome_descend_next {chunk : Chunk}
    (h : Chunk.at? container.order container.stream.data pos = some chunk) (parent : Option Chunk) :
    (descend .next parent).outcome (container.moved pos) =
      (.ok chunk, container.moved chunk.offset) := by
  have hheader : (Chunk.readHeader container.order).outcome (container.stream.seek pos) =
      (.ok chunk, container.stream.seek chunk.offset) := by
    simp only [Chunk.readHeader, Step.outcome_of, Stream.seek, h]
  rw [descend, Step.outcome_bind_ok (Step.outcome_get _)]
  exact outcome_onStream pos hheader

theorem outcome_descend_next_cut
    (h : Chunk.at? container.order container.stream.data pos = none) (parent : Option Chunk) :
    (descend .next parent).outcome (container.moved pos) =
      (.error (.io .readingWord .endOfData), container.moved container.stream.data.length) := by
  have hheader : (Chunk.readHeader container.order).outcome (container.stream.seek pos) =
      (.error (.io .readingWord .endOfData), container.stream.seek container.stream.data.length) := by
    simp only [Chunk.readHeader, Step.outcome_of, Stream.seek, h]
  rw [descend, Step.outcome_bind_ok (Step.outcome_get _)]
  exact outcome_onStream pos hheader

theorem outcome_expectNext (expected : Tag) {chunk : Chunk} (htag : chunk.tag = expected)
    (h : Chunk.at? container.order container.stream.data pos = some chunk) :
    (expectNext expected).outcome (container.moved pos) =
      (.ok chunk, container.moved chunk.offset) := by
  rw [expectNext, Step.outcome_bind_ok (outcome_descend_next h none), if_pos htag, Step.outcome_pure]

/-- A chunk of another tag is passed over. -/
theorem outcome_expectNext_other (expected : Tag) {chunk : Chunk} (htag : chunk.tag ≠ expected)
    (h : Chunk.at? container.order container.stream.data pos = some chunk) :
    (expectNext expected).outcome (container.moved pos) =
      (.error (.unexpectedChunk expected chunk.tag), container.moved chunk.finish) := by
  rw [expectNext, Step.outcome_bind_ok (outcome_descend_next h none), if_neg htag]
  rfl

/-- Where a table entry points. -/
def entryOffset (container : Container) (index : Nat) : Except FormatError Nat :=
  match container.toc with
  | some toc => toc.offset index
  | none => .error .tocUnavailable

theorem tocOffset_eq (index : Nat) (container : Container) :
    (tocOffset index).outcome container = (container.entryOffset index, container) := by
  rw [tocOffset, Step.outcome_bind_ok (Step.outcome_get _), entryOffset]
  cases container.toc with
  | none => rfl
  | some toc => exact Step.outcome_ofExcept _ _

/-- The chunk a table entry points at gives its payload back, wherever the stream stands. -/
theorem outcome_readChunkAt {toc : Toc} {index : Nat} (htoc : container.toc = some toc)
    (hoffset : toc.offset index = .ok pos) (htag : tag.hasForm = false)
    (hsize : payload.length < UInt32.size)
    (h : At container.stream.data pos (Chunk.encode container.order tag payload)) :
    (readChunkAt index tag).outcome container =
      (.ok payload, container.moved (pos + (Chunk.encode container.order tag payload).length)) := by
  have hentry : (tocOffset index).outcome container = (.ok pos, container) := by
    simp only [tocOffset_eq, entryOffset, htoc, hoffset]
  have hnext := outcome_expectNext tag rfl (Chunk.at?_encode htag h)
  have hread := outcome_onStream (pos + 8)
    (Chunk.outcome_readPayload (container.stream.seek (pos + 8)) hsize h)
  rw [readChunkAt, Step.outcome_bind_ok hentry, Step.outcome_bind_ok (outcome_goto pos container),
    Step.outcome_bind_ok hnext]
  refine (outcome_inside _ hread).trans ?_
  rw [moved_moved, Chunk.finish_plainAt container.order tag pos hsize]

/-! ### Media lists -/

theorem length_payload (order : ByteOrder) (media : Media) :
    (media.payload order).length = 12 + media.data.length := by
  simp [Media.payload]

theorem outcome_decodeMedia (tag : Tag) {media : Media}
    (hsize : (media.payload container.order).length < UInt32.size)
    (h : At container.stream.data (pos + 8) (media.payload container.order)) :
    (decodeMedia (Chunk.plainAt tag (media.payload container.order) pos)).outcome
        (container.moved (pos + 8)) =
      (.ok media, container.moved (pos + 8 + (media.payload container.order).length)) := by
  have hwords := h.left
  have hdata := h.right
  rw [Chunk.length_encodeWords] at hdata
  change At container.stream.data (pos + 8 + 12) media.data at hdata
  have hlength := length_payload container.order media
  have hcount : (UInt32.ofNat media.data.length).toNat = media.data.length :=
    UInt32.toNat_ofNat_of_lt' (by omega)
  have hroom : ¬(Chunk.plainAt tag (media.payload container.order) pos).size.toNat - 12 <
      media.data.length := by
    rw [Chunk.size_plainAt tag pos hsize]
    omega
  have hwithin := outcome_onStream (pos + 8 + 12)
    (Stream.outcome_ensureAvailable (container.stream.seek (pos + 8 + 12)) hdata.le)
  have htake := outcome_onStream (pos + 8 + 12)
    (Stream.outcome_take (container.stream.seek (pos + 8 + 12)) .readingPayload hdata)
  rw [decodeMedia, Step.outcome_bind_ok (outcome_readWord_head container hwords),
    Step.outcome_bind_ok (outcome_readWord_head container (Chunk.at_tail hwords)),
    Step.outcome_bind_ok (outcome_readWord_head container (Chunk.at_tail (Chunk.at_tail hwords))), hcount]
  simp only [if_neg hroom, Chunk.offset_plainAt]
  rw [Step.outcome_bind_ok hwithin, Step.outcome_bind_ok htake, Step.outcome_pure, hlength]
  simp only [Nat.add_assoc, Stream.seek]

/-- The next entry of the open list. -/
theorem outcome_readMedia {media : Media} {list : Chunk} (hlist : container.mediaList = some list)
    (hend : pos + (Chunk.encode container.order Tag.mref (media.payload container.order)).length ≤
      list.stop)
    (hsize : (media.payload container.order).length < UInt32.size)
    (h : At container.stream.data pos
      (Chunk.encode container.order Tag.mref (media.payload container.order))) :
    readMedia.outcome (container.moved pos) = (.ok media, container.moved
      (pos + (Chunk.encode container.order Tag.mref (media.payload container.order)).length)) := by
  have hopen : openMediaList.outcome (container.moved pos) = (.ok list, container.moved pos) := by
    simp only [openMediaList, Step.outcome_bind, Step.outcome_get, moved, hlist, Step.outcome_pure]
  have hposition : position.outcome (container.moved pos) = (.ok pos, container.moved pos) := rfl
  have hfits : Chunk.headerFits pos list.stop = true := by
    rw [Chunk.length_encode] at hend
    exact Chunk.headerFits_of_le (by omega)
  have hnext := outcome_expectNext Tag.mref rfl (Chunk.at?_encode rfl h)
  have hmedia := outcome_inside (Chunk.plainAt Tag.mref (media.payload container.order) pos)
    (outcome_decodeMedia Tag.mref hsize (Chunk.at_payload h))
  rw [readMedia, Step.outcome_bind_ok hopen, Step.outcome_bind_ok hposition, hfits]
  refine (Step.outcome_bind_ok hnext).trans (hmedia.trans ?_)
  rw [moved_moved, Chunk.finish_plainAt container.order Tag.mref pos hsize]

/-- The entries of a media list as whole chunks. -/
def mediaChunks (order : ByteOrder) (media : List Media) : Bytes :=
  media.flatMap fun entry => Chunk.encode order Tag.mref (entry.payload order)

theorem mediaChunks_cons (order : ByteOrder) (entry : Media) (rest : List Media) :
    mediaChunks order (entry :: rest) =
      Chunk.encode order Tag.mref (entry.payload order) ++ mediaChunks order rest := rfl

/-- All entries of the open list, in order. -/
theorem outcome_times_readMedia (container : Container) {pos : Nat} {media : List Media}
    {list : Chunk} (hlist : container.mediaList = some list)
    (hend : pos + (mediaChunks container.order media).length ≤ list.stop)
    (hsize : (mediaChunks container.order media).length < UInt32.size)
    (h : At container.stream.data pos (mediaChunks container.order media)) :
    (Step.times readMedia media.length).outcome (container.moved pos) =
      (.ok media, container.moved (pos + (mediaChunks container.order media).length)) := by
  induction media generalizing pos with
  | nil => rfl
  | cons entry rest ih =>
      rw [mediaChunks_cons] at h
      rw [mediaChunks_cons, List.length_append] at hend hsize
      have hentry : (entry.payload container.order).length < UInt32.size := by
        rw [Chunk.length_encode] at hsize
        omega
      have hfirst := outcome_readMedia hlist (by omega) hentry h.left
      have hrest := ih (by omega) (by omega) h.right
      rw [List.length_cons, Step.times, Step.outcome_bind_ok hfirst, Step.outcome_bind_ok hrest,
        Step.outcome_pure, mediaChunks_cons, List.length_append, Nat.add_assoc]

/-- A search that finds what it looks for at once. -/
theorem walk_found {order : ByteOrder} {data : Bytes} {limit : Nat} {verdict : Chunk → Chunk.Verdict}
    {chunk : Chunk} (hfits : Chunk.headerFits pos limit = true)
    (hat : Chunk.at? order data pos = some chunk) (hverdict : verdict chunk = .found) :
    Chunk.walk order data limit verdict pos = .found chunk := by
  rw [Chunk.walk, if_pos hfits]
  split <;> rename_i heq <;> rw [hat] at heq <;> cases heq
  rw [hverdict]

/-- The first child of a parent is found when it has the tag and stays inside. -/
theorem outcome_descend_child (container : Container) (pos : Nat) (expected : Tag)
    {parent chunk : Chunk} (hfits : parent.offset + 8 ≤ parent.stop) (hwithin : chunk.stop ≤ parent.stop)
    (htag : chunk.tag = expected)
    (h : Chunk.at? container.order container.stream.data parent.offset = some chunk) :
    (descend (.child expected) (some parent)).outcome (container.moved pos) =
      (.ok chunk, container.moved chunk.offset) := by
  have hverdict : Chunk.childVerdict parent.stop (·.tag == expected) chunk = .found := by
    rw [Chunk.childVerdict, if_neg (Nat.not_lt.mpr hwithin), if_pos (beq_iff_eq.mpr htag)]
  have hfound := walk_found (Chunk.headerFits_of_le hfits) h hverdict
  have hseek : (Chunk.seekChild container.order parent expected (·.tag == expected)).outcome
      (container.stream.seek pos) = (.ok chunk, container.stream.seek chunk.offset) := by
    rw [Chunk.seekChild, Stream.goto, Step.outcome_bind_ok (Step.outcome_update _ _),
      Chunk.seekSibling, Step.outcome_of]
    simp only [Stream.seek, hfound]
  rw [descend, Step.outcome_bind_ok (Step.outcome_get _)]
  exact outcome_onStream pos hseek

/-- The container with a media list open. -/
def opened (container : Container) (list : Chunk) : Container :=
  { container with mediaList := some list }

/-- The leading chunk of a media list. -/
def infoChunk (order : ByteOrder) (info : MediaInfo) : Bytes :=
  Chunk.encode order Tag.info
    (Chunk.encodeWords order [info.flags, info.typeIndex, info.count])

theorem length_infoChunk (order : ByteOrder) (info : MediaInfo) : (infoChunk order info).length = 20 := by
  simp [infoChunk]

theorem outcome_readInfo (container : Container) {info : MediaInfo}
    (h : At container.stream.data pos (infoChunk container.order info)) :
    (inside (Chunk.plainAt Tag.info
        (Chunk.encodeWords container.order [info.flags, info.typeIndex, info.count]) pos) (do
      let flags ← readWord
      let typeIndex ← readWord
      let count ← readWord
      return { flags, typeIndex, count : MediaInfo })).outcome (container.moved (pos + 8)) =
        (.ok info, container.moved (pos + 20)) := by
  have hwords := Chunk.at_payload h
  have hbody := outcome_readWord_head container (Chunk.at_tail (Chunk.at_tail hwords))
  have hsize : (Chunk.encodeWords container.order [info.flags, info.typeIndex, info.count]).length <
      UInt32.size := by
    simp only [Chunk.length_encodeWords, List.length_cons, List.length_nil]
    decide
  have hfinish := Chunk.finish_plainAt container.order Tag.info pos hsize
  rw [← infoChunk, length_infoChunk] at hfinish
  rw [← hfinish]
  change _ = (_, (container.moved (pos + 8 + 4 + 4 + 4)).moved _)
  apply outcome_inside
  rw [Step.outcome_bind_ok (outcome_readWord_head container hwords),
    Step.outcome_bind_ok (outcome_readWord_head container (Chunk.at_tail hwords)),
    Step.outcome_bind_ok hbody, Step.outcome_pure]

/-- Opening a list leaves the stream at its first entry. -/
theorem outcome_beginMediaList {info : MediaInfo} {entries : Bytes}
    (hsize : (infoChunk container.order info ++ entries).length < UInt32.size)
    (h : At container.stream.data pos (Chunk.encodeForm container.order Tag.list Tag.mrfl
      (infoChunk container.order info ++ entries))) :
    beginMediaList.outcome (container.moved pos) =
      (.ok info, (container.opened (Chunk.formAt Tag.list Tag.mrfl
        (infoChunk container.order info ++ entries) pos)).moved (pos + 12 + 20)) := by
  have hinside := Chunk.at_children h
  have hlist := outcome_expectNext Tag.list rfl (Chunk.at?_encodeForm rfl h)
  have hstop := Chunk.stop_formAt Tag.list Tag.mrfl pos hsize
  have hform : (Chunk.formAt Tag.list Tag.mrfl (infoChunk container.order info ++ entries) pos).form =
    Tag.mrfl := rfl
  have hoffset : (Chunk.formAt Tag.list Tag.mrfl (infoChunk container.order info ++ entries)
    pos).offset = pos + 12 := rfl
  generalize Chunk.formAt Tag.list Tag.mrfl (infoChunk container.order info ++ entries) pos = list
    at hlist hstop hform hoffset ⊢
  rw [List.length_append, length_infoChunk] at hstop
  have hwords : (Chunk.encodeWords container.order [info.flags, info.typeIndex, info.count]).length =
      12 := by simp
  have hchild := outcome_descend_child (container.opened list) (pos + 12) Tag.info
    (by omega) (by rw [Chunk.stop_plainAt _ _ (by rw [hwords]; decide)]; omega) rfl
    (Chunk.at?_encode rfl (hoffset ▸ hinside.left))
  rw [hoffset] at hchild
  have hinfo := outcome_readInfo (container.opened list) hinside.left
  rw [beginMediaList, Step.outcome_bind_ok hlist]
  dsimp only
  rw [if_neg (not_not_intro hform), hoffset, Step.outcome_bind_ok (Step.outcome_modify _ _)]
  exact (Step.outcome_bind_ok hchild).trans hinfo

theorem outcome_endMediaList (container : Container) {list : Chunk}
    (hlist : container.mediaList = some list) :
    endMediaList.outcome container =
      (.ok (), { container with mediaList := none }.moved list.finish) := by
  have hopen : openMediaList.outcome container = (.ok list, container) := by
    simp only [openMediaList, Step.outcome_bind, Step.outcome_get, hlist, Step.outcome_pure]
  rw [endMediaList, Step.outcome_bind_ok hopen, Step.outcome_bind_ok (Step.outcome_modify _ _)]
  rfl

/-- Leading chunk and entries of a list, as much media as the leading chunk says. -/
def readList : ContainerStep (MediaInfo × List Media) :=
  withMediaList fun info => do
    let media ← Step.times readMedia info.count.toNat
    return (info, media)

/-- A media list gives its leading chunk and all of its entries back, and the stream stays behind it. -/
theorem outcome_readList (container : Container) {info : MediaInfo} {media : List Media} {children : Bytes}
    (hcount : info.count.toNat = media.length) (hclosed : container.mediaList = none)
    (hchildren : children = infoChunk container.order info ++ mediaChunks container.order media)
    (heven : children.length % 2 = 0) (hsize : children.length < UInt32.size)
    (h : At container.stream.data pos
      (Chunk.encodeForm container.order Tag.list Tag.mrfl children)) :
    readList.outcome (container.moved pos) = (.ok (info, media), container.moved
      (pos + (Chunk.encodeForm container.order Tag.list Tag.mrfl children).length)) := by
  subst hchildren
  have hstop := Chunk.stop_formAt Tag.list Tag.mrfl pos hsize
  have hfinish := Chunk.finish_formAt container.order Tag.list Tag.mrfl pos hsize heven
  have hbegin := outcome_beginMediaList hsize h
  have hentries := (Chunk.at_children h).right
  rw [length_infoChunk] at hentries
  rw [List.length_append, length_infoChunk] at hstop hsize
  generalize Chunk.formAt Tag.list Tag.mrfl
    (infoChunk container.order info ++ mediaChunks container.order media) pos = list
    at hstop hfinish hbegin
  have hsmall : (mediaChunks container.order media).length < UInt32.size := by omega
  have hmedia := outcome_times_readMedia (container.opened list) rfl
    (Nat.le_of_eq ((Nat.add_assoc _ _ _).trans hstop.symm)) hsmall hentries
  have hbody : (do
      let media ← Step.times readMedia info.count.toNat
      return (info, media) : ContainerStep (MediaInfo × List Media)).outcome
        ((container.opened list).moved (pos + 12 + 20)) =
      (.ok (info, media), (container.opened list).moved
        (pos + 12 + 20 + (mediaChunks container.order media).length)) := by
    rw [hcount, Step.outcome_bind_ok hmedia, Step.outcome_pure]
    rfl
  have hleave := outcome_endMediaList ((container.opened list).moved
    (pos + 12 + 20 + (mediaChunks container.order media).length)) rfl
  have hsame : { (container.opened list).moved (pos + 12 + 20 +
      (mediaChunks container.order media).length) with mediaList := none }.moved list.finish =
        container.moved list.finish := by
    rw [moved, moved, opened, ← hclosed]
    rfl
  rw [readList, withMediaList, enterMediaList,
    Step.outcome_bind_ok (Step.outcome_onFailure_ok hbegin), Step.outcome_closing hbody hleave, hsame,
    hfinish]

/-! ### The byte order -/

theorem along_onStream {α : Type} (reading : Reading α) :
    Step.Along (Step.Alike order) (onStream reading) :=
  fun _ => rfl

theorem along_tocOffset (index : Nat) :
    Step.Along (Step.Alike order) (tocOffset index) := by
  refine Step.Along.get.bind fun container => ?_
  split
  · exact .ofExcept _
  · exact .throw _

theorem along_expectNext (expected : Tag) :
    Step.Along (Step.Alike order) (expectNext expected) := by
  have hdescend : Step.Along (Step.Alike order) (descend .next none) :=
    Step.Along.get.bind fun _ => along_onStream _
  refine hdescend.bind fun chunk => ?_
  split
  · exact .pure _
  · exact (along_onStream _).bind fun _ => .throw _

/-- Reading a chunk leaves the byte order of the container. -/
theorem along_readChunkAt (index : Nat) (expected : Tag) :
    Step.Along (Step.Alike order) (readChunkAt index expected) :=
  (along_tocOffset index).bind fun _ => (along_onStream _).bind fun _ =>
    (along_expectNext expected).bind fun _ => (along_onStream _).closing (along_onStream _)

end Playprint.Container
