import Playprint.Chunk.Descent
import Playprint.Media
import Playprint.Toc

/-!
Reading a container. The outermost chunk is opened first, then header and table of contents are read,
and after that chunks in sequence, by table entry, or as media lists. Every reader descends, decodes and
ascends again whether decoding succeeded or not, so a failed decode leaves the stream behind the chunk.
-/

namespace Playprint

/-- The header chunk. -/
structure Header where
  version : UInt32
  date : UInt32

/-- A container that is being read. -/
structure Container where
  order : ByteOrder
  stream : Stream
  /-- The file it was opened from. -/
  path : Option String
  /-- The outermost chunk, once opened. -/
  form : Option Chunk
  header : Option Header
  toc : Option Toc
  /-- A table of contents under construction. -/
  pendingToc : Option Toc
  /-- The media list that is open. -/
  mediaList : Option Chunk

/-- A step that reads from a container. -/
abbrev ContainerStep := Step FormatError Container

namespace Container

/-- Runs a reading step on the stream of the container. -/
def onStream {α : Type} (reading : Reading α) : ContainerStep α :=
  Step.on Container.stream (fun stream container => { container with stream }) reading

/-- Reads a word in the byte order of the container. -/
def readWord : ContainerStep UInt32 := do
  onStream (Stream.readWord (← get).order)

/-- Moves to a position. -/
def goto (pos : Nat) : ContainerStep Unit :=
  onStream (Stream.goto pos)

/-- The position of the next read. -/
def position : ContainerStep Nat :=
  onStream Stream.position

/-- Descends into a chunk. -/
def descend (descent : Descent) (parent : Option Chunk) : ContainerStep Chunk := do
  onStream (Chunk.descend (← get).order descent parent)

/-- Leaves a chunk. -/
def ascend (chunk : Chunk) : ContainerStep Unit :=
  onStream chunk.ascend

/-- Runs `body` inside a chunk that was descended into, and leaves the chunk whatever it came to. -/
def inside {α : Type} (chunk : Chunk) (body : ContainerStep α) : ContainerStep α :=
  body.closing (ascend chunk)

/-- A container over a stream whose byte order is known. -/
def ofStream (order : ByteOrder) (stream : Stream) : Container where
  order
  stream
  path := none
  form := none
  header := none
  toc := none
  pendingToc := none
  mediaList := none

/-- A container over data, its byte order told from the leading tag. -/
def ofBytes (data : Bytes) : Except FormatError Container :=
  let (order, stream) := detectOrder.outcome (Stream.ofBytes data)
  order.map (ofStream · stream)

/-- Descends into the outermost chunk. -/
def openForm : ContainerStep Unit := do
  let form ← descend (.outermost Tag.mlrt) none
  modify fun container => { container with form := some form }

/-- The outermost chunk, which must have been opened. -/
def openedForm : ContainerStep Chunk := do
  match (← get).form with
  | some form => return form
  | none => throw .notStarted

/-- Leaves the outermost chunk for good; the stream stays behind it. -/
def close : ContainerStep Nat := do
  let form ← openedForm
  modify fun container => { container with form := none }
  ascend form
  position

/-- Descends into the next chunk, which must have a tag; one with another tag is passed over. -/
def expectNext (expected : Tag) : ContainerStep Chunk := do
  let chunk ← descend .next none
  if chunk.tag = expected then return chunk
  ascend chunk
  throw (.unexpectedChunk expected chunk.tag)

/-- Reads the header chunk. -/
def readHeader : ContainerStep Header := do
  let _ ← openedForm
  let chunk ← expectNext Tag.hdr
  let header ← inside chunk do
    let version ← readWord
    let date ← readWord
    return { version, date }
  modify fun container => { container with header := some header }
  return header

/-- Starts a table of contents; one that was under construction is dropped. -/
def beginToc (reserved : Nat) : ContainerStep Unit := do
  let toc ← Step.ofExcept (Toc.withRoom reserved)
  modify fun container => { container with pendingToc := some toc }

/-- The table of contents under construction. -/
def pendingTable : ContainerStep Toc := do
  match (← get).pendingToc with
  | some toc => return toc
  | none => throw .tocUnavailable

/-- Appends an entry to the table under construction; answers its index. -/
def addTocEntry (label offset : UInt32) : ContainerStep UInt32 := do
  let (index, toc) ← Step.ofExcept ((← pendingTable).add label offset)
  modify fun container => { container with pendingToc := some toc }
  return index

/-- Installs the table under construction; answers its size. -/
def endToc : ContainerStep Nat := do
  let toc ← pendingTable
  modify fun container => { container with pendingToc := none, toc := some toc }
  return toc.size

/-- Reads the entries of a table of contents from the payload of its chunk. -/
def decodeToc (chunk : Chunk) : ContainerStep Nat := do
  let count ← readWord
  let room := (chunk.size.toNat - 4) / 8
  if room < count.toNat then throw (.truncated (chunk.offset + 4) ((count.toNat - room) * 8))
  beginToc count.toNat
  let _ ← Step.times
    (do
      let label ← readWord
      let offset ← readWord
      addTocEntry label offset)
    count.toNat
  endToc

/-- Reads the table of contents and installs it; answers its size. -/
def readToc : ContainerStep Nat := do
  let _ ← openedForm
  let chunk ← expectNext Tag.toc
  inside chunk (decodeToc chunk)

/-- The entries of the table of contents; none before it was read. -/
def tocEntries (container : Container) : List TocEntry :=
  match container.toc with
  | some toc => toc.entries.toList
  | none => []

/-- Where the chunk of a table entry starts. -/
def tocOffset (index : Nat) : ContainerStep Nat := do
  match (← get).toc with
  | some toc => Step.ofExcept (toc.offset index)
  | none => throw .tocUnavailable

/-- Opens a container over data and reads its header and table of contents. -/
def load (data : Bytes) : Except FormatError Container := do
  let container ← ofBytes data
  let (answer, container) :=
    Step.outcome (do openForm; let _ ← readHeader; let _ ← readToc) container
  answer.map fun () => container

/-- Opens a container that was read from a file. -/
def openFile (path : String) (data : Bytes) : Except FormatError Container :=
  (load data).map fun container => { container with path := some path }

/-- The container after its file was written. It still has the length that was found on opening. -/
def overwrite (data : Bytes) (container : Container) : Container :=
  { container with stream := container.stream.overwrite data }

/-- The verdict of a search for the next chunk of a tag. -/
def sectionVerdict (tag : Tag) (chunk : Chunk) : Chunk.Verdict :=
  if chunk.tag = tag then .found else .skip

/-- Passes over chunks up to the next one of a tag, and hands its payload to `use`. -/
def readSection {α : Type} (tag : Tag) (use : Bytes → Except FormatError α) : ContainerStep α := do
  let form ← openedForm
  let order := (← get).order
  let chunk ← onStream (Chunk.seekSibling order form.stop (sectionVerdict tag)
    (.chunkNotFound tag form.tag))
  let payload ← inside chunk (onStream chunk.readPayload)
  Step.ofExcept (use payload)

/-- The payload of the chunk a table entry points at, which must have a tag. -/
def readChunkAt (index : Nat) (expected : Tag) : ContainerStep Bytes := do
  let offset ← tocOffset index
  goto offset
  let chunk ← expectNext expected
  inside chunk (onStream chunk.readPayload)

/-- Enters the media list that is next in the stream and reads its leading chunk. -/
def beginMediaList : ContainerStep MediaInfo := do
  let list ← expectNext Tag.list
  if list.form ≠ Tag.mrfl then
    ascend list
    throw (.unexpectedChunk Tag.mrfl list.form)
  modify fun container => { container with mediaList := some list }
  let chunk ← descend (.child Tag.info) (some list)
  inside chunk do
    let flags ← readWord
    let typeIndex ← readWord
    let count ← readWord
    return { flags, typeIndex, count }

/-- The media list that is open. -/
def openMediaList : ContainerStep Chunk := do
  match (← get).mediaList with
  | some list => return list
  | none => throw .missingParent

/-- Reads a media entry from the payload of its chunk. -/
def decodeMedia (chunk : Chunk) : ContainerStep Media := do
  let flags ← readWord
  let mediaType ← readWord
  let size := (← readWord).toNat
  let available := chunk.size.toNat - 12
  if available < size then throw (.truncated (chunk.offset + 12) (size - available))
  onStream (Stream.ensureAvailable (chunk.offset + 12) size)
  let data ← onStream (Stream.take .readingPayload size)
  return { flags, mediaType, data }

/-- Reads the next entry of the open media list. -/
def readMedia : ContainerStep Media := do
  let list ← openMediaList
  if !Chunk.headerFits (← position) list.stop then throw (.chunkNotFound Tag.mref Tag.mrfl)
  let chunk ← expectNext Tag.mref
  inside chunk (decodeMedia chunk)

/-- Leaves the open media list. -/
def endMediaList : ContainerStep Unit := do
  let list ← openMediaList
  modify fun container => { container with mediaList := none }
  ascend list

/-- The container with no media list open and, if one was, the stream behind it. -/
def abandonMediaList (container : Container) : Container :=
  match container.mediaList with
  | some list => { container with mediaList := none, stream := container.stream.seek list.finish }
  | none => container

/-- Enters a media list, or leaves none open. -/
def enterMediaList : ContainerStep MediaInfo :=
  beginMediaList.onFailure abandonMediaList

/-- Runs `body` inside the media list that is next in the stream, and leaves the list whatever `body`
came to. -/
def withMediaList {α : Type} (body : MediaInfo → ContainerStep α) : ContainerStep α := do
  let info ← enterMediaList
  (body info).closing endMediaList

/-- The chunks directly inside the outermost one, in order; the stream stays where it is unless a header
is not wholly in the data. -/
def topLevelChunks : ContainerStep (List Chunk) := do
  let form ← openedForm
  let container ← get
  match Chunk.siblings container.order container.stream.data form.stop form.offset with
  | some chunks => return chunks
  | none =>
    goto container.stream.data.length
    throw (.io .readingWord .endOfData)

end Container

end Playprint
