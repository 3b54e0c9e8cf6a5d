import Playprint.Container

/-!
Writing a container. A master holds the header and the sections of a container; its bytes are the
outermost chunk around header, table of contents and sections. The table has one entry for each section,
labelled with the position of the section.
-/

namespace Playprint

/-- A section of a container that is to be written. -/
inductive Section
  | group (payload : Bytes)
  | set (payload : Bytes)
  | scene (typeIndex : UInt32) (groups : List UInt32)
  | mediaList (flags typeIndex : UInt32) (media : List Media)
  /-- A chunk of any tag. -/
  | raw (tag : Tag) (payload : Bytes)

namespace Chunk

/-- The words of a payload. -/
def encodeWords (order : ByteOrder) (words : List UInt32) : Bytes :=
  words.flatMap order.wordBytes

/-- A chunk without form: tag, size, payload, and a pad byte after a payload of odd size. -/
def encode (order : ByteOrder) (tag : Tag) (payload : Bytes) : Bytes :=
  encodeWords order [tag.code, UInt32.ofNat payload.length] ++ payload ++
    List.replicate (payload.length % 2) 0

/-- A chunk around whole chunks: tag, size of the children, form, children. -/
def encodeForm (order : ByteOrder) (tag form : Tag) (children : Bytes) : Bytes :=
  encodeWords order [tag.code, UInt32.ofNat children.length, form.code] ++ children

end Chunk

namespace Media

/-- The payload of the chunk of a media entry. -/
def payload (order : ByteOrder) (media : Media) : Bytes :=
  Chunk.encodeWords order [media.flags, media.mediaType, UInt32.ofNat media.data.length] ++
    media.data

end Media

namespace Section

/-- The payload of the chunk of a section; of a media list, its children. -/
def payload (order : ByteOrder) : Section → Bytes
  | group payload | set payload | raw _ payload => payload
  | scene typeIndex groups =>
    Chunk.encodeWords order (typeIndex :: UInt32.ofNat groups.length :: groups)
  | mediaList flags typeIndex media =>
    Chunk.encode order Tag.info
        (Chunk.encodeWords order [flags, typeIndex, UInt32.ofNat media.length]) ++
      media.flatMap fun entry => Chunk.encode order Tag.mref (entry.payload order)

/-- The tag of the chunk of a section. -/
def tag : Section → Tag
  | group _ => Tag.grp
  | set _ => Tag.set
  | scene _ _ => Tag.scn
  | mediaList _ _ _ => Tag.list
  | raw tag _ => tag

/-- A section as a whole chunk. -/
def encode (order : ByteOrder) (part : Section) : Bytes :=
  match part with
  | mediaList _ _ _ => Chunk.encodeForm order Tag.list Tag.mrfl (part.payload order)
  | group _ | set _ | scene _ _ | raw _ _ => Chunk.encode order part.tag (part.payload order)

end Section

/-- A container that is to be written. -/
structure Master where
  order : ByteOrder
  header : Header
  sections : List Section

namespace Master

/-- A master without sections. -/
def empty (order : ByteOrder) (header : Header) : Master := ⟨order, header, []⟩

/-- Appends a section. Its position comes with the new master as a word, which is also its label in the table
of contents. -/
def add (master : Master) (part : Section) : UInt32 × Master :=
  (UInt32.ofNat master.sections.length, { master with sections := master.sections ++ [part] })

/-- The header chunk. -/
def headerChunk (master : Master) : Bytes :=
  Chunk.encode master.order Tag.hdr
    (Chunk.encodeWords master.order [master.header.version, master.header.date])

/-- Where the first section starts: behind the outermost header, the header chunk and a table with an
entry for each section. -/
def firstOffset (master : Master) : Nat :=
  12 + master.headerChunk.length + (8 + 4 + 8 * master.sections.length)

/-- Labels and offsets of sections from position `index` on, the first of which starts at `offset`. -/
def tocWords (order : ByteOrder) (index offset : Nat) : List Section → List UInt32
  | [] => []
  | part :: rest =>
    UInt32.ofNat index :: UInt32.ofNat offset ::
      tocWords order (index + 1) (offset + (part.encode order).length) rest

/-- The chunk of the table of contents. -/
def tocChunk (master : Master) : Bytes :=
  Chunk.encode master.order Tag.toc
    (Chunk.encodeWords master.order (UInt32.ofNat master.sections.length ::
      tocWords master.order 0 master.firstOffset master.sections))

/-- The bytes of the container. -/
def encode (master : Master) : Bytes :=
  Chunk.encodeForm master.order master.order.formTag Tag.mlrt
    (master.headerChunk ++ master.tocChunk ++
      master.sections.flatMap (Section.encode master.order))

end Master

end Playprint
