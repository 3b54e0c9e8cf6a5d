import Playprint.Json.Printer
import Playprint.Tool.Arguments
import Playprint.Tool.Failure

/-!
The tool that lists a container: its header, its table of contents and the chunks in it.
-/

namespace Playprint.Tool.Dump

/-- What the tool is asked. -/
structure Options where
  path : String
  json : Bool

/-- Reads the command line. -/
def Options.ofLine? (line : List String) : Option Options := do
  let arguments ← Arguments.ofLine? [⟨"json", .flag⟩] 1 line
  let path ← arguments.positionals.head?.bind Arguments.path?
  return ⟨path, arguments.has "json"⟩

/-- What there is to list. -/
structure Listing where
  path : String
  order : ByteOrder
  header : Option Header
  entries : List TocEntry
  chunks : List Chunk

namespace Listing

/-- Lists a container. -/
def ofContainer (path : String) (container : Container) : Except FormatError Listing :=
  (Container.topLevelChunks.outcome container).1.map fun chunks =>
    { path, chunks
      order := container.order
      header := container.header
      entries := container.tocEntries }

/-- The chunk that an entry of the table of contents points at. -/
def chunk? (listing : Listing) (entry : TocEntry) : Option Chunk :=
  listing.chunks.find? fun chunk => chunk.start = entry.offset.toNat

/-- The line of an entry. -/
def entryLine (listing : Listing) (index : Nat) (entry : TocEntry) : String :=
  let tag := ((listing.chunk? entry).map (·.tag.text)).getD "????"
  let position := Decimal.padLeft 4 ' ' (toString index)
  let label := Decimal.padLeft 6 ' ' (toString entry.label.toNat)
  s!"toc {position} label {label} {tag} @ 0x{Hex.ofNat 8 entry.offset.toNat}"

/-- The line of a chunk. -/
def chunkLine (chunk : Chunk) : String :=
  let offset := Decimal.padLeft 10 ' ' (toString chunk.offset)
  let size := Decimal.padLeft 10 ' ' (toString chunk.size.toNat)
  s!"{chunk.tag.text} {chunk.form.text} {offset} {size}"

/-- The line of the header. -/
def headerLine (header : Header) : String :=
  s!"version {header.version.toNat} date {header.date.toNat}"

/-- The lines of the listing. -/
def lines (listing : Listing) : List String :=
  s!"{listing.path} ({listing.order.name}) {listing.entries.length} TOC entries" ::
    listing.header.toList.map headerLine ++
    listing.entries.mapIdx listing.entryLine ++
    listing.chunks.map chunkLine

/-- The text of the listing. -/
def text (listing : Listing) : String :=
  String.join (listing.lines.map (· ++ "\n"))

/-- A header as JSON. -/
def headerJson (header : Header) : Json :=
  .object [("version", .natural header.version.toNat), ("date", .natural header.date.toNat)]

/-- An entry as JSON. -/
def entryJson (entry : TocEntry) : Json :=
  .object [("label", .natural entry.label.toNat), ("offset", .natural entry.offset.toNat)]

/-- A chunk as JSON. -/
def chunkJson (chunk : Chunk) : Json :=
  .object [
    ("chunk", .object [("tag", .string chunk.tag.text), ("size", .natural chunk.size.toNat)]),
    ("form", .string chunk.form.text), ("offset", .natural chunk.offset), ("flags", .natural 0)]

/-- The listing as JSON. -/
def toJson (listing : Listing) : Json :=
  .object [("path", .string listing.path), ("byte_format", .string listing.order.name),
    ("header", .ofOption headerJson listing.header),
    ("toc", .array (listing.entries.map entryJson)),
    ("chunks", .array (listing.chunks.map chunkJson))]

end Listing

variable {m : Type → Type} [Monad m]

/-- Runs the tool. -/
def run (files : FileSystem m) (options : Options) : Action m Unit := do
  let container ← openContainer files options.path
  let listing ← settle ((Listing.ofContainer options.path container).mapError fun error =>
    (Failure.ofFormat error).during "listing top-level chunks")
  files.print (if options.json then listing.toJson.pretty ++ "\n" else listing.text)

end Playprint.Tool.Dump
