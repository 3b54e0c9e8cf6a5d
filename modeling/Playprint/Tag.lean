import Playprint.ByteOrder

/-!
Four-character codes. A tag names a chunk or the form of a chunk that holds other chunks. It is a word,
so a little-endian container stores its characters in reverse.
-/

namespace Playprint

/-- A four-character code, packed with its first character in the highest byte. -/
structure Tag where
  /-- The code as a word. -/
  code : UInt32
  deriving DecidableEq

namespace Tag

/-- The tag of four characters in reading order. -/
def ofBytes (c0 c1 c2 c3 : UInt8) : Tag :=
  ⟨ByteOrder.big.word [c0, c1, c2, c3]⟩

/-- The tag of four ASCII characters in reading order. -/
def ofChars (c0 c1 c2 c3 : Char) : Tag :=
  ofBytes c0.toUInt8 c1.toUInt8 c2.toUInt8 c3.toUInt8

/-- The four bytes of the tag in reading order. -/
def bytes (tag : Tag) : Bytes :=
  ByteOrder.big.wordBytes tag.code

/-- A byte as text shows it: printable ASCII as it is, all else as a dot. -/
def shownByte (byte : UInt8) : Char :=
  if 0x20 ≤ byte ∧ byte ≤ 0x7e then Char.ofNat byte.toNat else '.'

/-- The four characters of the tag, unprintable ones as dots. -/
def text (tag : Tag) : String :=
  String.ofList (tag.bytes.map shownByte)

/-- The tag between quotes, as messages show it. -/
def quoted (tag : Tag) : String :=
  "'" ++ tag.text ++ "'"

/-- Opens a big-endian container. -/
def ppbe : Tag := ofChars 'P' 'P' 'B' 'E'
/-- Opens a little-endian container. -/
def pple : Tag := ofChars 'P' 'P' 'L' 'E'
/-- Opens a list of chunks inside a container. -/
def list : Tag := ofChars 'L' 'I' 'S' 'T'
/-- Stands for the form of a chunk that has none. -/
def blank : Tag := ofChars ' ' ' ' ' ' ' '
/-- The header chunk. -/
def hdr : Tag := ofChars 'h' 'd' 'r' ' '
/-- The table of contents. -/
def toc : Tag := ofChars 't' 'o' 'c' ' '
/-- A group of actors. -/
def grp : Tag := ofChars 'g' 'r' 'p' ' '
/-- A set. -/
def set : Tag := ofChars 's' 'e' 't' ' '
/-- A scene. -/
def scn : Tag := ofChars 's' 'c' 'n' ' '
/-- The leading chunk of a media list. -/
def info : Tag := ofChars 'i' 'n' 'f' 'o'
/-- One entry of a media list. -/
def mref : Tag := ofChars 'm' 'r' 'e' 'f'
/-- The form of the chunk that is the whole container. -/
def mlrt : Tag := ofChars 'M' 'L' 'R' 'T'
/-- The form of a media list. -/
def mrfl : Tag := ofChars 'M' 'R' 'F' 'L'

/-- Whether chunks of this tag carry a form and hold other chunks. -/
def hasForm (tag : Tag) : Bool :=
  tag == ppbe || tag == pple || tag == list

end Tag

namespace ByteOrder

/-- The tag of the outermost chunk of a container in this order. -/
def formTag : ByteOrder → Tag
  | big => Tag.ppbe
  | little => Tag.pple

end ByteOrder

end Playprint
