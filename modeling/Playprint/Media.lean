import Playprint.Text.Utf8

/-!
What a media list holds: an `info` chunk, and an `mref` chunk for each of its media.
-/

namespace Playprint

/-- The leading chunk of a media list. -/
structure MediaInfo where
  flags : UInt32
  typeIndex : UInt32
  /-- How many media follow. -/
  count : UInt32

/-- One entry of a media list. -/
structure Media where
  flags : UInt32
  mediaType : UInt32
  data : Bytes

namespace Media

/-- Whether the data names a file instead of being the media. -/
def isExternal (media : Media) : Bool :=
  media.flags == 0

/-- The file that holds the media, when it is not in the container and its name is text. -/
def filename? (media : Media) : Option String :=
  if media.isExternal then Utf8.decode? media.data else none

end Media

end Playprint
