/-
  Songs: the records the library keeps, one per audio file.

  `Song.get?` reads a tag, where an empty value counts as none, and
  `Song.number` reads it as a number; `Song.extension?` is the extension of the
  file.
-/
import SongLibrary.Path
import SongLibrary.Tag
import SongLibrary.Text.DecimalDigit

namespace SongLibrary

/-- The record of an audio file. -/
structure Song where
  /-- The row of the song in its table, once it has one. -/
  id : Option Int64
  /-- Where the file is: relative to the music directory, or absolute. -/
  uri : String
  tags : TagMap
  /-- When the song first came into the table. -/
  dateAdded : String
  /-- Length of the beginning of the file name that is not part of the title. -/
  prefixLength : Int64
  /-- Whether the file stays where it is unless it is moved on request. -/
  preventRename : Bool
  deriving DecidableEq

namespace Song

/-- A song that is in no table yet. -/
def new (uri dateAdded : String) : Song :=
  ⟨none, uri, .empty, dateAdded, 0, false⟩

/-- The value of a tag that is not empty. -/
def get? (song : Song) (key : TagKey) : Option String :=
  (song.tags.get? key).filter (!·.isEmpty)

/-- The song with the value of one tag replaced. -/
def set (song : Song) (key : TagKey) (value : String) : Song :=
  { song with tags := song.tags.set key value }

/-- The number at the beginning of a tag's value, `0` when there is none. -/
def number (song : Song) (key : TagKey) : Nat :=
  ((song.get? key).bind fun value => Text.leadingNumber? value.toList).getD 0

/-- The extension of the song's file. -/
def extension? (song : Song) : Option String :=
  (Path.ofString song.uri).extension?.map Name.shown

end Song

end SongLibrary
