/-
  The fields a path template can name.

  A field is written into a path by its `Conversion`; all fields but `bypass`
  stand for a tag (`Field.tagKey?`).
-/
import SongLibrary.Tag

namespace SongLibrary.Template

/-- What a placeholder of a template stands for. -/
inductive Field where
  | album
  | albumArtist
  | artist
  | bpm
  /-- A piece of a path, supplied from outside. -/
  | bypass
  | composer
  | conductor
  | dance
  | disc
  | genre
  | rating
  | status
  | title
  | trackNumber
  /-- The track number with two digits at least. -/
  | paddedTrackNumber
  deriving DecidableEq, Repr

/-- How the value of a field is written into a path. -/
inductive Conversion where
  /-- Cleaned for use in a file name. -/
  | text
  /-- In decimal. -/
  | number
  /-- In decimal, with two digits at least. -/
  | zeroPadded
  /-- As it is. -/
  | verbatim
  deriving DecidableEq, Repr

namespace Field

/-- Every field. -/
def all : List Field :=
  [album, albumArtist, artist, bpm, bypass, composer, conductor, dance, disc, genre, rating,
    status, title, trackNumber, paddedTrackNumber]

theorem mem_all (field : Field) : field ∈ all := by
  cases field <;> decide

/-- The name of a field in a template. -/
def name : Field → String
  | album => "ALBUM"
  | albumArtist => "ALBUMARTIST"
  | artist => "ARTIST"
  | bpm => "BPM"
  | bypass => "BYPASS"
  | composer => "COMPOSER"
  | conductor => "CONDUCTOR"
  | dance => "DANCE"
  | disc => "DISC"
  | genre => "GENRE"
  | rating => "RATING"
  | status => "STATUS"
  | title => "TITLE"
  | trackNumber => "TRACKNUMBER"
  | paddedTrackNumber => "TRACKNUMBER0"

/-- The field with a given name. -/
def ofName? (text : String) : Option Field :=
  all.find? (·.name == text)

/-- The tag a field stands for. -/
def tagKey? : Field → Option TagKey
  | album => some .album
  | albumArtist => some .albumArtist
  | artist => some .artist
  | bpm => some .bpm
  | bypass => none
  | composer => some .composer
  | conductor => some .conductor
  | dance => some .dance
  | disc => some .discNumber
  | genre => some .genre
  | rating => some .danceRating
  | status => some .status
  | title => some .title
  | trackNumber | paddedTrackNumber => some .trackNumber

/-- How the value of a field is written. -/
def conversion : Field → Conversion
  | bpm | disc | trackNumber => .number
  | paddedTrackNumber => .zeroPadded
  | bypass => .verbatim
  | _ => .text

/-- Whether the value of a field is written as a number. -/
def isNumeric (field : Field) : Bool :=
  match field.conversion with
  | .number | .zeroPadded => true
  | .text | .verbatim => false

end Field

end SongLibrary.Template
