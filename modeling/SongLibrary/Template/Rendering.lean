/-
  Writing the path of a song.

  `Template.render` writes a song into a template.  A group is written if one
  of its placeholders has a value, or if it has none; the extension of the
  song's file follows.

  What a placeholder stands for (`Template.value`) is mostly the tag of its
  field, with these rules: the artist is left out where it repeats the album
  artist the template mentions; the album artist is the artist where there is
  none; composer and conductor count for classical genres only, and a composer
  who is the artist is left out; a number is written if it is positive, and
  that of a disc only if there are several.
-/
import SongLibrary.Reference
import SongLibrary.Sanitizer
import SongLibrary.Song
import SongLibrary.Template.Basic

namespace SongLibrary.Template

variable (t : Template) (refs : ReferenceData) (song : Song) (bypass : Option String)

/-- The song's artist. -/
def artistOf : String :=
  (song.get? .artist).getD ""

/-- The song's album artist, or else its artist. -/
def albumArtistOf : String :=
  (song.get? .albumArtist).getD (artistOf song)

/-- Whether the song's genre is a classical one. -/
def isClassical : Bool :=
  (song.get? .genre).any refs.isClassical

/-- The artist, unless the template tells the song by an album artist of the
    same name. -/
def artistValue : String :=
  if t.mentions .albumArtist && !(albumArtistOf song).isEmpty &&
      artistOf song == albumArtistOf song then ""
  else artistOf song

/-- The value of a tag of classical songs. -/
def classicalValue (key : TagKey) : String :=
  if isClassical refs song then (song.get? key).getD "" else ""

/-- The composer of a classical song, unless that is the artist. -/
def composerValue : String :=
  let composer := classicalValue refs song .composer
  if composer == albumArtistOf song || composer == artistOf song then "" else composer

/-- A number in decimal, with two digits at least where it is padded. -/
def writeNumber (conversion : Conversion) (n : Nat) : String :=
  if conversion = .zeroPadded ∧ n < 10 then "0" ++ toString n else toString n

/-- The number of a tag, if it is positive. -/
def numberValue (conversion : Conversion) (key : TagKey) : String :=
  if song.number key = 0 then "" else writeNumber conversion (song.number key)

/-- What a field stands for, empty if nothing. -/
def value (field : Field) : String :=
  match field with
  | .trackNumber | .paddedTrackNumber => numberValue song field.conversion .trackNumber
  | .bpm => numberValue song field.conversion .bpm
  | .disc =>
    if song.number .discTotal ≤ 1 then "" else numberValue song field.conversion .discNumber
  | .bypass => bypass.getD ""
  | .artist => artistValue t song
  | .albumArtist => albumArtistOf song
  | .composer => composerValue refs song
  | .conductor => classicalValue refs song .conductor
  | .album => (song.get? .album).getD ""
  | .dance => (song.get? .dance).getD ""
  | .genre => (song.get? .genre).getD ""
  | .rating => (song.get? .danceRating).getD ""
  | .status => (song.get? .status).getD ""
  | .title => (song.get? .title).getD ""

variable (s : Sanitizer)

/-- What is written for a field: text is cleaned. -/
def rendered (field : Field) : List Char :=
  let text := (t.value refs song bypass field).toList
  match field.conversion with
  | .text => s.clean text
  | .number | .zeroPadded | .verbatim => text

/-- What is written for a segment. -/
def renderSegment : Segment → List Char
  | .literal text => text
  | .placeholder p => t.rendered refs song bypass s p.field

/-- Whether a group is written: one of its placeholders has a value, or there
    is none. -/
def isWritten (g : Group) : Bool :=
  g.placeholders.isEmpty ||
    g.placeholders.any fun p => !(t.rendered refs song bypass s p.field).isEmpty

/-- What is written for a group. -/
def renderGroup (g : Group) : List Char :=
  if t.isWritten refs song bypass s g then
    g.segments.flatMap (t.renderSegment refs song bypass s)
  else []

/-- What is written for the groups of a template. -/
def renderGroups : List Char :=
  t.groups.flatMap (t.renderGroup refs song bypass s)

/-- The extension of the song's file with its dot. -/
def renderExtension : List Char :=
  match song.extension? with
  | some ext => '.' :: ext.toList
  | none => []

/-- The path of a song, relative to the music directory. -/
def render : String :=
  String.ofList (t.renderGroups refs song bypass s ++ renderExtension song)

end SongLibrary.Template
