/-
  The comments of an audio file.

  A comment is written as its name, an equals sign and its value
  (`Comment.text`); `Comment.ofText?` reads one.  `TagKey.isNamed` tells which
  comments are for a key.  The tags that only this library knows
  (`TagKey.isOwn`) have comments of exactly one name; for all others its case
  does not matter, and some have a second name.
-/
import SongLibrary.Tag
import SongLibrary.Text.Lowercase

namespace SongLibrary

/-- A comment of an audio file. -/
structure Comment where
  name : String
  value : String
  deriving DecidableEq, Repr

namespace Comment

/-- Whether a character may be part of the name of a comment. -/
def isNameChar (c : Char) : Bool :=
  ' ' ≤ c && c ≤ '}' && c != '='

/-- The comment as it is written. -/
def text (c : Comment) : String :=
  c.name ++ "=" ++ c.value

/-- The comment that a text is, if it has a name and a value. -/
def ofText? (text : String) : Option Comment :=
  let name := text.toList.takeWhile (· != '=')
  match text.toList.dropWhile (· != '=') with
  | _ :: value => if name.all isNameChar then some ⟨.ofList name, .ofList value⟩ else none
  | [] => none

/-- **A comment is read as it was written.** -/
theorem ofText?_text {c : Comment} (h : c.name.toList.all isNameChar) :
    ofText? c.text = some c := by
  have hp : ∀ a ∈ c.name.toList, (a != '=') = true := by
    simp only [List.all_eq_true, isNameChar, Bool.and_eq_true] at h
    exact fun a ha => (h a ha).2
  have ht : c.text.toList = c.name.toList ++ '=' :: c.value.toList := by simp [text]
  simp [ofText?, ht, List.takeWhile_append_of_pos hp, List.dropWhile_append_of_pos hp, h]

end Comment

namespace TagKey

/-- The name of the comments for a key. -/
def commentName? : TagKey → Option String
  | album => some "ALBUM"
  | albumArtist => some "ALBUMARTIST"
  | artist => some "ARTIST"
  | bpm => some "BPM"
  | composer => some "COMPOSER"
  | conductor => some "CONDUCTOR"
  | dance => some "DANCE"
  | danceLevel => some "DANCELEVEL"
  | danceRating => some "DANCERATING"
  | discNumber => some "DISCNUMBER"
  | discTotal => some "DISCTOTAL"
  | duration => none
  | genre => some "GENRE"
  | status => some "STATUS"
  | title => some "TITLE"
  | trackNumber => some "TRACKNUMBER"
  | trackTotal => some "TRACKTOTAL"

/-- The second name of the comments for a key. -/
def otherCommentName? : TagKey → Option String
  | discTotal => some "TOTALDISCS"
  | trackTotal => some "TOTALTRACKS"
  | _ => none

/-- Whether a key is for comments that only this library knows. -/
def isOwn : TagKey → Bool
  | dance | danceLevel | danceRating | status => true
  | _ => false

/-- Whether a comment with a given name is for a key. -/
def isNamed (key : TagKey) (name : String) : Bool :=
  if key.isOwn then key.commentName? == some name
  else key.commentName?.any (Text.asciiEqual name) ||
    key.otherCommentName?.any (Text.asciiEqual name)

end TagKey

/-- The comment under the first name of its key, if it is for one. -/
def Comment.canonical (c : Comment) : Comment :=
  { c with name := ((TagKey.all.find? (·.isNamed c.name)).bind TagKey.commentName?).getD c.name }

end SongLibrary
