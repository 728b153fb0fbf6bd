/-
  Audio files whose tags are comments.

  * `AudioFile.tags` reads the tags: a tag is the first comment for its key,
    blanks around it aside, unless that is empty; the duration comes from the
    length of the sound;
  * `AudioFile.write` writes tags, and leaves out the comments without a value.
    The tags that only this library knows can be removed but not set.
-/
import SongLibrary.Audio.Comment
import SongLibrary.Audio.Tags
import SongLibrary.Text.Trim

namespace SongLibrary

/-- An audio file: its comments as they are written, the number of its samples
    and how many of them make a second. -/
structure AudioFile where
  comments : List String := []
  samples : Nat := 44100
  rate : Nat := 44100
  deriving DecidableEq, Repr

namespace AudioFile

/-! ## Reading comments -/

/-- The number a text is: digits, with a plus sign or without, below `2 ^ 32`. -/
def wordNumber? (text : List Char) : Option Nat :=
  let digits := match text with
    | '+' :: rest => rest
    | text => text
  let n := digits.foldl (fun n c => n * 10 + (c.toNat - '0'.toNat)) 0
  if digits.isEmpty || !digits.all Char.isDigit || n ≥ Nat.pow 2 32 then none else some n

/-- The number and the total of a track number such as `3/12`. -/
def trackNumbers (value : String) : Option Nat × Option Nat :=
  match value.toList.span (· != '/') with
  | (number, []) => (wordNumber? number, none)
  | (number, _ :: total) => (wordNumber? number, wordNumber? total)

/-- The comments with a number under a name, in place of all others of that
    name. -/
def setNumber (name : String) (n : Nat) (comments : List Comment) : List Comment :=
  comments.filter (!Text.asciiEqual ·.name name) ++ [⟨name, toString n⟩]

/-- The comments without those of a name.  For each of them, the first of those
    before it that stay goes behind the others. -/
def dropNamed (name : String) (comments : List Comment) : List Comment :=
  comments.foldl (fun kept c =>
    if Text.asciiEqual c.name name then kept.rotateLeft 1 else kept ++ [c]) []

/-- Add a comment.  A track number that is one, or that has a total, becomes a
    comment for each. -/
def addComment (comments : List Comment) (c : Comment) : List Comment :=
  if Text.asciiEqual c.name "TRACKNUMBER" then
    let (number, total) := trackNumbers c.value
    let comments := match number with
      | some n => setNumber "TRACKNUMBER" n comments
      | none => comments ++ [c]
    match total with
    | some n => dropNamed "TOTALTRACKS" (setNumber "TRACKTOTAL" n comments)
    | none => comments
  else comments ++ [c]

/-- The comments as they are read. -/
def readComments (file : AudioFile) : List Comment :=
  (file.comments.filterMap Comment.ofText?).foldl addComment []

/-! ## Reading tags -/

/-- The value of the first comment for a key, if it is not blank. -/
def commentFor? (comments : List Comment) (key : TagKey) : Option String :=
  ((comments.find? (key.isNamed ·.name)).map fun c =>
    String.ofList (Text.trim c.value.toList)).filter (!·.isEmpty)

/-- The length of the sound in milliseconds. -/
def duration (file : AudioFile) : Nat :=
  file.samples * 1000 / file.rate

/-- The tags of a file. -/
def tags (file : AudioFile) : TagMap :=
  let comments := file.readComments
  ⟨fun key =>
    if key = .duration then
      if file.duration = 0 then none else some (toString file.duration)
    else commentFor? comments key⟩

/-- What reading a file gives. -/
def parsed (file : AudioFile) : ParsedTags :=
  ⟨TagMap.ofList file.tags.toList, false⟩

/-! ## Writing tags -/

/-- The comments without those for a key. -/
def without (key : TagKey) (comments : List Comment) : List Comment :=
  comments.filter (!key.isNamed ·.name)

/-- The comments after the value of one key is written. -/
def writeComment (desired : TagMap) (comments : List Comment) (key : TagKey) : List Comment :=
  let value := (desired.get? key).getD ""
  if value.isEmpty then without key comments
  else if key.isOwn then comments
  else without key comments ++ [⟨key.commentName?.getD "", value⟩]

/-- The texts of the comments that have a name and a value. -/
def commentTexts (comments : List Comment) : List String :=
  (comments.filter fun c => !c.name.isEmpty && !c.value.isEmpty).map (·.canonical.text)

/-- Write the values of some keys: the number of keys, and the file. -/
def write (file : AudioFile) (desired : TagMap) (keys : List TagKey) : Nat × AudioFile :=
  if keys.isEmpty then (0, file)
  else
    let comments := keys.foldl (writeComment desired) file.readComments
    (keys.length, { file with comments := commentTexts comments })

end AudioFile

end SongLibrary
