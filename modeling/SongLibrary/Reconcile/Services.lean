/-
  What a run asks of the world around it.

  Every question comes with a moment, the number of questions asked before, so
  that the same question may be answered differently each time.  Reading and
  writing tags works on the content of a file; whether a table can be opened,
  read, written or closed is a question too.

  * `Services.forAudio` are the services on audio files;
  * `Services.forRecords` those on files that are records of tags.
-/
import SongLibrary.Audio.Record
import SongLibrary.Itunes
import SongLibrary.Organize

namespace SongLibrary.Reconcile

/-- What a run asks of the world around it. -/
structure Services where
  /-- The tags in the content of a file. -/
  readTags : Nat → Path → Content → Except Failure ParsedTags
  /-- Write desired tags into the content of a file whose tags are given, all of
      them or the changed ones: the number of tags, and the content. -/
  writeTags : Nat → Path → Content → TagMap → TagMap → Bool → Except Failure (Nat × Content)
  /-- The tags that the track list has for a file name. -/
  trackTags? : Nat → String → Option TagMap
  /-- Whether the values of a key are wanted from the track list. -/
  wants : TagKey → Bool
  /-- Move a file to its place. -/
  move : Nat → FileTree → Path → Path → String → FileTree × Except Failure Path :=
    fun _ => organizeFile
  /-- The time. -/
  now : Nat → String
  /-- Whether an operation on a table fails. -/
  tableFails : Nat → Bool := fun _ => false
  /-- Why removing or renaming the file of a table fails, if it does. -/
  fileFault? : Nat → Option Fault := fun _ => none

namespace Services

/-- The services on audio files, with a track list and a clock. -/
def forAudio (tracks : TrackList) (now : Nat → String) : Services where
  readTags _ path content :=
    match content.audioAt? path with
    | some file => .ok file.parsed
    | none => .error (.metadata path.shown "no tags can be read")
  writeTags _ path content desired existing full :=
    match content.audioAt? path with
    | some file =>
      let (written, file) := file.write desired (keysToWrite desired existing full)
      .ok (written, .audio file)
    | none => .error (.metadata path.shown "no tags can be written")
  trackTags? _ name := tracks.tagsOf? name
  wants := tracks.wants
  now := now

/-- The services on files that are records of tags, with a track list and a
    clock. -/
def forRecords (tracks : TrackList) (now : Nat → String) : Services where
  readTags _ path content :=
    match content with
    | .text record => match TagRecord.parse? record with
      | some parsed => .ok parsed
      | none => .error (.metadata path.shown "no tags can be read")
    | _ => .error (.metadata path.shown "no tags can be read")
  writeTags _ path content desired existing full :=
    let keys := keysToWrite desired existing full
    match content with
    | .text record => match TagRecord.write? record desired keys with
      | some written => .ok (keys.length, .text written)
      | none => .error (.metadata path.shown "no tags can be written")
    | _ => .error (.metadata path.shown "no tags can be written")
  trackTags? _ name := tracks.tagsOf? name
  wants := tracks.wants
  now := now

end Services

end SongLibrary.Reconcile
