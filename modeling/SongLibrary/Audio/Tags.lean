/-
  The tags of an audio file, and which of them to write.

  * `ParsedTags` is what reading a file gives;
  * `changedKeys` are the keys whose value in a file is not the desired one, and
    `keysToWrite` those that writing touches.  The duration is never written.
-/
import SongLibrary.Tag

namespace SongLibrary

/-- The tags read from a file. -/
structure ParsedTags where
  tags : TagMap
  /-- Whether the file should have all its tags written again. -/
  needsRewrite : Bool := false
  deriving DecidableEq

/-- Whether a file holds no sound. -/
def ParsedTags.isEmpty (parsed : ParsedTags) : Bool :=
  (parsed.tags.get? .duration).isNone

/-- The keys whose desired value is not the existing one, in order. -/
def changedKeys (desired existing : TagMap) : List TagKey :=
  desired.keys.filter fun key => key != .duration && existing.get? key != desired.get? key

/-- The keys that writing touches: those with a change, or all of them. -/
def keysToWrite (desired existing : TagMap) (full : Bool) : List TagKey :=
  if full then desired.keys.filter (· != .duration) else changedKeys desired existing

end SongLibrary
