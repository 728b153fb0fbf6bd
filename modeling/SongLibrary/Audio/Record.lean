/-
  Files that are records of tags.

  Such a file is JSON text: an object with the member `tags` and, if it should
  have its tags written again, `needs_rewrite`; with `write_error` it cannot be
  written.  It stands in for an audio file where only the tags matter.
-/
import SongLibrary.Audio.Tags
import SongLibrary.Tag.Json

namespace SongLibrary.TagRecord

/-- Whether a record has a member that is true. -/
def hasFlag (record : Json) (name : String) : Bool :=
  ((record.member? name).bind Json.bool?).getD false

/-- The tags of a record.  Of several values for one name the last counts. -/
def tagsOf? (record : Json) : Option TagMap := do
  TagMap.ofJson? (← record.member? "tags").withoutRepeats

/-- What reading the text of a record gives. -/
def parse? (text : String) : Option ParsedTags := do
  let record ← Json.parse? text
  return ⟨← tagsOf? record, hasFlag record "needs_rewrite"⟩

/-- The tags after the values of some keys are written; an empty value removes
    its key. -/
def writeTags (tags desired : TagMap) (keys : List TagKey) : TagMap :=
  keys.foldl (fun tags key =>
    match desired.get? key with
    | some value => if value.isEmpty then tags.erase key else tags.set key value
    | none => tags) tags

/-- Write the values of some keys into the text of a record. -/
def write? (text : String) (desired : TagMap) (keys : List TagKey) : Option String := do
  let record ← Json.parse? text
  let tags ← tagsOf? record
  if hasFlag record "write_error" then none
  else if keys.isEmpty then return text
  else
    let written := record.setMember "tags" (writeTags tags desired keys).toJson
    return (written.setMember "needs_rewrite" (.bool false)).print

end SongLibrary.TagRecord
