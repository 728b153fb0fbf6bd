/-
  Tags as JSON: an object whose names are the names of keys and whose values
  are strings.

  `TagMap.json` writes a map, its keys in order; `TagMap.parse?` reads one,
  where the last value of a repeated key counts and any other name or value is
  refused.
-/
import SongLibrary.Json.Parser
import SongLibrary.Json.Printer
import SongLibrary.Tag

namespace SongLibrary.TagMap

/-- A map as a JSON value. -/
def toJson (tags : TagMap) : Json :=
  .record (tags.toList.map fun v => (v.1.name, .text v.2))

/-- A map as JSON text. -/
def json (tags : TagMap) : String :=
  tags.toJson.print

/-- The tag that a member of an object is. -/
def tagOfMember? (member : Option String × Json) : Option (TagKey × String) := do
  return (← TagKey.ofName? (← member.1), ← member.2.text?)

/-- The map that a JSON value is. -/
def ofJson? (j : Json) : Option TagMap := do
  return ofList (← (← j.members?).mapM tagOfMember?)

/-- The map that a JSON text is. -/
def parse? (text : String) : Option TagMap :=
  (Json.parse? text).bind ofJson?

end SongLibrary.TagMap
