/-
  Track lists: what another music program knows about files.

  A `TrackList` holds tags for files by their names, and the keys whose values
  are wanted.  It is read from a JSON export (`TrackList.parse?`): an object
  with the members `import` and `tracks`, each of them optional and written at
  most once, or a list of their values in this order.
-/
import SongLibrary.Tag.Json

namespace SongLibrary

/-- Tags of files by name, and the keys that are wanted. -/
structure TrackList where
  wanted : List TagKey := []
  /-- The files, each name once. -/
  tracks : List (String × TagMap) := []

namespace TrackList

/-- The tags of the file with a given name. -/
def tagsOf? (list : TrackList) (name : String) : Option TagMap :=
  list.tracks.lookup name

/-- Whether the values of a key are wanted. -/
def wants (list : TrackList) (key : TagKey) : Bool :=
  list.wanted.contains key

/-- The number of files. -/
def size (list : TrackList) : Nat :=
  list.tracks.length

/-- The list with the tags of one file replaced. -/
def insert (tracks : List (String × TagMap)) (name : String) (tags : TagMap) :
    List (String × TagMap) :=
  (name, tags) :: tracks.filter (·.1 != name)

/-! ## Reading an export -/

/-- The key that an item of the wanted ones is: its name, or an object with
    that name and no value. -/
def keyOfJson? : Json → Option TagKey
  | .string (some name) => TagKey.ofName? name
  | .object [(some name, .null)] => TagKey.ofName? name
  | _ => none

/-- The wanted keys. -/
def wantedOfJson? : Json → Option (List TagKey)
  | .array items => items.mapM keyOfJson?
  | _ => none

/-- The files; the last of several with one name counts. -/
def tracksOfJson? (j : Json) : Option (List (String × TagMap)) := do
  let files ← (← j.members?).mapM fun (name, tags) =>
    return (← name, ← TagMap.ofJson? tags)
  return files.foldl (fun tracks file => insert tracks file.1 file.2) []

/-- The members of an export with the given name, in order. -/
def membersNamed (members : List (Option String × Json)) (name : String) : List Json :=
  (members.filter (·.1 == some name)).map (·.2)

/-- The only value there is, read, or a default where there is none. -/
def single? {α : Type} (default : α) (read? : Json → Option α) : List Json → Option α
  | [] => some default
  | [j] => read? j
  | _ => none

/-- The track list that an export is. -/
def ofJson? : Json → Option TrackList
  | .object members =>
    if members.any (·.1.isNone) then none
    else do
      return ⟨← single? [] wantedOfJson? (membersNamed members "import"),
        ← single? [] tracksOfJson? (membersNamed members "tracks")⟩
  | .array items =>
    if items.length > 2 then none
    else do
      return ⟨← single? [] wantedOfJson? (items.take 1), ← single? [] tracksOfJson? (items.drop 1)⟩
  | _ => none

/-- The track list that the text of an export is. -/
def parse? (text : String) : Option TrackList :=
  (Json.read? text.toList).bind ofJson?

end TrackList

end SongLibrary
