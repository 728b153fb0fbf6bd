/-
  Tags: the named values kept about a song.

  * `TagKey` are the keys there are, `TagKey.all` lists them in alphabetical
    order, and `TagKey.ofName?` finds one by its name;
  * `TagMap` assigns values to some of them.  Two maps with the same values
    are equal (`TagMap.ext`), so that maps can be compared.
-/

namespace SongLibrary

/-- The key of a tag. -/
inductive TagKey where
  | album
  | albumArtist
  | artist
  | bpm
  | composer
  | conductor
  | dance
  | danceLevel
  | danceRating
  | discNumber
  | discTotal
  /-- Length in milliseconds.  A file without it holds no sound. -/
  | duration
  | genre
  | status
  | title
  | trackNumber
  | trackTotal
  deriving DecidableEq, Repr

namespace TagKey

/-- Every key, in the order of the names. -/
def all : List TagKey :=
  [album, albumArtist, artist, bpm, composer, conductor, dance, danceLevel, danceRating,
    discNumber, discTotal, duration, genre, status, title, trackNumber, trackTotal]

theorem mem_all (key : TagKey) : key ∈ all := by
  cases key <;> decide

/-- The name of a key. -/
def name : TagKey → String
  | album => "album"
  | albumArtist => "album_artist"
  | artist => "artist"
  | bpm => "bpm"
  | composer => "composer"
  | conductor => "conductor"
  | dance => "dance"
  | danceLevel => "dance_level"
  | danceRating => "dance_rating"
  | discNumber => "disc_number"
  | discTotal => "disc_total"
  | duration => "duration"
  | genre => "genre"
  | status => "status"
  | title => "title"
  | trackNumber => "track_number"
  | trackTotal => "track_total"

/-- The key with a given name. -/
def ofName? (text : String) : Option TagKey :=
  all.find? (·.name == text)

/-- Whether the values of a key are numbers. -/
def isNumeric : TagKey → Bool
  | bpm | discNumber | discTotal | duration | trackNumber | trackTotal => true
  | _ => false

end TagKey

/-- Values for some of the keys. -/
structure TagMap where
  get? : TagKey → Option String

namespace TagMap

@[ext] theorem ext {a b : TagMap} (h : ∀ key, a.get? key = b.get? key) : a = b := by
  cases a; cases b; congr; exact funext h

/-- The map without values. -/
def empty : TagMap := ⟨fun _ => none⟩

instance : Inhabited TagMap := ⟨empty⟩

/-- The map with the value of one key replaced. -/
def set (m : TagMap) (key : TagKey) (value : String) : TagMap :=
  ⟨fun k => if k = key then some value else m.get? k⟩

/-- The map without a value for one key. -/
def erase (m : TagMap) (key : TagKey) : TagMap :=
  ⟨fun k => if k = key then none else m.get? k⟩

/-- The keys with a value, in the order of the names. -/
def keys (m : TagMap) : List TagKey :=
  TagKey.all.filter fun key => (m.get? key).isSome

/-- The keys with their values, in the order of the names. -/
def toList (m : TagMap) : List (TagKey × String) :=
  TagKey.all.filterMap fun key => (m.get? key).map (key, ·)

/-- The map with the given values; the last of several for one key counts. -/
def ofList (values : List (TagKey × String)) : TagMap :=
  values.foldl (fun m v => m.set v.1 v.2) empty

theorem eq_iff {a b : TagMap} : a = b ↔ ∀ key ∈ TagKey.all, a.get? key = b.get? key :=
  ⟨fun h _ _ => h ▸ rfl, fun h => ext fun key => h key (TagKey.mem_all key)⟩

instance : DecidableEq TagMap := fun _ _ => decidable_of_iff' _ eq_iff

@[simp] theorem get?_set (m : TagMap) (key k : TagKey) (value : String) :
    (m.set key value).get? k = if k = key then some value else m.get? k := rfl

@[simp] theorem get?_erase (m : TagMap) (key k : TagKey) :
    (m.erase key).get? k = if k = key then none else m.get? k := rfl

@[simp] theorem get?_empty (k : TagKey) : empty.get? k = none := rfl

end TagMap

end SongLibrary
