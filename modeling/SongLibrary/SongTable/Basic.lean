/-
  The table of songs.

  A row holds the fields of a song, its tags as JSON text.  Rows are kept in
  the order of their ids, which are signed 64-bit words and are not repeated
  (`SongTable.sorted`); the locations of songs may be.

  * `SongTable.insert?` adds a song, under its id or, if it has none, under the
    next one, which is above all ids and at least one;
  * `SongTable.update` replaces the row with a song's id, and
    `SongTable.save?` does that or adds the song;
  * `SongTable.songAt?` finds the song with the lowest id at a location.
-/
import SongLibrary.Song
import SongLibrary.Tag.Json

namespace SongLibrary

/-- A row of the table. -/
structure Row where
  id : Int64
  uri : String
  /-- The tags as JSON text. -/
  tags : String
  dateAdded : String
  prefixLength : Int64
  preventRename : Bool
  deriving DecidableEq

/-- The song of a row.  Tags that cannot be read are none. -/
def Row.song (row : Row) : Song :=
  ⟨some row.id, row.uri, (TagMap.parse? row.tags).getD .empty, row.dateAdded, row.prefixLength,
    row.preventRename⟩

/-- The row of a song with a given id. -/
def Song.row (song : Song) (id : Int64) : Row :=
  ⟨id, song.uri, song.tags.json, song.dateAdded, song.prefixLength, song.preventRename⟩

/-- The rows in order, with one more in its place. -/
def placeRow (row : Row) : List Row → List Row
  | [] => [row]
  | r :: rest => if row.id < r.id then row :: r :: rest else r :: placeRow row rest

theorem mem_placeRow {row r : Row} {rows : List Row} :
    r ∈ placeRow row rows ↔ r = row ∨ r ∈ rows := by
  induction rows with
  | nil => simp [placeRow]
  | cons s rest ih =>
    simp only [placeRow]
    split
    · simp
    · simp only [List.mem_cons, ih]
      constructor
      · rintro (h | h | h) <;> simp [h]
      · rintro (h | h | h) <;> simp [h]

theorem pairwise_placeRow {row : Row} {rows : List Row} (h : rows.Pairwise (·.id < ·.id))
    (hrow : ∀ r ∈ rows, r.id ≠ row.id) : (placeRow row rows).Pairwise (·.id < ·.id) := by
  induction rows with
  | nil => simp [placeRow]
  | cons s rest ih =>
    rw [List.pairwise_cons] at h
    simp only [placeRow]
    split
    · next hlt =>
      refine List.pairwise_cons.2 ⟨fun r hr => ?_, List.pairwise_cons.2 h⟩
      rcases List.mem_cons.1 hr with rfl | hr
      · exact hlt
      · exact Int64.lt_trans hlt (h.1 r hr)
    · next hge =>
      refine List.pairwise_cons.2 ⟨fun r hr => ?_, ih h.2 fun r hr => hrow r (by simp [hr])⟩
      rcases mem_placeRow.1 hr with rfl | hr
      · exact Int64.lt_of_le_of_ne (Int64.not_lt.1 hge) (hrow s (by simp))
      · exact h.1 r hr

/-- The table of songs. -/
structure SongTable where
  rows : List Row
  sorted : rows.Pairwise (·.id < ·.id)

namespace SongTable

/-- The table without songs. -/
def empty : SongTable := ⟨[], .nil⟩

instance : Inhabited SongTable := ⟨empty⟩

instance : DecidableEq SongTable := fun a b =>
  decidable_of_iff (a.rows = b.rows) ⟨fun h => by cases a; cases b; cases h; rfl, fun h => h ▸ rfl⟩

variable (t : SongTable)

/-- The number of songs. -/
def size : Nat := t.rows.length

/-- The songs, in the order of their ids. -/
def songs : List Song := t.rows.map Row.song

/-- Whether a row has a given id. -/
def hasId (id : Int64) : Bool := t.rows.any (·.id == id)

/-- The greatest id, `0` when there is none. -/
def maxId : Int64 := (t.rows.getLast?.map (·.id)).getD 0

/-- The song with the lowest id at a location. -/
def songAt? (uri : String) : Option Song :=
  (t.rows.find? (·.uri == uri)).map Row.song

/-- The id of the next song that has none: above all ids and at least one. -/
def nextId? : Option Int64 :=
  let largest := max t.maxId 0
  if largest = Int64.maxValue then none else some (largest + 1)

/-- The table with one more row, if its id is not in use. -/
def insertRow? (row : Row) : Option SongTable :=
  if h : ∀ r ∈ t.rows, r.id ≠ row.id then some ⟨placeRow row t.rows, pairwise_placeRow t.sorted h⟩
  else none

/-- Add a song with its tags given as text: its id, and the table with it. -/
def insertWithTags? (song : Song) (tags : String) : Option (Int64 × SongTable) := do
  let id ← song.id <|> t.nextId?
  return (id, ← t.insertRow? { song.row id with tags })

/-- Add a song: its id, and the table with it. -/
def insert? (song : Song) : Option (Int64 × SongTable) :=
  t.insertWithTags? song song.tags.json

/-- The row of a song in place of the row with its id. -/
def replaceRow (row : Row) (id : Int64) (song : Song) : Row :=
  if row.id = id then song.row id else row

theorem replaceRow_id (row : Row) (id : Int64) (song : Song) :
    (replaceRow row id song).id = row.id := by
  unfold replaceRow; split <;> simp_all [Song.row]

/-- Replace the row with a song's id: the number of rows replaced, and the
    table. -/
def update (song : Song) : Nat × SongTable :=
  match song.id with
  | none => (0, t)
  | some id =>
    (if t.hasId id then 1 else 0,
      ⟨t.rows.map (replaceRow · id song), by
        simpa [List.pairwise_map, replaceRow_id] using t.sorted⟩)

/-- How a song was saved. -/
inductive Saved where
  | inserted (id : Int64)
  | updated (id : Int64)
  deriving DecidableEq

/-- Replace the row with a song's id, or add the song if there is none. -/
def save? (song : Song) : Option (Saved × SongTable) :=
  match song.id with
  | some id =>
    if t.hasId id then some (.updated id, (t.update song).2)
    else (t.insert? song).map fun (id, t) => (.inserted id, t)
  | none => (t.insert? song).map fun (id, t) => (.inserted id, t)

end SongTable

end SongLibrary
