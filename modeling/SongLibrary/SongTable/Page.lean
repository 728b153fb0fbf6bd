/-
  Visiting the songs of a table a page at a time.

  Songs are visited by location and then id, where locations have the order of
  their characters, or by id.  A `SongTable.Visit` keeps the songs of the page
  at hand and the place it ends; it sees changes of the table from the next page
  on, and ends at the first page that is not full.
-/
import SongLibrary.SongTable.Basic

namespace SongLibrary.SongTable

/-- The order in which the songs of a table are visited. -/
inductive Order where
  /-- By location, then by id. -/
  | byLocation
  /-- By id. -/
  | byId
  deriving DecidableEq, Repr

/-- The place of a song in the order of locations. -/
structure Cursor where
  uri : String := ""
  id : Int64 := 0
  deriving DecidableEq

/-- The place of a song. -/
def Cursor.of (song : Song) : Cursor :=
  ⟨song.uri, song.id.getD 0⟩

/-- Whether a row comes after a place. -/
def Cursor.isBefore (cursor : Cursor) (row : Row) : Bool :=
  cursor.uri < row.uri || (cursor.uri == row.uri && cursor.id < row.id)

variable (t : SongTable)

/-- The rows by location and then id. -/
def rowsByLocation : List Row :=
  t.rows.mergeSort fun a b => !(b.uri < a.uri)

/-- The songs by location and then id. -/
def songsByLocation : List Song :=
  t.rowsByLocation.map Row.song

/-- The first songs after a place, by location and then id. -/
def pageAfter (cursor : Cursor) (limit : Nat) : List Song :=
  ((t.rowsByLocation.filter cursor.isBefore).take limit).map Row.song

/-- The first songs with greater ids, by id. -/
def pageAfterId (id : Int64) (limit : Nat) : List Song :=
  ((t.rows.filter (id < ·.id)).take limit).map Row.song

/-- A visit of the songs of a table. -/
structure Visit where
  order : Order
  /-- The place the last page ended. -/
  cursor : Cursor := {}
  /-- The songs of the page at hand that have not been visited. -/
  page : List Song := []
  pageSize : Nat
  /-- Whether the last page was the end. -/
  exhausted : Bool := false
  /-- The number of songs when the visit began. -/
  total : Nat

/-- Begin a visit. -/
def visit (order : Order) (pageSize : Nat) : Visit :=
  { order, pageSize := max pageSize 1, total := t.size }

namespace Visit

/-- Whether the next song needs a page of the table. -/
def needsPage (v : Visit) : Bool :=
  v.page.isEmpty && !v.exhausted

/-- The visit with the next page at hand. -/
def fetch (v : Visit) (t : SongTable) : Visit :=
  let page := match v.order with
    | .byLocation => t.pageAfter v.cursor v.pageSize
    | .byId => t.pageAfterId v.cursor.id v.pageSize
  { v with
    page
    cursor := (page.getLast?.map Cursor.of).getD v.cursor
    exhausted := page.length < v.pageSize }

/-- The next song, if there is one. -/
def next (v : Visit) (t : SongTable) : Option Song × Visit :=
  let v := if v.needsPage then v.fetch t else v
  match v.page with
  | [] => (none, v)
  | song :: rest => (some song, { v with page := rest })

/-- All songs still to come, at most `bound` of them, from a table that does not
    change. -/
def take (t : SongTable) : Nat → Visit → List Song
  | 0, _ => []
  | bound + 1, v => match v.next t with
    | (none, _) => []
    | (some song, v) => song :: take t bound v

end Visit

end SongLibrary.SongTable
