/-
  TOML values.

  A table remembers how it was written (`TableKind`), since that decides what may
  still be added to it:

  * `Toml.alter` changes the table that a path of keys leads to, and creates the
    tables on the way;
  * `Toml.insertAt`, `Toml.openTable` and `Toml.openItem` do what an entry, the
    header of a table and the header of an item ask for.
-/

namespace SongLibrary

/-- How a table was written. -/
inductive TableKind where
  /-- Between braces: nothing can be added. -/
  | inline
  /-- Under a header of its own, or it is the whole text. -/
  | headed
  /-- By the header of a table in it. -/
  | implied
  /-- By dots in the key of an entry. -/
  | dotted
  deriving DecidableEq, Repr

/-- A TOML value. -/
inductive Toml where
  | string (text : String)
  | integer (n : Int)
  /-- A number that is no integer, as it is written. -/
  | float (literal : String)
  | boolean (b : Bool)
  /-- A date, a time or both, as it is written. -/
  | date (literal : String)
  | array (items : List Toml)
  | table (kind : TableKind) (entries : List (String × Toml))
  /-- The tables that headers in double brackets give, the last of which is
      open. -/
  | tables (items : List (List (String × Toml)))

namespace Toml

/-- The entries of a table, each key once. -/
abbrev Entries := List (String × Toml)

/-- The entries with the value of a key replaced. -/
def Entries.replace (entries : Entries) (key : String) (value : Toml) : Entries :=
  entries.map fun e => if e.1 == key then (key, value) else e

/-- The entries with a key that is not there yet. -/
def Entries.add? (entries : Entries) (key : String) (value : Toml) : Option Entries :=
  if entries.any (·.1 == key) then none else some (entries ++ [(key, value)])

/-- Change the table that keys lead to from another, given with its kind.
    Tables that are not there are created, of the kind `new`.  Keys with dots do
    not lead into tables under headers. -/
def alter (new : TableKind) (change : TableKind → Entries → Option Entries) :
    List String → TableKind → Entries → Option Entries
  | [], kind, entries => change kind entries
  | key :: keys, _, entries =>
    match entries.lookup key with
    | none => (alter new change keys new []).map fun inner => entries ++ [(key, .table new inner)]
    | some (.table kind inner) =>
      if kind = .inline ∨ (new = .dotted ∧ kind = .headed) then none
      else (alter new change keys kind inner).map fun inner =>
        entries.replace key (.table kind inner)
    | some (.tables items) =>
      match items.getLast? with
      | none => none
      | some inner => (alter new change keys .headed inner).map fun inner =>
        entries.replace key (.tables (items.dropLast ++ [inner]))
    | some _ => none

/-- Add an entry with the key `path` and then `key`.  The table that it goes into
    has to be the given one, or one that dots in keys created. -/
def insertAt (path : List String) (key : String) (value : Toml) (kind : TableKind)
    (entries : Entries) : Option Entries :=
  alter .dotted (fun kind entries =>
    if kind = .dotted ↔ path = [] then none else entries.add? key value) path kind entries

/-- Open the table of a header.  It has not been opened before, and no entry
    created it. -/
def openTable (path : List String) (key : String) (root : Entries) : Option Entries :=
  alter .implied (fun _ entries =>
    match entries.lookup key with
    | none => some (entries ++ [(key, .table .headed [])])
    | some (.table .implied inner) => some (entries.replace key (.table .headed inner))
    | some _ => none) path .headed root

/-- Open another item of the tables that a header in double brackets names. -/
def openItem (path : List String) (key : String) (root : Entries) : Option Entries :=
  alter .implied (fun _ entries =>
    match entries.lookup key with
    | none => some (entries ++ [(key, .tables [[]])])
    | some (.tables items) => some (entries.replace key (.tables (items ++ [[]])))
    | some _ => none) path .headed root

end Toml

end SongLibrary
