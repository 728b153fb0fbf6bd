/-
  Tables in files.

  A table is opened where its file is; a file that is not there or empty
  becomes that of an empty table, and any other file is none.  A table goes back
  into the file it came from (`FileTree.keepTable`): if another file has taken
  its place since, that one is left alone.

  The path of a table leads to a location in a way of its own
  (`FileTree.tableLocation?`): `..` takes back the part before it, whether or not
  that is there.
-/
import SongLibrary.FileTree.Change

namespace SongLibrary.FileTree

variable (t : FileTree)

/-! ## Where tables are -/

/-- The greatest number of bytes of the path of a table. -/
def maxTablePathBytes : Nat := 504

/-- The greatest number of bytes of a path on the way to a table. -/
def maxWayBytes : Nat := 511

/-- What is added to the name of a table while it is written. -/
def journalSuffix : String := "-journal"

/-- The number of bytes of the path that leads to a location. -/
def locationBytes (l : Location) : Nat :=
  l.foldl (fun count name => count + (name.bytes.length + 1)) 0

/-- Whether a location is there, or could be. -/
def isFree (l : Location) : Bool :=
  match t.locate (.ofParts ([] :: l)) with
  | .ok _ | .error .notFound => true
  | .error _ => false

/-- The location that a part of the path of a table leads to. -/
def enterForTable? (l : Location) (part : Name) : Option Location :=
  if part.isSilent then some l
  else if part = Name.up then some l.dropLast
  else
    let next := l ++ [part]
    if locationBytes next > maxWayBytes || !t.isFree next then none else some next

/-- The location that the path of a table leads to. -/
def tableLocation? (p : Path) : Option Location := do
  let text ← Text.textOf? p.symbols
  let start := if p.isAbsolute then [] else t.workingDir
  let l ← (start ++ p.parts).foldlM t.enterForTable? []
  if text.contains '\x00' || l.isEmpty || locationBytes l > maxTablePathBytes then none
  else return l

/-- Whether a path stands for a table without a file. -/
def isFileless (p : Path) : Bool :=
  p = .ofString "" || p = .ofString ":memory:"

/-! ## Opening and saving -/

/-- The table in a file. -/
def readTable? (p : Path) : Option SongTable :=
  match t.read p with
  | .ok (.songs table) => some table
  | _ => none

/-- The tree with a file for a new table, and the table.  Where its name leaves
    no room for the suffix, there is no table and the file stays empty. -/
def createTable (l : Location) : FileTree × Option SongTable :=
  let name := (l.getLast?.getD []).bytes
  if t.get? l.dropLast != some .directory then (t, none)
  else if name.length + journalSuffix.utf8ByteSize > 255 then (t.put l (.file (.text "")), none)
  else (t.put l (.file (.songs .empty)), some .empty)

/-- Open the table in a file, which is created if it is not there. -/
def openTable (p : Path) : FileTree × Option SongTable :=
  if isFileless p then (t, some .empty)
  else
    match t.tableLocation? p with
    | none => (t, none)
    | some l =>
      match t.get? l with
      | some (.file (.songs table)) => (t, some table)
      | some (.file (.text "")) | none => t.createTable l
      | some _ => (t, none)

/-- The location of the file of a table, if it has one. -/
def tableFile? (p : Path) : Option Location :=
  if isFileless p then none else t.tableLocation? p

/-- The tree with a table in the file of a table at a location, if it is still
    there. -/
def keepTable (l : Location) (table : SongTable) : FileTree :=
  match t.get? l with
  | some (.file (.songs _)) => t.put l (.file (.songs table))
  | _ => t

/-- The tree with a table in a file. -/
def saveTable (p : Path) (table : SongTable) : FileTree :=
  match t.tableFile? p with
  | some l => t.keepTable l table
  | none => t

end SongLibrary.FileTree
