/-
  The modes of a reconciliation run: what it does, and where its candidates
  come from.
-/
import SongLibrary.Failure
import SongLibrary.SongTable.Page

namespace SongLibrary.Reconcile

/-- What a run does. -/
inductive Mode where
  /-- Read every file into a new table. -/
  | rebuild
  /-- Add the files that are not in the table. -/
  | checkNew
  /-- Copy the table into a new one, without records that are duplicates or
      whose file is missing; or, with `checkNew`, the records of the files there
      are, adding those that have none. -/
  | compact (checkNew : Bool)
  /-- Read the tags of every file in the table again. -/
  | updateTags
  /-- Copy the fields of a track list into the table. -/
  | updateItunes
  /-- Write the tags of the table into the files. -/
  | writeTags
  /-- Move every file to its place. -/
  | reorganize
  deriving DecidableEq, Repr

/-- Where the candidates of a run come from. -/
inductive Origin where
  | fileTree
  | table (order : SongTable.Order)
  deriving DecidableEq, Repr

namespace Mode

/-- Whether a run writes a new table that replaces the old one. -/
def isDestructive : Mode → Bool
  | rebuild | compact _ => true
  | checkNew | updateTags | updateItunes | writeTags | reorganize => false

/-- Where the candidates of a run come from. -/
def origin : Mode → Origin
  | rebuild | checkNew | compact true => .fileTree
  | compact false => .table .byLocation
  | updateTags | updateItunes | writeTags | reorganize => .table .byId

/-- Whether a run may move the files it adds. -/
def allowsMoves : Mode → Bool
  | rebuild | checkNew => true
  | compact _ | updateTags | updateItunes | writeTags | reorganize => false

/-- Every mode. -/
def all : List Mode :=
  [rebuild, checkNew, compact false, compact true, updateTags, updateItunes, writeTags, reorganize]

theorem mem_all (mode : Mode) : mode ∈ all := by
  rcases mode with _ | _ | ⟨_ | _⟩ | _ | _ | _ | _ <;> decide

/-- The name of a mode. -/
def name : Mode → String
  | rebuild => "rebuild"
  | checkNew => "check-new"
  | compact false => "compact"
  | compact true => "compact+check-new"
  | updateTags => "update-tags"
  | updateItunes => "update-itunes"
  | writeTags => "write-tags"
  | reorganize => "reorganize"

/-- The mode with a given name. -/
def ofName (text : String) : Except Failure Mode :=
  match all.find? (·.name == text) with
  | some mode => .ok mode
  | none => .error (.unknownMode text)

end Mode

end SongLibrary.Reconcile
