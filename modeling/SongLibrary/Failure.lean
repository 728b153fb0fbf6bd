/-
  Why an operation of the library fails, and how that is worded.

  `Failure.message` is the wording; the definitions after it name the causes
  the library itself finds.
-/
import SongLibrary.FileTree.Fault

namespace SongLibrary

/-- Why an operation fails. -/
inductive Failure where
  /-- An operation on files failed. -/
  | io (fault : Fault)
  /-- An operation on a song table failed. -/
  | database
  /-- The tags of a file could not be read or written. -/
  | metadata (path message : String)
  /-- A file could not be put in its place. -/
  | organization (message : String)
  /-- A line is no message. -/
  | protocol (message : String)
  /-- A setting makes no sense. -/
  | configuration (message : String)
  /-- An operation failed in the course of another. -/
  | context (action : String) (cause : Failure)
  deriving DecidableEq, Repr

namespace Failure

/-- The wording of a failure. -/
def message : Failure → String
  | io fault => "IO error: " ++ fault.message
  | database => "Database error"
  | metadata path message => "Metadata error for " ++ path ++ ": " ++ message
  | organization message => "Organization error: " ++ message
  | protocol message => "Protocol error: " ++ message
  | configuration message => "Configuration error: " ++ message
  | context action cause => action ++ ": " ++ cause.message

/-! ## Causes -/

/-- A mode has no such name. -/
def unknownMode (name : String) : Failure :=
  configuration ("unknown mode: " ++ name)

/-- A line is none of the messages there are. -/
def unknownControl (line : String) : Failure :=
  protocol ("unknown control message: " ++ line)

/-- A file has no place to go to. -/
def emptyDestination (source : String) : Failure :=
  organization ("empty destination for " ++ source)

/-- The place of a file is taken. -/
def destinationExists (destination : String) : Failure :=
  organization ("destination already exists: " ++ destination)

/-- The text of an export is not of its form. -/
def invalidExport : Failure :=
  configuration "invalid iTunes export"

end Failure

end SongLibrary
