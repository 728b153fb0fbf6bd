/-
  Finding the entry that a path leads to.

  `FileTree.follow` follows a path up to its last part: every part before must
  lead to a directory.  What it gives, a `Spot`, tells where the entry is or
  would be.  `FileTree.locate` asks in addition that its name be short enough,
  and `FileTree.find` that there be an entry.
-/
import SongLibrary.FileTree.Basic

namespace SongLibrary

/-- The greatest number of bytes of a path. -/
def maxPathBytes : Nat := 4095

/-- Where a path leads. -/
inductive Spot where
  /-- To a name in a directory.  `asDirectory` tells whether the path ends in a
      slash, which only a directory may. -/
  | entry (parent : Location) (name : Name) (asDirectory : Bool)
  /-- To a directory that is named by where it is: the root, `.` or `..`. -/
  | directory (location : Location)

/-- The location a path leads to. -/
def Spot.location : Spot → Location
  | .entry parent name _ => parent ++ [name]
  | .directory location => location

namespace FileTree

variable (t : FileTree)

/-- Whether a name has more bytes than a name may have. -/
def isTooLong (name : Name) : Bool :=
  name.bytes.length > 255

/-- The directory that a part of a path leads to from a directory. -/
def enter (l : Location) (part : Name) : Except Fault Location :=
  if part.isSilent then .ok l
  else if part = Name.up then .ok l.dropLast
  else if isTooLong part then .error .nameTooLong
  else
    match t.get? (l ++ [part]) with
    | some .directory => .ok (l ++ [part])
    | some (.file _) => .error .notADirectory
    | none => .error .notFound

/-- The directory that the parts of a path lead to from a directory. -/
def descend (l : Location) : List Name → Except Fault Location
  | [] => .ok l
  | part :: rest => match t.enter l part with
    | .ok l => descend l rest
    | .error fault => .error fault

/-- Where a path leads, whatever the length of its last name. -/
def follow (p : Path) : Except Fault Spot :=
  let bytes := Text.encode p.symbols
  if bytes.contains 0 then .error .nulInName
  else if bytes.isEmpty then .error .notFound
  else if bytes.length > maxPathBytes then .error .nameTooLong
  else
    let start := if p.isAbsolute then [] else t.workingDir
    if t.get? start != some .directory then .error .notFound
    else
      let parts := p.parts.filter (!·.isEmpty)
      match parts.getLast? with
      | none => .ok (.directory start)
      | some last =>
        match t.descend start parts.dropLast with
        | .error fault => .error fault
        | .ok l =>
          if last = Name.here then .ok (.directory l)
          else if last = Name.up then .ok (.directory l.dropLast)
          else .ok (.entry l last (p.parts.getLast? == some []))

/-- Where a path leads. -/
def locate (p : Path) : Except Fault Spot :=
  match t.follow p with
  | .ok (.entry l name asDirectory) =>
    if isTooLong name then .error .nameTooLong else .ok (.entry l name asDirectory)
  | other => other

/-- The location and the entry at a spot. -/
def entryAt (s : Spot) : Except Fault (Location × Entry) :=
  match s with
  | .directory l => .ok (l, .directory)
  | .entry l name asDirectory =>
    match t.get? (l ++ [name]) with
    | none => .error .notFound
    | some .directory => .ok (l ++ [name], .directory)
    | some (.file content) =>
      if asDirectory then .error .notADirectory else .ok (l ++ [name], .file content)

/-- The location and the entry that a path leads to. -/
def find (p : Path) : Except Fault (Location × Entry) :=
  match t.locate p with
  | .ok spot => t.entryAt spot
  | .error fault => .error fault

/-- Whether a path leads to an entry. -/
def pathExists (p : Path) : Bool :=
  (t.find p).isOk

/-- Whether a path leads to a directory. -/
def isDirectory (p : Path) : Bool :=
  match t.find p with
  | .ok (_, .directory) => true
  | _ => false

/-- The content of the file that a path leads to. -/
def read (p : Path) : Except Fault Content :=
  match t.find p with
  | .ok (_, .file content) => .ok content
  | .ok (_, .directory) => .error .isADirectory
  | .error fault => .error fault

end FileTree

end SongLibrary
