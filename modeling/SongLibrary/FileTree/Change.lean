/-
  Changing a file tree.

  Each operation takes paths and gives the changed tree or a fault.
  `FileTree.createDirectories` may fail after it has created some of the
  directories, so it gives a tree in either case.
-/
import SongLibrary.FileTree.Lookup

namespace SongLibrary.FileTree

variable (t : FileTree)

/-- Create a directory. -/
def createDirectory (p : Path) : Except Fault FileTree :=
  match t.locate p with
  | .error fault => .error fault
  | .ok (.directory _) => .error .alreadyExists
  | .ok (.entry l name _) =>
    match t.get? (l ++ [name]) with
    | some _ => .error .alreadyExists
    | none => .ok (t.put (l ++ [name]) .directory)

/-- The paths above a path, from the nearest on, at most `bound` of them. -/
def above : Nat → Path → List Path
  | 0, _ => []
  | bound + 1, p => match p.parent? with
    | none => []
    | some q => q :: above bound q

/-- Create the directory that a path leads to, if it is not there, and the
    directories above it, nearest first in `parents`, as far as needed. -/
def createWith (p : Path) (parents : List Path) : FileTree × Except Fault Unit :=
  if p.symbols.isEmpty then (t, .ok ())
  else
    match t.createDirectory p with
    | .ok t => (t, .ok ())
    | .error .notFound =>
      match parents with
      | [] => (t, .error (.other "failed to create whole tree"))
      | q :: rest =>
        match createWith q rest with
        | (t, .error fault) => (t, .error fault)
        | (t, .ok ()) =>
          match t.createDirectory p with
          | .ok t => (t, .ok ())
          | .error fault => (t, if t.isDirectory p then .ok () else .error fault)
    | .error fault => (t, if t.isDirectory p then .ok () else .error fault)

/-- Create the directory that a path leads to and those above it, as far as they
    are not there. -/
def createDirectories (p : Path) : FileTree × Except Fault Unit :=
  t.createWith p (above (p.names.length + 1) p)

/-- Rename what a path leads to.  A file replaces a file, and a directory an
    empty directory.  Nothing gets onto another device. -/
def rename (source target : Path) : Except Fault FileTree :=
  match t.locate source with
  | .error fault => .error fault
  | .ok (.directory _) =>
    match t.locate target with
    | .error fault => .error fault
    | .ok _ => .error .busy
  | .ok (.entry l name sourceAsDirectory) =>
    match t.locate target with
    | .error fault => .error fault
    | .ok (.directory _) => .error .busy
    | .ok (.entry k newName targetAsDirectory) =>
      let old := l ++ [name]
      let new := k ++ [newName]
      if !t.sameDevice l k then .error .crossesDevices
      else match t.get? old with
      | none => .error .notFound
      | some (.file content) =>
        if sourceAsDirectory || targetAsDirectory then .error .notADirectory
        else if old = new then .ok t
        else
          match t.get? new with
          | some .directory => .error .isADirectory
          | some (.file _) | none => .ok ((t.erase old).put new (.file content))
      | some .directory =>
        if old = new then .ok t
        else if t.mounts.contains old || t.mounts.contains new then .error .busy
        else if old.isPrefixOf new then .error .invalid
        else if new.isPrefixOf old then .error .notEmpty
        else
          match t.get? new with
          | some (.file _) => .error .notADirectory
          | some .directory =>
            if t.hasChildren new then .error .notEmpty else .ok (t.relocate old new)
          | none => .ok (t.relocate old new)

/-- Write the content of a file, which is created if it is not there. -/
def write (p : Path) (content : Content) : Except Fault FileTree :=
  match t.follow p with
  | .error fault => .error fault
  | .ok (.directory _) => .error .isADirectory
  | .ok (.entry l name asDirectory) =>
    if asDirectory then .error .isADirectory
    else if isTooLong name then .error .nameTooLong
    else
      match t.get? (l ++ [name]) with
      | some .directory => .error .isADirectory
      | some (.file _) | none => .ok (t.put (l ++ [name]) (.file content))

/-- Copy the content of a file. -/
def copy (source target : Path) : Except Fault FileTree :=
  match t.find source with
  | .error fault => .error fault
  | .ok (_, .directory) => .error .notRegular
  | .ok (_, .file content) => t.write target content

/-- Remove a file. -/
def removeFile (p : Path) : Except Fault FileTree :=
  match t.locate p with
  | .error fault => .error fault
  | .ok spot =>
    match t.entryAt spot with
    | .error fault => .error fault
    | .ok (_, .directory) => .error .isADirectory
    | .ok (l, .file _) => .ok (t.erase l)

/-- Remove an empty directory. -/
def removeDirectory (p : Path) : Except Fault FileTree :=
  match t.locate p with
  | .error fault => .error fault
  | .ok (.directory _) => .error .invalid
  | .ok (.entry l name _) =>
    match t.get? (l ++ [name]) with
    | none => .error .notFound
    | some (.file _) => .error .notADirectory
    | some .directory =>
      if t.mounts.contains (l ++ [name]) then .error .busy
      else if t.hasChildren (l ++ [name]) then .error .notEmpty else .ok (t.erase (l ++ [name]))

/-- Whether a path leads to a directory with nothing in it. -/
def isEmptyDirectory (p : Path) : Bool :=
  match t.find p with
  | .ok (l, .directory) => !t.hasChildren l
  | _ => false

end SongLibrary.FileTree
