/-
  Moving files to their places.

  `organizeFile` moves a file to a place in the music directory.  It never takes
  a place where something is; directories that the file leaves empty are
  removed, up to the music directory.
-/
import SongLibrary.Failure
import SongLibrary.FileTree.Change

namespace SongLibrary

/-- Remove the directory a path leads to, and those above it, `parents`, as far
    as each is below the root and empty. -/
def removeEmptyDirectories (root : Path) (t : FileTree) (p : Path) (parents : List Path) :
    FileTree :=
  if p.sameAs root || !p.startsWith root || !t.isEmptyDirectory p then t
  else
    match t.removeDirectory p with
    | .error _ => t
    | .ok t => match parents with
      | [] => t
      | q :: rest => removeEmptyDirectories root t q rest

/-- Move a file by renaming or else copying it. -/
def moveFile (t : FileTree) (source target : Path) : FileTree × Except Failure Unit :=
  match t.rename source target with
  | .ok t => (t, .ok ())
  | .error _ =>
    match t.copy source target with
    | .error fault =>
      (t, .error (.context ("Failed to copy file to: " ++ target.shown) (.io fault)))
    | .ok t =>
      match t.removeFile source with
      | .error fault =>
        (t, .error (.context ("Failed to remove source file: " ++ source.shown) (.io fault)))
      | .ok t => (t, .ok ())

/-- Create the directory that a file is to be in. -/
def createParent (t : FileTree) (target : Path) : FileTree × Except Failure Unit :=
  match target.parent? with
  | none => (t, .ok ())
  | some parent =>
    match t.createDirectories parent with
    | (t, .ok ()) => (t, .ok ())
    | (t, .error fault) =>
      (t, .error (.context ("Failed to create directory: " ++ parent.shown) (.io fault)))

/-- Remove the directories that a file has left empty. -/
def cleanUp (t : FileTree) (musicDir source : Path) : FileTree :=
  match source.parent? with
  | none => t
  | some parent =>
    removeEmptyDirectories musicDir t parent (FileTree.above (parent.names.length + 1) parent)

/-- Move a file to a place, given by its path from the music directory: the tree
    afterwards, and the path of the place or why the file is not there. -/
def organizeFile (t : FileTree) (source musicDir : Path) (relative : String) :
    FileTree × Except Failure Path :=
  if relative.isEmpty then (t, .error (.emptyDestination source.shown))
  else
    let target := musicDir.join (.ofString relative)
    if target.sameAs source then (t, .ok target)
    else if t.pathExists target then (t, .error (.destinationExists target.shown))
    else
      match createParent t target with
      | (t, .error failure) => (t, .error failure)
      | (t, .ok ()) =>
        match moveFile t source target with
        | (t, .error failure) => (t, .error failure)
        | (t, .ok ()) => (cleanUp t musicDir source, .ok target)

end SongLibrary
