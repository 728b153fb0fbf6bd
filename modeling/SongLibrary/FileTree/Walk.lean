/-
  Walking through a file tree.

  `FileTree.walk` gives the paths of all files below a path: a directory is
  walked through where its name stands among those beside it, in the order of
  their bytes.  A path that leads to a file gives itself, and one that leads
  nowhere gives nothing.

  `FileTree.leaves` lists what is below a location in the order of the bytes of
  whole paths: the files and the directories with nothing in them.
-/
import SongLibrary.FileTree.Lookup

namespace SongLibrary.FileTree

variable (t : FileTree)

/-- The names that lead from a location to an entry below it. -/
def namesBelow? (l : Location) (e : Location × Entry) : Option (List Name) :=
  if l.isPrefixOf e.1 then some (e.1.drop l.length) else none

/-- Whether an entry is a file. -/
def isFile (e : Location × Entry) : Bool :=
  e.2.content?.isSome

/-- Whether names come first in a walk, or are the same. -/
def walksBefore (a b : List Name) : Bool :=
  decide (a.map Name.bytes ≤ b.map Name.bytes)

/-- The names that lead from a directory to the files below it, in the order of
    a walk. -/
def filesBelow (l : Location) : List (List Name) :=
  ((t.entries.filter isFile).filterMap (namesBelow? l)).mergeSort walksBefore

/-- The paths of the files that a walk from a path comes to. -/
def walk (root : Path) : List Path :=
  match t.find root with
  | .error _ => []
  | .ok (_, .file _) => [root]
  | .ok (l, .directory) => (t.filesBelow l).map fun names => names.foldl Path.child root

/-- The names below a location as the bytes of a path. -/
def pathBytes (names : List Name) : List UInt8 :=
  Text.encode (Path.ofParts names).symbols

/-- The files and the empty directories below a location, by the names that lead
    to them from there. -/
def leaves (l : Location) : List (List Name × Entry) :=
  let below := t.entries.filterMap fun e => (namesBelow? l e).map fun names => (names, e)
  let kept := below.filter fun (names, e) => names != [] && (isFile e || !t.hasChildren e.1)
  (kept.map fun (names, e) => (names, e.2)).mergeSort fun a b =>
    decide (pathBytes a.1 ≤ pathBytes b.1)

end SongLibrary.FileTree
