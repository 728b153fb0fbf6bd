/-
  File trees.

  A file tree holds directories and files at locations, the lists of names that
  lead to them from the root.  The root is always a directory.  Below some
  directories other devices may be mounted.

  * `FileTree.get?` is what is at a location: after `put` the new entry
    (`get?_put`), after `erase` nothing (`get?_erase`);
  * `FileTree.relocate` moves an entry with everything below it.
-/
import SongLibrary.Audio.File
import SongLibrary.FileTree.Fault
import SongLibrary.Path
import SongLibrary.SongTable.Basic

namespace SongLibrary

/-- What a file holds. -/
inductive Content where
  | text (s : String)
  /-- Bytes that are no text. -/
  | binary (bytes : List UInt8)
  | audio (file : AudioFile)
  | songs (table : SongTable)
  deriving DecidableEq

/-- The content of a file with some bytes. -/
def Content.ofBytes (bytes : List UInt8) : Content :=
  match Text.wholeText? bytes with
  | some s => .text s
  | none => .binary bytes

/-- The audio file that a content is, where the path of the content says that it
    is one. -/
def Content.audioAt? (content : Content) (path : Path) : Option AudioFile :=
  match content, path.extension? with
  | .audio file, some extension =>
    if Text.asciiEqual extension.shown "flac" then some file else none
  | _, _ => none

/-- The names that lead from the root to a file or directory. -/
abbrev Location := List Name

/-- What is at a location. -/
inductive Entry where
  | directory
  | file (content : Content)
  deriving DecidableEq

/-- The content of a file. -/
def Entry.content? : Entry → Option Content
  | directory => none
  | file content => some content

/-- The files and directories there are. -/
structure FileTree where
  /-- The directory that relative paths are seen from. -/
  workingDir : Location := []
  entries : List (Location × Entry) := []
  /-- The directories where other devices are mounted. -/
  mounts : List Location := []

namespace FileTree

variable (t : FileTree)

/-- What is at a location. -/
def get? (l : Location) : Option Entry :=
  if l = [] then some .directory else t.entries.lookup l

/-- The tree with an entry at a location. -/
def put (l : Location) (e : Entry) : FileTree :=
  { t with entries := (l, e) :: t.entries.filter (·.1 != l) }

/-- The tree without the entry at a location. -/
def erase (l : Location) : FileTree :=
  { t with entries := t.entries.filter (·.1 != l) }

/-- Whether there is anything below a location. -/
def hasChildren (l : Location) : Bool :=
  t.entries.any fun e => l.isPrefixOf e.1 && e.1 != l

/-- Whether two directories are on one device: they are below the same mounts. -/
def sameDevice (l k : Location) : Bool :=
  t.mounts.all fun m => m.isPrefixOf l == m.isPrefixOf k

/-- The location of an entry after what is at `source` moves to `target`. -/
def relocated (source target l : Location) : Location :=
  if source.isPrefixOf l then target ++ l.drop source.length else l

/-- The tree after what is at `source` and below moves to `target`, in place of
    what is there. -/
def relocate (source target : Location) : FileTree :=
  { t with
    entries := (t.entries.filter (·.1 != target)).map fun e =>
      (relocated source target e.1, e.2)
    mounts := t.mounts.map (relocated source target) }

theorem lookup_filter_ne (entries : List (Location × Entry)) (k l : Location) :
    (entries.filter (·.1 != k)).lookup l = if l = k then none else entries.lookup l := by
  induction entries with
  | nil => simp
  | cons e rest ih =>
    obtain ⟨m, e⟩ := e
    by_cases hm : m = k
    · subst hm
      by_cases hl : l = m
      · subst hl; simpa using ih
      · have hb : (l == m) = false := by simpa using hl
        simp [List.lookup_cons, ih, hl, hb]
    · by_cases hl : l = m
      · subst hl; simp [hm]
      · have hb : (l == m) = false := by simpa using hl
        simp [List.lookup_cons, hm, ih, hb]

/-- **After `put` the entry is at its location, and elsewhere nothing changed.** -/
theorem get?_put {l : Location} (hl : l ≠ []) (e : Entry) (k : Location) :
    (t.put l e).get? k = if k = l then some e else t.get? k := by
  by_cases hk : k = l
  · subst hk; simp [get?, put, hl]
  · have hb : (k == l) = false := by simpa using hk
    simp [get?, put, List.lookup_cons, hb, hk, lookup_filter_ne]

/-- **After `erase` the location is free, and elsewhere nothing changed.** -/
theorem get?_erase {l : Location} (hl : l ≠ []) (k : Location) :
    (t.erase l).get? k = if k = l then none else t.get? k := by
  by_cases hk : k = l
  · subst hk; simp [get?, erase, hl, lookup_filter_ne]
  · simp [get?, erase, lookup_filter_ne, hk]

end FileTree

end SongLibrary
