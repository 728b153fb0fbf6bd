/-
  The tables of a run.

  * `Services.Reliable` is what a run relies on where its tables are concerned;
  * `Removed`, `Opens` and `Commits` list what the operations on the files of
    tables come to (`removeFile_cases`, `openTable_cases`, `commit_cases`), and each
    changes one place alone (`Removed.retabled`, `Opens.retabled`, `Commits.retabled`);
  * `Setup.library` and `Setup.draft` are where the table of the library is and
    where a destructive run writes, which are different places.
-/
import SongLibrary.Proofs.Organize
import SongLibrary.Proofs.Reconcile.Outcomes

namespace SongLibrary.Reconcile

open FileTree (Opened Retabled)

/-- What a run relies on: files are moved by `organizeFile`, the file of a table
    has no tags, and a file is said to be missing only where it is. -/
structure Services.Reliable (w : Services) : Prop where
  move : ∀ n, w.move n = organizeFile
  readTags : ∀ n path table tags, w.readTags n path (.songs table) ≠ .ok tags
  fileFault? : ∀ n, w.fileFault? n ≠ some .notFound

/-! ## Places -/

namespace Setup

variable (s : Setup) (files : FileTree)

/-- Where the table of the library is. -/
def library : Location :=
  files.destination s.databasePath

/-- Where a destructive run writes its table. -/
def draft : Location :=
  files.destination s.newDatabasePath

/-- Where an earlier run may have left what belongs to a table. -/
def journal : Location :=
  files.destination (s.newDatabasePath.addSuffix "-journal")

theorem draft_ne_library : s.draft files ≠ s.library files :=
  files.destination_addSuffix_ne s.databasePath (by decide) (by decide)

theorem journal_ne_draft : s.journal files ≠ s.draft files :=
  files.destination_addSuffix_ne s.newDatabasePath (by decide) (by decide)

theorem journal_ne_library : s.journal files ≠ s.library files := by
  unfold journal newDatabasePath
  rw [Path.addSuffix_addSuffix]
  exact files.destination_addSuffix_ne s.databasePath (by decide) (by decide)

theorem library_not_mem : s.library files ∉ [s.draft files, s.journal files] := by
  simp [(s.draft_ne_library files).symm, (s.journal_ne_library files).symm]

theorem encode_newDatabasePath : (Text.encode s.newDatabasePath.symbols).isEmpty = false := by
  have hsuffix : Text.encode (Text.symbolsOf ".new") ≠ [] := by decide
  rw [Text.encode] at hsuffix
  simp [newDatabasePath, Path.addSuffix, Text.encode, List.flatMap_append, hsuffix]

theorem draft_ne_nil : s.draft files ≠ [] := by
  obtain ⟨l, last, -, hdraft⟩ :=
    files.destination_addSuffix s.databasePath (show Path.slash ∉ Text.symbolsOf ".new" by decide)
      (by decide)
  rw [draft, newDatabasePath, hdraft]
  simp

/-- The table that a destructive run writes has a file. -/
theorem not_isFileless_newDatabasePath : ¬ FileTree.isFileless s.newDatabasePath := by
  have hlast : s.newDatabasePath.symbols.getLast? = some (.char 'w') := by
    simp [newDatabasePath, Path.addSuffix, Text.symbolsOf]
  intro h
  unfold FileTree.isFileless at h
  simp only [Bool.or_eq_true, decide_eq_true_eq] at h
  rcases h with h | h
  all_goals
    rw [h] at hlast
    revert hlast
    decide

end Setup

namespace Run

variable {s : Setup} {w : Services} {r : Run} {path : Path}

/-! ## Operations -/

/-- What removing the file of a table comes to. -/
inductive Removed (r : Run) (path : Path) : Run × Except Failure Unit → Prop where
  | removed {l : Location} {c : Content} (h : r.files.find path = .ok (l, .file c)) :
      Removed r path ({ r.asked with files := r.files.erase l }, .ok ())
  | missing (h : r.files.removeFile path = .error .notFound) : Removed r path (r.asked, .ok ())
  | failed (failure : Failure) : Removed r path (r.asked, .error failure)

theorem removeFile_cases (hw : w.Reliable) (r : Run) (path : Path) :
    Removed r path (r.removeFile w path) := by
  unfold removeFile
  dsimp only
  split
  · next files h =>
    split at h
    · cases h
    · obtain ⟨l, c, hfind, rfl⟩ := FileTree.removeFile_eq_ok_iff.1 h
      exact .removed hfind
  · next h =>
    split at h
    · next hfault =>
      cases h
      exact absurd hfault (hw.fileFault? _)
    · exact .missing h
  · exact .failed _

/-- What opening a table comes to. -/
inductive Opens (r : Run) (path : Path) : Run × Except Failure OpenTable → Prop where
  | failed {files : FileTree} {table : Option SongTable} (moment : Nat) (failure : Failure)
      (h : Opened r.files path (files, table)) :
      Opens r path ({ r with files, moment }, .error failure)
  | opened {files : FileTree} {table : SongTable} (moment : Nat)
      (h : Opened r.files path (files, some table)) :
      Opens r path ({ r with files, moment }, .ok ⟨path, r.files.tableFile? path, table⟩)

theorem openTable_cases (w : Services) (r : Run) (path : Path) :
    Opens r path (r.openTable w path) := by
  have hopened := r.files.openTable_cases path
  unfold openTable
  dsimp only
  split
  · exact .failed (r.moment + 1) _ (.refused (p := path))
  · split
    · next files h =>
      rw [h] at hopened
      exact .failed (r.moment + 1) _ hopened
    · next files table h =>
      rw [h] at hopened
      split
      · exact .failed (r.moment + 2) _ hopened
      · exact .opened (r.moment + 2) hopened

/-- What writing a table into its file comes to. -/
inductive Commits (r : Run) (t : OpenTable) : Run × Except Failure Unit → Prop where
  | failed (failure : Failure) : Commits r t (r.asked, .error failure)
  | fileless (h : t.location = none) : Commits r t (r.asked, .ok ())
  | kept {l : Location} (h : t.location = some l) :
      Commits r t ({ r.asked with files := r.files.keepTable l t.table }, .ok ())

theorem commit_cases (w : Services) (r : Run) (t : OpenTable) : Commits r t (r.commit w t) := by
  unfold commit
  split
  · exact .failed _
  · split
    · next h => exact .fileless h
    · next l h => exact .kept h

/-! ## Places that operations change -/

variable {files : FileTree} {gone new : List Location}

/-- Removing a file changes the place that its path leads to. -/
theorem Removed.retabled {result : Run × Except Failure Unit} (h : Retabled gone new files r.files)
    (hr : Removed r path result) (hp : files.destination path ∈ gone) :
    Retabled gone new files result.1.files := by
  cases hr with
  | removed hfind =>
    obtain ⟨-, -, -, -, hget⟩ := FileTree.find_file_iff.1 hfind
    refine h.erase hget ?_
    rwa [(FileTree.route_of_find hfind).2, FileTree.destination_congr h.workingDir]
  | missing _ => exact h
  | failed _ => exact h

/-- Opening a table changes the place that its path leads to. -/
theorem Opens.retabled {result : Run × Except Failure OpenTable}
    (h : Retabled gone new files r.files) (ho : Opens r path result)
    (hp : ¬ FileTree.isFileless path → files.destination path ∈ gone ∧ files.destination path ∈ new) :
    Retabled gone new files result.1.files := by
  have hplace : ∀ l, r.files.tableFile? path = some l → l ∈ gone ∧ l ∈ new := by
    intro l hl
    have hfile : ¬ FileTree.isFileless path := by
      intro hfileless
      simp [FileTree.tableFile?, hfileless] at hl
    rw [(h.wellFormed.tableFile?_eq hl).1, FileTree.destination_congr h.workingDir]
    exact hp hfile
  cases ho with
  | failed _ _ hopened => exact h.opened hopened hplace
  | opened _ hopened => exact h.opened hopened hplace

/-- Writing a table into its file changes that file alone. -/
theorem Commits.retabled {t : OpenTable} {result : Run × Except Failure Unit}
    (h : Retabled gone new files r.files) (hc : Commits r t result)
    (hl : ∀ l ∈ t.location, l ≠ [] ∧ l ∈ gone ∧ l ∈ new) : Retabled gone new files result.1.files := by
  cases hc with
  | failed _ => exact h
  | fileless _ => exact h
  | kept hlocation =>
    obtain ⟨hne, hgone, hnew⟩ := hl _ hlocation
    exact h.keepTable hne hgone hnew t.table

/-! ## Directories -/

theorem Removed.keepsDirectories {result : Run × Except Failure Unit}
    (h : files.KeepsDirectories r.files) (hr : Removed r path result) :
    files.KeepsDirectories result.1.files := by
  cases hr with
  | removed hfind =>
    obtain ⟨-, -, -, -, hget⟩ := FileTree.find_file_iff.1 hfind
    exact h.erase hget
  | missing _ => exact h
  | failed _ => exact h

theorem Opens.keepsDirectories {result : Run × Except Failure OpenTable}
    (h : files.KeepsDirectories r.files) (hwf : r.files.WellFormed) (ho : Opens r path result) :
    files.KeepsDirectories result.1.files := by
  cases ho with
  | failed _ _ hopened => exact h.opened hwf hopened
  | opened _ hopened => exact h.opened hwf hopened

end Run

end SongLibrary.Reconcile
