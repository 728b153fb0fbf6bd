/-
  The tables of a rebuild, and of a run that adds new files where there are none.

  Once their tables are open, the trees of the two runs differ at the tables alone, and a scan
  comes to the same files (`Setup.Renewable.starts`): a rebuild removes what an earlier one has
  left (`start_renews`), and puts its new table beside that of the library (`draft_beside`),
  so that there is room for a table where that is.
-/
import SongLibrary.Proofs.Reconcile.Mirroring
import SongLibrary.Proofs.Reconcile.Recopying
import SongLibrary.Proofs.Reconcile.Tuning

namespace SongLibrary

namespace FileTree

variable {files t t' : FileTree} {p : Path} {places : List Location} {table : SongTable}

/-- What is no directory may be removed. -/
theorem WellFormed.erase {k : Location} (h : t.WellFormed) (hne : k ≠ [])
    (hk : t.get? k ≠ some .directory) : (t.erase k).WellFormed := by
  cases hget : t.get? k with
  | none =>
    refine h.of_get? rfl fun m => ?_
    rw [get?_erase _ hne]
    split
    · next hm => rw [hm, hget]
    · rfl
  | some e =>
    cases e with
    | directory => exact absurd hget hk
    | file c => exact h.erase_file hget

/-! ## New tables -/

/-- There is room for a new table where a path leads. -/
structure HasRoom (t : FileTree) (p : Path) : Prop where
  location : t.tableLocation? p = some (t.destination p)
  parent : t.get? (t.destination p).dropLast = some .directory
  short : (((t.destination p).getLast?.getD []).bytes.length + journalSuffix.utf8ByteSize ≤ 255)

theorem openTable_of_hasRoom (hp : ¬ isFileless p) (h : t.HasRoom p)
    (hnone : t.get? (t.destination p) = none) :
    t.openTable p = (t.put (t.destination p) (.file (.songs .empty)), some .empty) := by
  have hshort := h.short
  simp [openTable, hp, h.location, hnone, createTable, h.parent, Nat.not_lt.2 hshort]

theorem hasRoom_of_openTable (hp : ¬ isFileless p) (hwf : t.WellFormed)
    (hnone : t.get? (t.destination p) = none) (h : t.openTable p = (t', some table)) :
    t.HasRoom p := by
  unfold openTable at h
  rw [if_neg hp] at h
  split at h
  · cases h
  · next l hl =>
    obtain ⟨rfl, -⟩ := hwf.tableLocation?_eq hl
    rw [hnone] at h
    unfold createTable at h
    dsimp only at h
    split at h
    · cases h
    · next hparent =>
      split at h
      · cases h
      · next hshort => exact ⟨hl, by simpa using hparent, Nat.not_lt.1 hshort⟩

/-- Opening a table changes the place that its path leads to. -/
theorem Edited.opened {result : FileTree × Option SongTable} (h : Edited places files t)
    (hwf : t.WellFormed) (ho : Opened t p result)
    (hp : ¬ isFileless p → files.destination p ∈ places) : Edited places files result.1 := by
  cases ho with
  | @created l c _ hl _ _ _ =>
    have hfile : ¬ isFileless p := by
      intro hfileless
      simp [tableFile?, hfileless] at hl
    obtain ⟨rfl, hne⟩ := hwf.tableFile?_eq hl
    exact h.put (destination_congr h.workingDir p ▸ hp hfile) hne _
  | _ => exact h

end FileTree

namespace Reconcile

open FileTree (Edited SameElsewhere)

variable {s : Setup} {w : Services} {files t t' : FileTree} {r r' r₀ r₁ : Run}

namespace Run

variable {places : List Location} {path : Path}

theorem Removed.edited {result : Run × Except Failure Unit} (h : Edited places files r.files)
    (hr : Removed r path result) (hp : files.destination path ∈ places) :
    Edited places files result.1.files := by
  cases hr with
  | removed hfind =>
    obtain ⟨-, -, -, -, hget⟩ := FileTree.find_file_iff.1 hfind
    obtain ⟨-, rfl⟩ := FileTree.route_of_find hfind
    exact h.erase (by rwa [FileTree.destination_congr h.workingDir]) (FileTree.ne_nil_of_get? hget)
  | missing _ => exact h
  | failed _ => exact h

theorem openTable_of_opens {table : SongTable} (hw : w.Sound)
    (h : r.files.openTable path = (t, some table)) :
    ∃ moment, r.openTable w path =
      ({ r with files := t, moment }, .ok ⟨path, r.files.tableFile? path, table⟩) := by
  refine ⟨r.moment + 2, ?_⟩
  simp [openTable, hw.tableFails, h, asked]

end Run

/-- Where the tables are, and the journal of the new one. -/
abbrev Setup.allPlaces (s : Setup) (files : FileTree) : List Location :=
  [s.library files, s.draft files, s.journal files]

/-- A rebuild removes what an earlier one has left, and opens a new table and then that of the
    library. -/
theorem start_renews (hd : s.mode.isDestructive) (hw : w.Reliable) (hwf : files.WellFormed)
    (hway : s.HasWay files) (hstart : (Run.new s files).start s w = (r₀, .ok ())) :
    ∃ (t t₁ : FileTree) (table table₁ : SongTable) (moment : Nat),
      Edited (s.allPlaces files) files t ∧ t.WellFormed ∧ files.KeepsDirectories t ∧
      t.get? (s.draft files) = none ∧
      t.openTable s.newDatabasePath = (t₁, some table₁) ∧
      t₁.openTable s.databasePath = (r₀.files, some table) ∧
      r₀ = { Run.new s files with
        files := r₀.files, moment, phase := .prepare
        target := some ⟨s.newDatabasePath, t.tableFile? s.newDatabasePath, table₁⟩
        primary := some ⟨s.databasePath, t₁.tableFile? s.databasePath, table⟩ } := by
  simp only [Run.start, hd, if_true] at hstart
  split at hstart
  · cases hstart
  · next r₄ htarget =>
    unfold Run.openTarget at htarget
    split at htarget
    · cases htarget
    · next r₁ hremove =>
      split at htarget
      · cases htarget
      · next r₂ hremove' =>
        split at htarget
        · cases htarget
        · next r₃ target hopen =>
          cases htarget
          have hremoved := Run.removeFile_cases hw (Run.new s files) s.newDatabasePath
          have hfiles := Run.removeFile_filesOnly (w := w) (r := Run.new s files) s.newDatabasePath
          have hnew : Run.Housed files (Run.new s files) := ⟨hwf, fun _ hd => hd⟩
          have hhoused := hnew.removeFile hw s.newDatabasePath
          rw [hremove] at hremoved hfiles hhoused
          have hremoved' := Run.removeFile_cases hw r₁ (s.newDatabasePath.addSuffix "-journal")
          have hfiles' := Run.removeFile_filesOnly (w := w) (r := r₁)
            (s.newDatabasePath.addSuffix "-journal")
          have hhoused' := hhoused.removeFile hw (s.newDatabasePath.addSuffix "-journal")
          rw [hremove'] at hremoved' hfiles' hhoused'
          have hedited : Edited (s.allPlaces files) files r₁.files :=
            hremoved.edited (.refl files) (by simp [Setup.draft])
          have hedited' : Edited (s.allPlaces files) files r₂.files :=
            hremoved'.edited hedited (by simp [Setup.journal])
          -- What an earlier run has left is gone.
          have hgone : r₁.files.get? (s.draft files) = none :=
            Run.Removed.gone (r := Run.new s files) s.encode_newDatabasePath hway hremoved
          have hnone : r₂.files.get? (s.draft files) = none := by
            have hretabled := hremoved'.retabled (.refl hhoused.wellFormed :
              FileTree.Retabled [s.journal files] [] r₁.files r₁.files)
              (by simp [Setup.journal, FileTree.destination_congr hedited.workingDir])
            rw [hretabled.get? _ (by simpa using (s.journal_ne_draft files).symm), hgone]
          obtain ⟨t₁, table₁, moment, rfl, hopens, rfl⟩ := Run.openTable_ok hopen
          unfold Run.openPrimary at hstart
          split at hstart
          · cases hstart
          · next r₅ primary hopen' =>
            cases hstart
            obtain ⟨t₂, table, moment', rfl, hopens', rfl⟩ := Run.openTable_ok hopen'
            refine ⟨r₂.files, t₁, table, table₁, moment', hedited', hhoused'.wellFormed,
              hhoused'.directories, hnone, hopens, hopens', ?_⟩
            obtain ⟨files₁, moment₁, rfl⟩ := hfiles
            obtain ⟨files₂, moment₂, rfl⟩ := hfiles'
            rfl

/-! ## Beside the table of the library -/

namespace Setup

/-- The new table is beside that of the library, under a longer name. -/
theorem draft_beside (s : Setup) (hwf : t.WellFormed) (hlibrary : t.HasFile (s.library t))
    (hdraft : t.HasFile (s.draft t)) : ∃ l name, s.library t = l ++ [name] ∧
      s.draft t = l ++ [name ++ Text.symbolsOf ".new"] := by
  obtain ⟨l, name, hl, hd⟩ := t.destination_addSuffix s.databasePath
    (show Path.slash ∉ Text.symbolsOf ".new" by decide) (by decide)
  refine ⟨l, name, ?_, hd⟩
  -- If the table of the library were above the new one, it would be a directory.
  have hbeside : ¬ s.library t <+: l := by
    intro hbelow
    obtain ⟨c, hget⟩ := hlibrary
    obtain ⟨d, hget'⟩ := hdraft
    have hdraft' : s.draft t = l ++ [name ++ Text.symbolsOf ".new"] := hd
    have habove := hwf.above hget' (hbelow.trans (hdraft' ▸ List.prefix_append l _))
      (s.draft_ne_library t).symm
    cases hget.symm.trans habove
  rw [library, hl] at hbeside ⊢
  unfold arriveAt at hbeside ⊢
  split
  · next hsilent =>
    rw [if_pos hsilent] at hbeside
    exact absurd (List.prefix_refl l) hbeside
  · next hloud =>
    rw [if_neg hloud] at hbeside
    split
    · next hup =>
      rw [if_pos hup] at hbeside
      exact absurd (List.dropLast_prefix l) hbeside
    · rfl

end Setup

/-! ## Libraries without tables -/

namespace Setup

/-- The files without those of the tables, and without the journal that an earlier run may have
    left. -/
def cleared (s : Setup) (files : FileTree) : FileTree :=
  ((files.erase (s.library files)).erase (s.draft files)).erase (s.journal files)

theorem journal_ne_nil (s : Setup) (files : FileTree) : s.journal files ≠ [] := by
  obtain ⟨l, last, -, hjournal⟩ := files.destination_addSuffix s.newDatabasePath
    (show Path.slash ∉ Text.symbolsOf "-journal" by decide) (by decide)
  rw [journal, hjournal]
  simp

theorem get?_cleared (hne : s.library files ≠ []) (m : Location) :
    (s.cleared files).get? m = if m ∈ s.allPlaces files then none else files.get? m := by
  rw [cleared, FileTree.get?_erase _ (s.journal_ne_nil files),
    FileTree.get?_erase _ (s.draft_ne_nil files), FileTree.get?_erase _ hne]
  by_cases hm : m = s.journal files <;> by_cases hm' : m = s.draft files <;>
    by_cases hm'' : m = s.library files <;> simp [hm, hm', hm'']

theorem cleared_edited (hne : s.library files ≠ []) :
    Edited (s.allPlaces files) files (s.cleared files) :=
  (((Edited.refl files).erase (by simp) hne).erase (by simp) (s.draft_ne_nil files)).erase (by simp)
    (s.journal_ne_nil files)

end Setup

/-! ## Opening the table of the library -/

/-- A rebuild opens the table of the library in one tree, and then has another. -/
structure Opening (s : Setup) (files t₁ t₀ : FileTree) : Prop where
  wellFormed : t₁.WellFormed
  edited : Edited (s.allPlaces files) files t₁
  directories : files.KeepsDirectories t₁
  parent : t₁.get? (s.draft files).dropLast = some .directory
  short : ((s.draft files).getLast?.getD []).bytes.length +
    FileTree.journalSuffix.utf8ByteSize ≤ 255
  hasFile : ¬ FileTree.isFileless s.databasePath
  opens : ∃ table, t₁.openTable s.databasePath = (t₀, some table)
  library : t₀.HasFile (s.library files)
  draft : t₀.HasFile (s.draft files)
  journal : t₀.get? (s.journal files) = none

namespace Opening

variable {t₀ t₁ : FileTree}

theorem opened (h : Opening s files t₁ t₀) :
    ∃ table, FileTree.Opened t₁ s.databasePath (t₀, some table) := by
  obtain ⟨table, hopens⟩ := h.opens
  have hopened := FileTree.openTable_cases t₁ s.databasePath
  rw [hopens] at hopened
  exact ⟨table, hopened⟩

theorem wellFormed₀ (h : Opening s files t₁ t₀) : t₀.WellFormed := by
  obtain ⟨table, hopened⟩ := h.opened
  exact hopened.wellFormed h.wellFormed

theorem edited₀ (h : Opening s files t₁ t₀) : Edited (s.allPlaces files) files t₀ := by
  obtain ⟨table, hopened⟩ := h.opened
  exact h.edited.opened h.wellFormed hopened fun _ => by simp [Setup.library]

theorem ne_nil (h : Opening s files t₁ t₀) : s.library files ≠ [] := by
  obtain ⟨c, hget⟩ := h.library
  exact FileTree.ne_nil_of_get? hget

theorem ne_directory (h : Opening s files t₁ t₀) {k : Location} (hk : k ∈ s.allPlaces files) :
    t₀.get? k ≠ some .directory := by
  have hfile : ∀ {l}, t₀.HasFile l → t₀.get? l ≠ some .directory := by
    rintro l ⟨c, hget⟩
    simp [hget]
  simp only [List.mem_cons, List.not_mem_nil, or_false] at hk
  rcases hk with rfl | rfl | rfl
  · exact hfile h.library
  · exact hfile h.draft
  · simp [h.journal]

/-- No table is where a directory was. -/
theorem not_mem (h : Opening s files t₁ t₀) {d : Location} (hd : t₁.get? d = some .directory) :
    d ∉ s.allPlaces files := by
  obtain ⟨table, hopened⟩ := h.opened
  have hkept : t₁.KeepsDirectories t₀ :=
    FileTree.KeepsDirectories.opened (fun _ hd => hd) h.wellFormed hopened
  exact fun hmem => h.ne_directory hmem (hkept d hd)

theorem hasLess (h : Opening s files t₁ t₀) : FileTree.HasLess t₁ (s.cleared files) := by
  have hcleared := Setup.get?_cleared h.ne_nil
  have hother : ∀ m ∉ s.allPlaces files, (s.cleared files).get? m = t₁.get? m := fun m hm => by
    rw [hcleared, if_neg hm, h.edited.get? m hm]
  refine ⟨(Setup.cleared_edited h.ne_nil).workingDir.trans h.edited.workingDir.symm, fun d => ?_,
    fun m hnone => ?_⟩
  · constructor
    · intro hd
      rw [← hother d fun hmem => ?_]
      · exact hd
      · rw [hcleared, if_pos hmem] at hd
        cases hd
    · intro hd
      rwa [hother d (h.not_mem hd)]
  · by_cases hm : m ∈ s.allPlaces files
    · rw [hcleared, if_pos hm]
    · rw [hother m hm, hnone]

theorem beside (h : Opening s files t₁ t₀) : ∃ l name, s.library files = l ++ [name] ∧
    s.draft files = l ++ [name ++ Text.symbolsOf ".new"] := by
  have hplace : ∀ p, t₀.destination p = files.destination p :=
    FileTree.destination_congr h.edited₀.workingDir
  have hbeside := s.draft_beside h.wellFormed₀ (by rw [Setup.library, hplace]; exact h.library)
    (by rw [Setup.draft, hplace]; exact h.draft)
  simpa only [Setup.library, Setup.draft, hplace] using hbeside

/-- There is room for the table of the library where there are no tables. -/
theorem hasRoom (h : Opening s files t₁ t₀) : (s.cleared files).HasRoom s.databasePath := by
  obtain ⟨table, hopened⟩ := h.opened
  obtain ⟨l, name, hl, hd⟩ := h.beside
  have hplace : (s.cleared files).destination s.databasePath = s.library files :=
    FileTree.destination_congr (Setup.cleared_edited h.ne_nil).workingDir _
  have hlocation : t₁.tableLocation? s.databasePath = some (s.library files) := by
    have hfile := (hopened.rows h.wellFormed).1
    rw [if_neg h.hasFile, FileTree.destination_congr h.edited.workingDir] at hfile
    simpa [FileTree.tableFile?, h.hasFile, Setup.library] using hfile
  have hparent := h.parent
  have hshort := h.short
  rw [hd, List.dropLast_concat] at hparent
  rw [hd, List.getLast?_concat, Option.getD_some] at hshort
  refine ⟨?_, ?_, ?_⟩
  · rw [hplace]
    exact h.hasLess.tableLocation? hlocation
  · rw [hplace, hl, List.dropLast_concat]
    exact (h.hasLess.directory l).2 hparent
  · rw [hplace, hl, List.getLast?_concat, Option.getD_some]
    simp only [Name.bytes, Text.encode, List.flatMap_append, List.length_append] at hshort ⊢
    omega

theorem wellFormed_cleared (h : Opening s files t₁ t₀) (hwf : files.WellFormed) :
    (s.cleared files).WellFormed := by
  have hplaces : ∀ k ∈ s.allPlaces files, files.get? k ≠ some .directory := fun k hk hd =>
    h.not_mem (h.directories k hd) hk
  have herased : ∀ {t : FileTree} {k m : Location}, k ≠ [] → t.get? m ≠ some .directory →
      (t.erase k).get? m ≠ some .directory := by
    intro t k m hne hm
    rw [FileTree.get?_erase _ hne]
    split
    · simp
    · exact hm
  have hlibrary := hwf.erase h.ne_nil (hplaces (s.library files) (by simp))
  have hdraft := hlibrary.erase (s.draft_ne_nil files)
    (herased h.ne_nil (hplaces (s.draft files) (by simp)))
  exact hdraft.erase (s.journal_ne_nil files)
    (herased (s.draft_ne_nil files) (herased h.ne_nil (hplaces (s.journal files) (by simp))))

/-- The other run has an empty table where the library had its table. -/
theorem openTable_cleared (h : Opening s files t₁ t₀) :
    (s.cleared files).openTable s.databasePath =
      ((s.cleared files).put (s.library files) (.file (.songs .empty)), some .empty) := by
  have hplace : (s.cleared files).destination s.databasePath = s.library files :=
    FileTree.destination_congr (Setup.cleared_edited h.ne_nil).workingDir _
  have hopens := FileTree.openTable_of_hasRoom h.hasFile h.hasRoom
    (by rw [hplace, Setup.get?_cleared h.ne_nil, if_pos (by simp)])
  rwa [hplace] at hopens

theorem both_edited (h : Opening s files t₁ t₀) : Edited (s.allPlaces files) t₀
    ((s.cleared files).put (s.library files) (.file (.songs .empty))) :=
  h.edited₀.symm.trans ((Setup.cleared_edited h.ne_nil).put (by simp) h.ne_nil _)

theorem get?_opened (h : Opening s files t₁ t₀) {m : Location} (hm : m ∈ s.allPlaces files) :
    ((s.cleared files).put (s.library files) (.file (.songs .empty))).get? m =
      if m = s.library files then some (.file (.songs .empty)) else none := by
  rw [FileTree.get?_put _ h.ne_nil, Setup.get?_cleared h.ne_nil, if_pos hm]

/-- The trees of both runs are the same elsewhere. -/
theorem sameElsewhere (h : Opening s files t₁ t₀) {places : List Location}
    (hlibrary : s.library files ∈ places) (hdraft : s.draft files ∈ places)
    (hplaces : places ⊆ s.allPlaces files) :
    SameElsewhere places t₀ ((s.cleared files).put (s.library files) (.file (.songs .empty))) t₀
      ((s.cleared files).put (s.library files) (.file (.songs .empty))) := by
  have hboth := h.both_edited
  -- Of the places of tables only the journal can be elsewhere, and it is free in both.
  refine ⟨hboth.workingDir, hboth.mounts, fun m hm => ?_, fun _ _ => ⟨rfl, rfl⟩, fun m hm => ?_⟩
  · by_cases hall : m ∈ s.allPlaces files
    · obtain rfl : m = s.journal files := by
        have hl : m ≠ s.library files := by
          rintro rfl
          exact hm hlibrary
        have hd : m ≠ s.draft files := by
          rintro rfl
          exact hm hdraft
        simpa [hl, hd] using hall
      rw [h.get?_opened hall, if_neg (s.journal_ne_library files), h.journal]
    · exact hboth.get? m hall
  · constructor
    · rintro ⟨k, hk, hmk, hsome⟩
      rw [h.get?_opened (hplaces hk)] at hsome
      split at hsome
      · next hlib =>
        obtain ⟨c, hget⟩ := h.library
        exact ⟨k, hk, hmk, by rw [hlib, hget]; rfl⟩
      · cases hsome
    · rintro ⟨k, hk, hmk, hsome⟩
      refine ⟨s.library files, hlibrary, ?_, by rw [h.get?_opened (by simp), if_pos rfl]; rfl⟩
      have hall := hplaces hk
      simp only [List.mem_cons, List.not_mem_nil, or_false] at hall
      rcases hall with rfl | rfl | rfl
      · exact hmk
      · obtain ⟨l, name, hl, hd⟩ := h.beside
        rw [hd] at hmk hdraft
        rw [hl]
        refine ((List.prefix_concat_iff.1 hmk).resolve_left ?_).trans (List.prefix_append l _)
        rintro rfl
        exact hm hdraft
      · rw [h.journal] at hsome
        cases hsome

end Opening

/-! ## Both runs -/

namespace Setup

variable (s w files) in
/-- The jobs that a scan comes to where no file has a record. -/
def freshJobs : List Job :=
  jobsFor (fun c => s.verdict c true none) ((s.scan w files).map s.ofFile)

variable (s w files) in
/-- Where a rebuild tries to move files. -/
def tried : List Path :=
  ((Run.new s files).start s w).1.tried s w (s.freshJobs w files)

/-- The tables are outside of what is scanned, in a tree of files. -/
structure Apart (s : Setup) (w : Services) (files : FileTree) : Prop where
  wellFormed : files.WellFormed
  listed : files.Listed
  music : s.musicDir.isAbsolute
  root : s.root.isAbsolute
  text : ∀ p ∈ s.scan w files, p.IsText
  outside : ∀ k ∈ s.allPlaces files, ¬ files.destination s.root <+: k

/-- A library whose rebuild comes to what adding its files to a new table does: the table is in
    a file that its path leads to, it can be opened, and no file is moved into its way. -/
structure Renewable (s : Setup) (w : Services) (files : FileTree) : Prop extends
    s.Apart w files where
  hasFile : ¬ FileTree.isFileless s.databasePath
  leads : files.Leads s.databasePath
  leads' : files.Leads s.newDatabasePath
  opens : ((Run.new s files).start s w).2.isOk
  clear : ∀ target ∈ s.tried w files, s.Clear files target

end Setup

/-- A rebuild, and a run that adds new files where there are no tables, when their tables are
    open. -/
structure Renewal (s : Setup) (w : Services) (files : FileTree) (r₀ r₀' : Run) : Prop where
  start : (Run.new s files).start s w = (r₀, .ok ())
  start' : (Run.new s.adding (s.cleared files)).start s.adding w = (r₀', .ok ())
  ready : r₀.books.Ready s files
  ready' : r₀'.books.Ready s.adding (s.cleared files)
  target : r₀.target = some ⟨s.newDatabasePath, some (s.draft files), .empty⟩
  primary' : r₀'.primary = some ⟨s.databasePath, some (s.library files), .empty⟩
  trees : SameElsewhere [s.library files, s.draft files] r₀.files r₀'.files r₀.files r₀'.files
  library : r₀.files.HasFile (s.library files)
  draft : r₀.files.HasFile (s.draft files)
  library' : r₀'.files.HasFile (s.library files)
  draft' : r₀'.files.get? (s.draft files) = none
  walk : r₀'.files.walk s.root = r₀.files.walk s.root

namespace Setup.Renewable

/-- Once its tables are open, a rebuild has the ways to them. -/
theorem hasWay (hw : w.Reliable) (hmode : s.mode = .rebuild) (h : s.Renewable w files)
    (hstart : (Run.new s files).start s w = (r₀, .ok ())) : s.HasWay files := by
  have hready : r₀.books.Ready s files := Run.start_ready hw h.wellFormed rfl rfl hstart
  have hplace : r₀.files.destination s.newDatabasePath = s.draft files :=
    FileTree.destination_congr hready.retabled.workingDir _
  obtain ⟨table, htable⟩ := Option.isSome_iff_exists.1
    (hready.tables (s.draft files) (Setup.mem_tablePlaces.2 (.inr ⟨by rw [hmode]; rfl, rfl⟩)))
  have hfind := hready.retabled.wellFormed.find_of_leads
    ((FileTree.leads_congr hready.retabled.workingDir).2 h.leads')
    (hplace ▸ FileTree.tableAt?_eq_some.1 htable)
  intro d hd
  refine hready.retabled.directory d ((FileTree.route_of_find hfind).1 d ?_)
  have hroute := FileTree.route_congr hready.retabled.workingDir s.newDatabasePath
  exact hroute.symm ▸ hd

theorem opening (hw : w.Sound) (hmode : s.mode = .rebuild) (h : s.Renewable w files)
    (hstart : (Run.new s files).start s w = (r₀, .ok ())) :
    (∃ t₁, Opening s files t₁ r₀.files) ∧
      r₀.target = some ⟨s.newDatabasePath, some (s.draft files), .empty⟩ := by
  have hd : s.mode.isDestructive := by rw [hmode]; rfl
  have hready : r₀.books.Ready s files := Run.start_ready hw.toReliable h.wellFormed rfl rfl hstart
  have hway := h.hasWay hw.toReliable hmode hstart
  obtain ⟨t, t₁, table, table₁, moment, hedited, hwf, hkept, hnone, hopens, hopens', hr₀⟩ :=
    start_renews hd hw.toReliable h.wellFormed hway hstart
  -- The new table is opened where nothing is.
  have hdraft : t.destination s.newDatabasePath = s.draft files :=
    FileTree.destination_congr hedited.workingDir _
  have hroom : t.HasRoom s.newDatabasePath :=
    FileTree.hasRoom_of_openTable s.not_isFileless_newDatabasePath hwf (hdraft ▸ hnone) hopens
  obtain ⟨rfl, rfl⟩ :
      t.put (s.draft files) (.file (.songs .empty)) = t₁ ∧ SongTable.empty = table₁ := by
    have hnew := FileTree.openTable_of_hasRoom s.not_isFileless_newDatabasePath hroom
      (hdraft ▸ hnone)
    rw [hopens, hdraft] at hnew
    simpa [eq_comm] using hnew
  have hopened := FileTree.openTable_cases t s.newDatabasePath
  rw [hopens] at hopened
  have hthere : ∀ l ∈ s.tablePlaces files, r₀.files.HasFile l := fun l hl => by
    obtain ⟨table, htable⟩ := Option.isSome_iff_exists.1 (hready.tables l hl)
    exact ⟨_, FileTree.tableAt?_eq_some.1 htable⟩
  have hparent := hroom.parent
  have hshort := hroom.short
  rw [hdraft] at hparent hshort
  refine ⟨⟨_, hopened.wellFormed hwf, hedited.put (by simp) (s.draft_ne_nil files) _,
    hkept.opened hwf hopened, ?_, hshort, h.hasFile, ⟨table, hopens'⟩,
    hthere _ (Setup.mem_tablePlaces.2 (.inl ⟨h.hasFile, rfl⟩)),
    hthere _ (Setup.mem_tablePlaces.2 (.inr ⟨hd, rfl⟩)),
    journal_of_start hd hw.toReliable h.wellFormed hway hstart⟩, ?_⟩
  · rw [FileTree.get?_put _ (s.draft_ne_nil files), if_neg]
    · exact hparent
    · intro hsame
      have hlength := congrArg List.length hsame
      have hpos := List.length_pos_of_ne_nil (s.draft_ne_nil files)
      rw [List.length_dropLast] at hlength
      omega
  · rw [hr₀]
    simp [FileTree.tableFile?, s.not_isFileless_newDatabasePath, hroom.location, hdraft]

/-- **Both runs open their tables**, and find the same files elsewhere. -/
theorem starts (hw : w.Sound) (hmode : s.mode = .rebuild) (h : s.Renewable w files) :
    ∃ r₀ r₀', Renewal s w files r₀ r₀' := by
  obtain ⟨r₀, hstart⟩ : ∃ r₀, (Run.new s files).start s w = (r₀, .ok ()) := by
    have hopens := h.opens
    generalize (Run.new s files).start s w = started at hopens
    obtain ⟨r₀, failure | _⟩ := started
    · cases hopens
    · exact ⟨r₀, rfl⟩
  obtain ⟨⟨t₁, hopening⟩, htarget⟩ := h.opening hw hmode hstart
  have hready : r₀.books.Ready s files := Run.start_ready hw.toReliable h.wellFormed rfl rfl hstart
  have hwf := hopening.wellFormed_cleared h.wellFormed
  -- The other run has a new table where the library had its own.
  have hplace : (s.cleared files).destination s.databasePath = s.library files :=
    FileTree.destination_congr (Setup.cleared_edited hopening.ne_nil).workingDir _
  have hlocation : (s.cleared files).tableFile? s.databasePath = some (s.library files) := by
    rw [FileTree.tableFile?, if_neg h.hasFile, hopening.hasRoom.location, hplace]
  obtain ⟨moment, hopens⟩ := Run.openTable_of_opens (r := Run.new s.adding (s.cleared files)) hw
    hopening.openTable_cleared
  rw [show (Run.new s.adding (s.cleared files)).files = s.cleared files from rfl, hlocation]
    at hopens
  have hstart' : (Run.new s.adding (s.cleared files)).start s.adding w =
      ({ Run.new s.adding (s.cleared files) with
          files := (s.cleared files).put (s.library files) (.file (.songs .empty)), moment
          primary := some ⟨s.databasePath, some (s.library files), .empty⟩
          phase := .prepare }, .ok ()) := by
    simp only [Run.start, Mode.isDestructive, Bool.false_eq_true, if_false, Run.openPrimary, hopens]
  have hready' := Run.start_ready (s := s.adding) hw.toReliable hwf rfl rfl hstart'
  refine ⟨r₀, _, hstart, hstart', hready, hready', htarget, rfl,
    hopening.sameElsewhere (by simp) (by simp) (by simp), hopening.library, hopening.draft,
    ⟨_, (hopening.get?_opened (by simp)).trans (if_pos rfl)⟩,
    (hopening.get?_opened (by simp)).trans (if_neg (s.draft_ne_library files)), ?_⟩
  refine hopening.both_edited.walk_eq hopening.wellFormed₀ hready'.retabled.wellFormed
    (hopening.sameElsewhere (by simp) (by simp) (by simp))
    (fun k hk => ⟨hopening.ne_directory hk, ?_⟩) fun k hk => ?_
  · rw [hopening.get?_opened hk]
    split <;> simp
  · rw [FileTree.destination_congr hopening.edited₀.workingDir]
    exact h.outside k hk

end Setup.Renewable

end Reconcile

end SongLibrary
