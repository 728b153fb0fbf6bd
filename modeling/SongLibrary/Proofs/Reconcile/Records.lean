/-
  Records point to files.

  * `Kept.finish`: closing the tables leaves every other file alone;
  * `records_lead_to_files` is the main statement: where a library was in order, every
    record leads to a file after a run, with one exception: a rebuild that gives up
    its table leaves records behind whose files it has moved
    (`stopped_rebuild_loses_files`).
-/
import SongLibrary.Proofs.Reconcile.Adding
import SongLibrary.Proofs.Reconcile.Moving
import SongLibrary.Proofs.Reconcile.Still

namespace SongLibrary.Reconcile

open FileTree (Retabled)

variable {s : Setup} {w : Services} {files : FileTree} {r r' : Run}

/-! ## Before the tables are closed -/

/-- **Where the records of a run point before its tables are closed.** -/
theorem live_backed (hw : w.Sound) (ho : s.Orderly files) (h : Reachable s w files none r)
    (hphase : r.phase = .finish) (hd : r.books.Direct files) :
    Kept s files r.books ∧
      (s.mode ≠ .rebuild → s.mode.isDestructive → r.books.moves = []) ∧
      ∀ t ∈ r.books.live, ∀ row ∈ t.table.rows, Backed s files r.files row.uri := by
  have hreached : ∀ {I : Books → Prop}, Books.Invariant s w files I → I r.books := fun hI =>
    Run.books_of_reachable hw ho.wellFormed hI h hphase hd
  -- Each kind of mode has its invariant: files are added, moved, or left where they are.
  by_cases hmoves : s.mode.allowsMoves
  · have hadding := hreached (Adding.invariant hw.toReliable ho hmoves)
    refine ⟨hadding.toKept, ?_, hadding.rows⟩
    intro hne hdestructive
    have hcheckNew := (Mode.rebuild_or_checkNew hmoves).resolve_left hne
    rw [hcheckNew] at hdestructive
    cases hdestructive
  · by_cases hmode : s.mode = .reorganize
    · have hmoving := hreached (Moving.invariant hmode ho.filed) fun move hmove =>
        ho.avoids (by rw [hmode]; decide) (hd move hmove)
      have hnone : r.target = none := by
        have htarget := hmoving.target
        rw [hmode] at htarget
        simpa [Mode.isDestructive, Run.books] using htarget
      refine ⟨hmoving.toKept, ?_, ?_⟩
      · intro _ hdestructive
        rw [hmode] at hdestructive
        cases hdestructive
      · intro t ht row hrow
        refine (hmoving.rows t (by simpa [Books.live, Run.books, hnone] using ht) row
          hrow).resolve_right fun hlost => ?_
        obtain ⟨old, hold, -, huri⟩ := hlost.old
        exact hlost.before (huri ▸ (ho.backed hold).file)
    · have hstill := hreached (Still.invariant hw.toReliable ho (by simpa using hmoves) hmode)
      refine ⟨hstill.toKept, fun _ _ => hstill.moves, ?_⟩
      intro t ht
      rcases Option.or_eq_some_iff.1 ht with htarget | ⟨-, hprimary⟩
      · exact hstill.rows t (.inr htarget)
      · exact hstill.rows t (.inl hprimary)

/-! ## Closing the tables -/

namespace Run

variable {r₁ : Run} {result : Except Failure Unit} {t : FileTree} {gone : List Location}

/-- Closing the new table changes its file alone. -/
theorem closeTarget_retabled (hw : w.Reliable) (hr : Retabled gone gone t r.files)
    (hplaces : ∀ target ∈ r.target, t.destination target.path ∈ gone ∧
      ∀ l ∈ target.location, l ≠ [] ∧ l ∈ gone ∧ l ∈ gone)
    (h : r.closeTarget w = (r', result)) : Retabled gone gone t r'.files := by
  unfold closeTarget at h
  split at h
  · cases h
    exact hr
  · next target htarget =>
    obtain ⟨hpath, hlocation⟩ := hplaces target htarget
    dsimp only at h
    split at h
    · unfold discard at h
      split at h
      · cases h
        exact hr
      · have hremoved := removeFile_cases hw ({ r with target := none } : Run).asked target.path
        rw [h] at hremoved
        have hr' : Retabled gone gone t ({ r with target := none } : Run).asked.files := hr
        exact hremoved.retabled hr' hpath
    · have hcommits := commit_cases w { r with target := none } target
      rw [h] at hcommits
      have hr' : Retabled gone gone t ({ r with target := none } : Run).files := hr
      exact hcommits.retabled hr' hlocation

/-- Closing the table of the library changes its file alone. -/
theorem closePrimary_retabled (hr : Retabled gone gone t r.files)
    (hplaces : ∀ primary ∈ r.primary, ∀ l ∈ primary.location, l ≠ [] ∧ l ∈ gone ∧ l ∈ gone)
    (h : r.closePrimary w = (r', result)) : Retabled gone gone t r'.files := by
  unfold closePrimary at h
  split at h
  · cases h
    exact hr
  · next primary hprimary =>
    have hcommits := commit_cases w { r with primary := none } primary
    rw [h] at hcommits
    have hr' : Retabled gone gone t ({ r with primary := none } : Run).files := hr
    exact hcommits.retabled hr' (hplaces primary hprimary)

/-- Putting the new table in the place of the old one changes these places. -/
theorem replaceTable_retabled {c : Content} (hr : Retabled gone gone t r.files)
    (hget : r.files.get? (s.draft t) = some (.file c)) (hdraft : s.draft t ∈ gone)
    (hlibrary : s.library t ∈ gone) (h : r.replaceTable s w = (r', result)) :
    Retabled gone gone t r'.files := by
  have hdest : ∀ p, r.files.destination p = t.destination p :=
    FileTree.destination_congr hr.workingDir
  unfold replaceTable at h
  dsimp only at h
  split at h
  · next t' hrenamed =>
    cases h
    split at hrenamed
    · cases hrenamed
    · have hfind := FileTree.find_of_rename (by rw [hdest]; exact hget) hrenamed
      refine hr.renamed hfind hrenamed ?_ ?_ ?_
      · rw [hdest]
        exact hdraft
      · rw [hdest]
        exact hlibrary
      · rw [hdest]
        exact hlibrary
  · cases h
    exact hr

end Run

namespace Kept

variable {r₁ r₂ r₃ : Run} {result : Except Failure Unit}

theorem ne_nil {b : Books} {l : Location} (h : Kept s files b) (hl : l ∈ s.tablePlaces files) :
    l ≠ [] := by
  obtain ⟨table, htable⟩ := Option.isSome_iff_exists.1 (h.tables l hl)
  exact FileTree.ne_nil_of_get? (FileTree.tableAt?_eq_some.1 htable)

theorem spares {l : Location} (h : Kept s files r.books) (hl : l ∈ s.tablePlaces files) :
    r.Spares files l :=
  fun move hmove => h.spared l hl move hmove

theorem destination (h : Kept s files r.books) (p : Path) :
    r.files.destination p = files.destination p :=
  FileTree.destination_congr h.workingDir p

theorem target_place {target : OpenTable} (h : Kept s files r.books) (hsome : r.target = some target) :
    s.mode.isDestructive ∧ target.path = s.newDatabasePath ∧
      target.location = some (s.draft files) := by
  have hplaces := h.target
  rw [show r.books.target = some target from hsome] at hplaces
  split at hplaces
  · next hd => simpa [hd] using hplaces
  · cases hplaces

theorem primary_place {primary : OpenTable} (h : Kept s files r.books)
    (hfile : ¬ FileTree.isFileless s.databasePath) (hsome : r.primary = some primary) :
    primary.location = some (s.library files) := by
  have hlocation := h.primary
  rw [show r.books.primary = some primary from hsome, if_neg hfile] at hlocation
  exact Option.some.inj hlocation

theorem closeTarget (hw : w.Reliable) (h : Kept s files r.books)
    (h₁ : { r with source := none }.closeTarget w = (r₁, result)) :
    Retabled (s.tablePlaces files) (s.tablePlaces files) r.files r₁.files ∧
      r₁.primary = r.primary := by
  have hkeeps := Run.closeTarget_keeps (w := w) (r := { r with source := none })
  rw [h₁] at hkeeps
  have hr : Retabled (s.tablePlaces files) (s.tablePlaces files) r.files
      ({ r with source := none } : Run).files := .refl h.wellFormed
  refine ⟨Run.closeTarget_retabled hw hr ?_ h₁, ?_⟩
  · intro target hsome
    obtain ⟨hd, hpath, hlocation⟩ := h.target_place hsome
    have hdraft : s.draft files ∈ s.tablePlaces files := Setup.mem_tablePlaces.2 (.inr ⟨hd, rfl⟩)
    rw [hpath, hlocation, h.destination]
    refine ⟨hdraft, ?_⟩
    intro l hl
    cases hl
    exact ⟨s.draft_ne_nil files, hdraft, hdraft⟩
  · obtain ⟨_, _, _, rfl⟩ := hkeeps
    rfl

theorem closePrimary (hw : w.Reliable) (h : Kept s files r.books)
    (hfile : ¬ FileTree.isFileless s.databasePath)
    (h₁ : { r with source := none }.closeTarget w = (r₁, .ok ()))
    (h₂ : r₁.closePrimary w = (r₂, result)) :
    Retabled (s.tablePlaces files) (s.tablePlaces files) r.files r₂.files := by
  have hlibrary : s.library files ∈ s.tablePlaces files := Setup.mem_tablePlaces.2 (.inl ⟨hfile, rfl⟩)
  obtain ⟨hretabled, hsame⟩ := h.closeTarget hw h₁
  refine Run.closePrimary_retabled hretabled ?_ h₂
  intro primary hsome
  rw [hsame] at hsome
  rw [h.primary_place hfile hsome]
  intro l hl
  cases hl
  exact ⟨h.ne_nil hlibrary, hlibrary, hlibrary⟩

theorem replaceTable (hw : w.Reliable) (h : Kept s files r.books)
    (hfile : ¬ FileTree.isFileless s.databasePath) (hg : s.mode.isDestructive → Guarded s files r)
    (h₁ : { r with source := none }.closeTarget w = (r₁, .ok ()))
    (h₂ : r₁.closePrimary w = (r₂, .ok ())) (hnew : r.target.isSome ∧ r₂.stopped = false)
    (h₃ : r₂.replaceTable s w = (r₃, result)) :
    Retabled (s.tablePlaces files) (s.tablePlaces files) r.files r₃.files := by
  obtain ⟨target, hsome⟩ := Option.isSome_iff_exists.1 hnew.1
  have hd := (h.target_place hsome).1
  have hlibrary : s.library files ∈ s.tablePlaces files := Setup.mem_tablePlaces.2 (.inl ⟨hfile, rfl⟩)
  have hdraft : s.draft files ∈ s.tablePlaces files := Setup.mem_tablePlaces.2 (.inr ⟨hd, rfl⟩)
  obtain ⟨hstopped, -, hclosed⟩ := (hg hd).closed hw (h.spares hlibrary) (h.spares hdraft) h₁ h₂
  rw [← hstopped, hnew.2, if_neg Bool.false_ne_true] at hclosed
  obtain ⟨table, htable, -⟩ := hclosed
  have hsame : s.draft r.files = s.draft files ∧ s.library r.files = s.library files :=
    ⟨h.destination _, h.destination _⟩
  refine Run.replaceTable_retabled (h.closePrimary hw hfile h₁ h₂) (c := .songs table) ?_ ?_ ?_ h₃
  · rw [hsame.1]
    exact FileTree.tableAt?_eq_some.1 htable
  · rw [hsame.1]
    exact hdraft
  · rw [hsame.2]
    exact hlibrary

/-- **Closing the tables leaves every other file alone.** -/
theorem finish (hw : w.Reliable) (h : Kept s files r.books)
    (hfile : ¬ FileTree.isFileless s.databasePath) (hg : s.mode.isDestructive → Guarded s files r)
    (hf : r.finish s w = (r', result)) :
    Retabled (s.tablePlaces files) (s.tablePlaces files) r.files r'.files := by
  have hfinished := r.finish_cases s w
  rw [hf] at hfinished
  generalize hresult : (r', result) = outcome at hfinished
  cases hfinished with
  | targetFails h₁ =>
    cases hresult
    exact (h.closeTarget hw h₁).1
  | primaryFails h₁ h₂ =>
    cases hresult
    exact h.closePrimary hw hfile h₁ h₂
  | renameFails h₁ h₂ hnew h₃ =>
    cases hresult
    exact h.replaceTable hw hfile hg h₁ h₂ hnew h₃
  | @replaced _ _ r₃ h₁ h₂ hnew h₃ =>
    cases hresult
    have hlast := h.replaceTable hw hfile hg h₁ h₂ hnew h₃
    obtain ⟨sent, hreport⟩ := r₃.report_keeps false
    rw [hreport]
    exact hlast
  | @kept _ r₂ h₁ h₂ _ =>
    cases hresult
    have hlast := h.closePrimary hw hfile h₁ h₂
    obtain ⟨sent, hreport⟩ := r₂.report_keeps r.target.isSome
    rw [hreport]
    exact hlast

end Kept

/-! ## After the tables are closed -/

/-- A path that leads directly to a place finds the file there. -/
theorem read_iff {t : FileTree} {uri : String} (hwf : t.WellFormed)
    (hw : t.workingDir = files.workingDir) (hleads : files.Leads (resolve s.musicDir uri)) :
    (∃ c, t.read (resolve s.musicDir uri) = .ok c) ↔ t.HasFile (s.place files uri) := by
  have hdest : t.destination (resolve s.musicDir uri) = s.place files uri :=
    FileTree.destination_congr hw _
  constructor
  · rintro ⟨c, hread⟩
    obtain ⟨l, hfind⟩ := FileTree.read_eq_ok_iff.1 hread
    obtain ⟨-, -, -, -, hget⟩ := FileTree.find_file_iff.1 hfind
    rw [(FileTree.route_of_find hfind).2, hdest] at hget
    exact ⟨c, hget⟩
  · rintro ⟨c, hget⟩
    rw [← hdest] at hget
    exact ⟨c, FileTree.read_eq_ok_iff.2
      ⟨_, hwf.find_of_leads ((FileTree.leads_congr hw).2 hleads) hget⟩⟩

/-- A run that writes no new table leaves the rows of the table it has open. -/
theorem Kept.finish_rows {result : Except Failure Unit} (hw : w.Sound) (h : Kept s files r.books)
    (hfile : ¬ FileTree.isFileless s.databasePath) (hd : ¬ s.mode.isDestructive)
    (hf : r.finish s w = (r', result)) :
    ∃ primary ∈ r.books.live, r'.files.rowsAt (s.library files) = primary.table.rows := by
  have hlibrary : s.library files ∈ s.tablePlaces files := Setup.mem_tablePlaces.2 (.inl ⟨hfile, rfl⟩)
  have hnone : r.target = none := by simpa [hd, Run.books] using h.target
  obtain ⟨primary, hprimary, -⟩ := Option.map_eq_some_iff.1 h.primary
  have hsome : r.primary = some primary := hprimary
  have hlocation := h.primary_place hfile hsome
  refine ⟨primary, by simp [Books.live, Run.books, hnone, hsome], ?_⟩
  have hfiles : r'.files = r.files.keepTable (s.library files) primary.table := by
    simp only [Run.finish, Run.closeTarget, hnone, Run.closePrimary, hsome, Run.commit,
      hw.tableFails, hlocation, Bool.false_eq_true, if_false, Option.isSome_none, Bool.false_and] at hf
    cases hf
    rw [Run.report_files]
  rw [hfiles]
  rcases r.files.keepTable_cases (s.library files) primary.table with ⟨hgone, -⟩ | ⟨-, hkeep⟩
  · have hthere := h.tables _ hlibrary
    rw [show r.books.files.tableAt? (s.library files) = none from hgone] at hthere
    cases hthere
  · rw [hkeep]
    exact FileTree.rowsAt_of_table (FileTree.tableAt?_put_self (h.ne_nil hlibrary) _)

/-- The rows of the library in the end: those of the table that the run has written,
    or those it had, if the run has given its table up. -/
theorem mem_rows_finish {result : Except Failure Unit} {row : Row} (hw : w.Sound)
    (hg : s.mode.isDestructive → Guarded s files r) (h : Kept s files r.books)
    (hfile : ¬ FileTree.isFileless s.databasePath) (hf : r.finish s w = (r', result))
    (hrow : row ∈ r'.files.rowsAt (s.library files)) :
    (∃ t ∈ r.books.live, row ∈ t.table.rows) ∧
        (s.mode.isDestructive → r.stopped = false ∧ result = .ok ()) ∨
      s.mode.isDestructive ∧ ¬ (r.stopped = false ∧ result = .ok ()) ∧ row ∈ s.rows files := by
  have hlibrary : s.library files ∈ s.tablePlaces files := Setup.mem_tablePlaces.2 (.inl ⟨hfile, rfl⟩)
  by_cases hd : s.mode.isDestructive
  · have hdraft : s.draft files ∈ s.tablePlaces files := Setup.mem_tablePlaces.2 (.inr ⟨hd, rfl⟩)
    obtain ⟨hrows, -⟩ := (hg hd).finish hw.toReliable (h.spares hlibrary) (h.spares hdraft) hf
    split at hrows
    · next hkept =>
      obtain ⟨target, hsome, -, -, hperm⟩ := (hg hd).target
      refine .inl ⟨⟨target, by simp [Books.live, Run.books, hsome], ?_⟩, fun _ => hkept⟩
      exact hperm.symm.subset (hrows.subset hrow)
    · next hgiven =>
      rw [hrows] at hrow
      refine .inr ⟨hd, hgiven, ?_⟩
      rw [Setup.rows, if_neg hfile]
      exact hrow
  · obtain ⟨primary, hlive, hrows⟩ := h.finish_rows hw hfile hd hf
    exact .inl ⟨⟨primary, hlive, hrows ▸ hrow⟩, fun hd' => absurd hd' hd⟩

/-- **Every record leads to a file after a run.**  The one exception is a rebuild that
    does not keep its table: then a record leads to its file unless the run has moved
    that away. -/
theorem records_lead_to_files {result : Except Failure Run.Progress} (hw : w.Sound)
    (ho : s.Orderly files) (h : Reachable s w files none r) (hphase : r.phase = .finish)
    (hs : r.step s w = (r', result)) (hd : ∀ move ∈ r'.history.moves, files.Leads move.2) :
    ∀ row ∈ s.rows r'.files, (∃ c, r'.files.read (resolve s.musicDir row.uri) = .ok c) ↔
      ¬ (s.mode = .rebuild ∧ ¬ (r.stopped = false ∧ result = .ok .done) ∧
        Vacated files (s.place files row.uri) r'.history.moves) := by
  intro row hrow
  by_cases hfile : FileTree.isFileless s.databasePath
  · simp [Setup.rows, hfile] at hrow
  obtain ⟨r₁, outcome, hact, hfiles, hhistory, hresult⟩ := act_of_step hs
  simp only [Run.act, hphase] at hact
  have hkept := r.finish_history s w
  rw [hact] at hkept
  have hmoves : r'.history.moves = r.books.moves := by rw [hhistory, hkept]; rfl
  have hdone : result = .ok .done ↔ outcome = .ok () := by
    rw [hresult, and_iff_left_iff_imp]
    rintro rfl
    exact Run.finish_phase hact
  rw [hmoves] at hd ⊢
  rw [hfiles] at hrow ⊢
  rw [hdone]
  obtain ⟨hk, hstill, hlive⟩ := live_backed hw ho h hphase hd
  have hg : s.mode.isDestructive → Guarded s files r := by
    intro hdestructive
    cases standing_of_reachable hdestructive hw.toReliable ho.wellFormed h with
    | fresh hstart _ _ => rw [hphase] at hstart; cases hstart
    | working _ hg => exact hg
    | ended hdone => rw [hphase] at hdone; cases hdone
  have hretabled := hk.finish hw.toReliable hfile hg hact
  have hw₁ : r₁.files.workingDir = files.workingDir := hretabled.workingDir.trans hk.workingDir
  have hlibrary : s.library r₁.files = s.library files := FileTree.destination_congr hw₁ _
  rw [Setup.rows, if_neg hfile, hlibrary] at hrow
  rcases mem_rows_finish hw hg hk hfile hact hrow with
    ⟨⟨t, ht, hmem⟩, hcommitted⟩ | ⟨hdestructive, hgiven, hold⟩
  · -- The record is one that the run has kept, and points to a file.
    have hb := hlive t ht row hmem
    refine iff_of_true ?_ ?_
    · rw [read_iff hretabled.wellFormed hw₁ hb.leads, hretabled.hasFile hb.apart]
      exact hb.file
    · rintro ⟨hrebuild, hgiven, -⟩
      exact hgiven (hcommitted (by rw [hrebuild]; rfl))
  · -- The record is one that the library had: its file is there unless it has moved.
    obtain ⟨p, hp, huri⟩ := ho.found row hold
    obtain ⟨hleads, hplace⟩ := ho.leads p hp
    rw [← huri] at hleads hplace
    have hapart := ho.apart row hold
    have hbefore : files.HasFile (s.place files row.uri) := hplace ▸ ho.hasFile hp
    have hpresent : r.files.HasFile (s.place files row.uri) ↔
        ¬ Vacated files (s.place files row.uri) r.books.moves := hk.present _ hapart hbefore
    rw [read_iff hretabled.wellFormed hw₁ hleads,
      hretabled.hasFile fun hmem => hapart (Setup.mem_places.2 (.inl hmem))]
    by_cases hrebuild : s.mode = .rebuild
    · simpa [hrebuild, hgiven] using hpresent
    · have hnone := hstill hrebuild hdestructive
      rw [hnone] at hpresent
      exact iff_of_true (hpresent.2 id) fun hlost => hrebuild hlost.1

theorem sampleServices_sound : sampleServices.Sound where
  toReliable := sampleServices_reliable
  tableFails _ := rfl

/-- A library of one song, which is not at its title. -/
def recordedFiles : FileTree where
  entries :=
    [([.ofString "music"], .directory),
      ([.ofString "music", .ofString "a.mp3"], .file (.text "a song")),
      ([.ofString "songs.db"], .file (.songs
        ⟨[Song.row ⟨none, "a.mp3", .ofList [(.title, "t")], "2020-01-01", 0, false⟩ 1], by simp⟩))]

theorem recordedFiles_orderly (mode : Mode) : (sampleSetup mode).Orderly recordedFiles where
  wellFormed := .of_entries (by decide +kernel) (by decide +kernel)
  listed := by decide +kernel
  found := show ∀ row ∈ (sampleSetup .rebuild).rows recordedFiles,
      ∃ p ∈ (sampleSetup .rebuild).scanned recordedFiles,
        row.uri = keyOf (sampleSetup .rebuild).musicDir p by decide +kernel
  distinct := show ((sampleSetup .rebuild).rows recordedFiles).Pairwise (·.uri ≠ ·.uri) by
    decide +kernel
  leads := show ∀ p ∈ (sampleSetup .rebuild).scanned recordedFiles,
      recordedFiles.Leads (resolve (sampleSetup .rebuild).musicDir
        (keyOf (sampleSetup .rebuild).musicDir p)) ∧
      (sampleSetup .rebuild).place recordedFiles (keyOf (sampleSetup .rebuild).musicDir p) =
        recordedFiles.destination p by decide +kernel
  same := show ∀ p ∈ (sampleSetup .rebuild).scanned recordedFiles,
      ∀ q ∈ (sampleSetup .rebuild).scanned recordedFiles,
      recordedFiles.destination p = recordedFiles.destination q →
        keyOf (sampleSetup .rebuild).musicDir p = keyOf (sampleSetup .rebuild).musicDir q by
    decide +kernel
  apart := by
    have hrebuild : ∀ row ∈ (sampleSetup .rebuild).rows recordedFiles,
        (sampleSetup .rebuild).place recordedFiles row.uri ∉
          (sampleSetup .rebuild).places recordedFiles := by decide +kernel
    intro row hrow hmem
    -- No other mode has more places.
    refine hrebuild row hrow (Setup.mem_places.2 ?_)
    rcases Setup.mem_places.1 hmem with hplace | ⟨-, hplace⟩
    · rcases Setup.mem_tablePlaces.1 hplace with hlibrary | ⟨-, hdraft⟩
      · exact .inl (Setup.mem_tablePlaces.2 (.inl hlibrary))
      · exact .inl (Setup.mem_tablePlaces.2 (.inr ⟨rfl, hdraft⟩))
    · exact .inr ⟨rfl, hplace⟩
  leftover _ := show (sampleSetup .rebuild).leftover recordedFiles = [] by decide +kernel

/-- A song is moved to its title, and its record leads there. -/
theorem records_lead_to_files_sample :
    ∃ r r' : Run, Reachable (sampleSetup .reorganize) sampleServices recordedFiles none r ∧
      r.phase = .finish ∧ r.step (sampleSetup .reorganize) sampleServices = (r', .ok .done) ∧
      r'.history.moves.length = 1 ∧ ((sampleSetup .reorganize).rows r'.files).length = 1 ∧
      ∀ row ∈ (sampleSetup .reorganize).rows r'.files,
        ∃ c, r'.files.read (resolve (sampleSetup .reorganize).musicDir row.uri) = .ok c := by
  have h : Reachable (sampleSetup .reorganize) sampleServices recordedFiles none
      (Run.steps (sampleSetup .reorganize) sampleServices 4
        (.new (sampleSetup .reorganize) recordedFiles)) :=
    Run.reachable_steps .new (by decide +kernel)
  have hphase : (Run.steps (sampleSetup .reorganize) sampleServices 4
      (.new (sampleSetup .reorganize) recordedFiles)).phase = .finish := by decide +kernel
  refine ⟨_, _, h, hphase, Prod.ext rfl (by decide +kernel), by decide +kernel, by decide +kernel, ?_⟩
  intro row hrow
  refine (records_lead_to_files sampleServices_sound (recordedFiles_orderly _) h hphase
    (Prod.ext rfl rfl) (by decide +kernel) row hrow).2 ?_
  rintro ⟨hmode, -⟩
  cases hmode

/-- **A rebuild that is stopped may leave records behind whose files it has moved**,
    though no operation failed. -/
theorem stopped_rebuild_loses_files :
    (sampleSetup .rebuild).Orderly recordedFiles ∧
      ∃ r r' : Run, Reachable (sampleSetup .rebuild) sampleServices recordedFiles none r ∧
        r.phase = .finish ∧ r.stopped ∧
        r.step (sampleSetup .rebuild) sampleServices = (r', .ok .done) ∧
        ∃ row ∈ (sampleSetup .rebuild).rows r'.files,
          ¬ (r'.files.read (resolve (sampleSetup .rebuild).musicDir row.uri)).isOk := by
  have hmoved : Reachable (sampleSetup .rebuild) sampleServices recordedFiles none
      (Run.steps (sampleSetup .rebuild) sampleServices 3
        (.new (sampleSetup .rebuild) recordedFiles)) :=
    Run.reachable_steps .new (by decide +kernel)
  have h := Run.reachable_steps (n := 1) (hmoved.control .stopRequest) (by decide +kernel)
  exact ⟨recordedFiles_orderly _, _, _, h, by decide +kernel, by decide +kernel,
    Prod.ext rfl (by decide +kernel), by decide +kernel⟩

end SongLibrary.Reconcile
