/-
  Records stay at locations of their own.

  * `live_unique`: so are the rows of the table that a run writes;
  * `locations_stay_distinct` is the main statement: where records were at locations of
    their own, they are so after a run, as long as no file is moved to or from the place of
    a record whose file is missing; otherwise two records may come to be at one
    (`locations_collide`).
-/
import SongLibrary.Proofs.Reconcile.Fixed
import SongLibrary.Proofs.Reconcile.Recording
import SongLibrary.Proofs.Reconcile.Records

namespace SongLibrary.Reconcile

open SongTable (OwnLocations)

variable {s : Setup} {w : Services} {files : FileTree} {b : Books} {r r' : Run}

/-- Where files are moved, rows with one location are at the place of one file, or are
    those of records that there were. -/
theorem Moving.unique {t : OpenTable} (ha : s.Addressed files) (hmode : s.mode = .reorganize)
    (h : Moving s files b) (ht : t ∈ b.primary) : OwnLocations t.table.rows := by
  intro row hrow row' hrow' huri
  have hplace : s.place files row.uri = s.place files row'.uri := by rw [huri]
  by_cases hfile : b.files.HasFile (s.place files row.uri)
  · exact h.distinct t ht row hrow row' hrow' hfile hplace
  · have hknown : ∀ row ∈ t.table.rows, ¬ b.files.HasFile (s.place files row.uri) →
        IsKnown s files row := by
      intro row hrow hnot
      obtain ⟨old, hold, hid, hsame⟩ := ((h.rows t ht row hrow).resolve_left (hnot ·.file)).old
      exact ⟨old, by simpa [Setup.known, hmode] using hold, hid.symm, hsame.symm⟩
    exact ha.id_eq (hknown row hrow hfile) (hknown row' hrow' (hplace ▸ hfile)) huri

/-- **The rows of the table that a run writes are at locations of their own.** -/
theorem live_unique (hw : w.Sound) (ha : s.Addressed files)
    (hf : s.mode = .reorganize → s.Filed files) (h : Reachable s w files none r)
    (hphase : r.phase = .finish) (havoids : ∀ move ∈ r.books.moves, s.Avoids files move) :
    Kept s files r.books ∧ ∀ t ∈ r.books.live, OwnLocations t.table.rows := by
  have hreached : ∀ {I : Books → Prop}, Books.Invariant s w files I → I r.books := fun hI =>
    Run.books_of_reachable hw ha.wellFormed hI h hphase fun move hmove => (havoids move hmove).leads
  by_cases horigin : s.mode.origin = .fileTree
  · have hrecording := hreached (Recording.invariant hw.toReliable ha horigin) havoids
    exact ⟨hrecording.toKept, hrecording.unique⟩
  by_cases hmode : s.mode = .reorganize
  · have hmoving := hreached (Moving.invariant hmode (hf hmode)) havoids
    have hnone : r.books.target = none := by simpa [hmode, Mode.isDestructive] using hmoving.target
    refine ⟨hmoving.toKept, fun t ht => ?_⟩
    exact hmoving.unique ha hmode (by simpa [Books.live, hnone] using ht)
  · have hfixed := hreached (Fixed.invariant hw.toReliable ha horigin hmode)
    refine ⟨hfixed.toKept, fun t ht row hrow row' hrow' huri => ?_⟩
    have hopen : r.books.primary = some t ∨ r.books.target = some t :=
      (Option.or_eq_some_iff.1 ht).elim .inr fun h => .inl h.2
    exact ha.id_eq (hfixed.rows t hopen row hrow) (hfixed.rows t hopen row' hrow') huri

/-- Closing the tables leaves records at locations of their own. -/
theorem Kept.finish_distinct {result : Except Failure Unit} (hw : w.Sound)
    (hg : s.mode.isDestructive → Guarded s files r) (h : Kept s files r.books)
    (hold : (s.rows files).Pairwise (·.uri ≠ ·.uri))
    (hlive : ∀ t ∈ r.books.live, OwnLocations t.table.rows)
    (hf : r.finish s w = (r', result)) : (s.rows r'.files).Pairwise (·.uri ≠ ·.uri) := by
  by_cases hfile : FileTree.isFileless s.databasePath
  · simp [Setup.rows, hfile]
  have hlibrary : s.library r'.files = s.library files :=
    FileTree.destination_congr ((h.finish hw.toReliable hfile hg hf).workingDir.trans h.workingDir) _
  obtain ⟨table, htable⟩ := s.exists_table r'.files
  obtain ⟨old, hrows⟩ := s.exists_table files
  rw [hrows, SongTable.pairwise_uri_iff, ← hrows] at hold
  rw [htable, SongTable.pairwise_uri_iff, ← htable]
  intro row hrow row' hrow' huri
  rw [Setup.rows, if_neg hfile, hlibrary] at hrow hrow'
  -- Both are rows of the table that the run has written, or both are records that there were.
  rcases mem_rows_finish hw hg h hfile hf hrow with
      ⟨⟨t, ht, hmem⟩, hcommitted⟩ | ⟨hd, hgiven, hmem⟩ <;>
    rcases mem_rows_finish hw hg h hfile hf hrow' with
      ⟨⟨t', ht', hmem'⟩, hcommitted'⟩ | ⟨hd', hgiven', hmem'⟩
  · obtain rfl : t = t' := Option.some.inj (ht.symm.trans ht')
    exact hlive t ht row hmem row' hmem' huri
  · exact absurd (hcommitted hd') hgiven'
  · exact absurd (hcommitted' hd) hgiven
  · exact hold row hmem row' hmem' huri

/-- **Records stay at locations of their own**, as long as the moves of a run avoid the
    places of records whose files are missing.  Where every file is to be moved, records
    point to files of their own before, or to none. -/
theorem locations_stay_distinct {result : Except Failure Run.Progress} (hw : w.Sound)
    (ha : s.Addressed files) (hf : s.mode = .reorganize → s.Filed files)
    (h : Reachable s w files none r) (hphase : r.phase = .finish)
    (hs : r.step s w = (r', result)) (havoids : ∀ move ∈ r'.history.moves, s.Avoids files move) :
    (s.rows r'.files).Pairwise (·.uri ≠ ·.uri) := by
  obtain ⟨r₁, outcome, hact, hfiles, hhistory, -⟩ := act_of_step hs
  simp only [Run.act, hphase] at hact
  have hmoves : r'.history.moves = r.books.moves := by
    have hkept := r.finish_history s w
    rw [hact] at hkept
    rw [hhistory, hkept]
    rfl
  obtain ⟨hkept, hlive⟩ := live_unique hw ha hf h hphase (hmoves ▸ havoids)
  rw [hfiles]
  exact hkept.finish_distinct hw
    (fun hd => guarded_of_reachable hd hw.toReliable ha.wellFormed h hphase) ha.distinct hlive hact

/-- A library of one file, with a table. -/
def oneFile (table : SongTable) : FileTree where
  entries :=
    [([.ofString "music"], .directory),
      ([.ofString "music", .ofString "a.mp3"], .file (.text "a song")),
      ([.ofString "songs.db"], .file (.songs table))]

/-- A song with a title. -/
def titled (uri : String) : Song :=
  { Song.new uri "2020-01-01" with tags := .ofList [(.title, "t")] }

/-- A library with records of its file and of one that is missing. -/
def missingFiles : FileTree :=
  oneFile ⟨[(titled "a.mp3").row 1, (titled "gone.mp3").row 2], by decide⟩

theorem missingFiles_addressed : (sampleSetup .reorganize).Addressed missingFiles where
  wellFormed := .of_entries (by decide +kernel) (by decide +kernel)
  listed := by decide +kernel
  musicDir := by decide +kernel
  root := by decide +kernel
  text := by decide +kernel
  distinct := by decide +kernel
  leftover hd := by cases hd

theorem missingFiles_filed : (sampleSetup .reorganize).Filed missingFiles where
  rows := by
    have hrows : ∀ row ∈ (sampleSetup .reorganize).rows missingFiles,
        missingFiles.Leads (resolve (sampleSetup .reorganize).musicDir row.uri) ∧
        (sampleSetup .reorganize).place missingFiles row.uri ∉
          (sampleSetup .reorganize).tablePlaces missingFiles := by decide +kernel
    intro row hrow
    obtain ⟨hleads, hapart⟩ := hrows row hrow
    exact (Decidable.em _).imp_left (⟨hleads, ·, hapart⟩)
  distinct := by decide +kernel

/-- A file is moved to its title, and the record of one that is missing stays. -/
theorem locations_stay_distinct_missing :
    ∃ r r' : Run, Reachable (sampleSetup .reorganize) sampleServices missingFiles none r ∧
      r.phase = .finish ∧ r.step (sampleSetup .reorganize) sampleServices = (r', .ok .done) ∧
      r'.history.moves.length = 1 ∧
      ((sampleSetup .reorganize).rows r'.files).map (·.uri) = ["t.mp3", "gone.mp3"] ∧
      ((sampleSetup .reorganize).rows r'.files).Pairwise (·.uri ≠ ·.uri) := by
  have h : Reachable (sampleSetup .reorganize) sampleServices missingFiles none
      (Run.steps (sampleSetup .reorganize) sampleServices 4
        (.new (sampleSetup .reorganize) missingFiles)) :=
    Run.reachable_steps .new (by decide +kernel)
  have hphase : (Run.steps (sampleSetup .reorganize) sampleServices 4
      (.new (sampleSetup .reorganize) missingFiles)).phase = .finish := by decide +kernel
  exact ⟨_, _, h, hphase, Prod.ext rfl (by decide +kernel), by decide +kernel, by decide +kernel,
    locations_stay_distinct sampleServices_sound missingFiles_addressed (fun _ => missingFiles_filed)
      h hphase (Prod.ext rfl rfl) (by decide +kernel)⟩

/-- A library with a record of a missing file, which is where its file is to be. -/
def expectedFiles : FileTree :=
  oneFile ⟨[(titled "t.mp3").row 1], by decide⟩

/-- **A new file may be moved to the place of a record whose file is missing**: then there
    are two records at one location. -/
theorem locations_collide :
    (sampleSetup .checkNew).Addressed expectedFiles ∧
      ∃ r r' : Run, Reachable (sampleSetup .checkNew) sampleServices expectedFiles none r ∧
        r.phase = .finish ∧ r.step (sampleSetup .checkNew) sampleServices = (r', .ok .done) ∧
        ((sampleSetup .checkNew).rows r'.files).map (·.uri) = ["t.mp3", "t.mp3"] ∧
        ¬ ((sampleSetup .checkNew).rows r'.files).Pairwise (·.uri ≠ ·.uri) := by
  have ha : (sampleSetup .checkNew).Addressed expectedFiles :=
    { wellFormed := .of_entries (by decide +kernel) (by decide +kernel)
      listed := by decide +kernel
      musicDir := by decide +kernel
      root := by decide +kernel
      text := by decide +kernel
      distinct := by decide +kernel
      leftover := fun hd => by cases hd }
  have h : Reachable (sampleSetup .checkNew) sampleServices expectedFiles none
      (Run.steps (sampleSetup .checkNew) sampleServices 4
        (.new (sampleSetup .checkNew) expectedFiles)) :=
    Run.reachable_steps .new (by decide +kernel)
  exact ⟨ha, _, _, h, by decide +kernel, Prod.ext rfl (by decide +kernel), by decide +kernel,
    by decide +kernel⟩

end SongLibrary.Reconcile
