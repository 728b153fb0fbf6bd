/-
  What a destructive run leaves that is not stopped.

  `Guarded.replaces`: when such a run ends, the table of the library has the rows of the
  new table, there is nothing where that was, and everything else is as it was before the
  tables were closed.
-/
import SongLibrary.Proofs.Reconcile.Records

namespace SongLibrary.Reconcile

open FileTree (Retabled)

variable {s : Setup} {w : Services} {files : FileTree} {r r' : Run}

/-- After the final rename there is nothing where the new table was. -/
theorem Run.get?_draft_of_replaceTable {c : Content}
    (hget : r.files.get? (s.draft r.files) = some (.file c))
    (h : r.replaceTable s w = (r', .ok ())) : r'.files.get? (s.draft r.files) = none := by
  unfold Run.replaceTable at h
  dsimp only at h
  split at h
  · next t hrename =>
    cases h
    split at hrename
    · cases hrename
    · have hfind := FileTree.find_of_rename hget hrename
      obtain ⟨k, hlands, -, rfl⟩ := (FileTree.rename_eq_ok_iff hfind).1 hrename
      have hk : k = s.library r.files := hlands.eq_destination
      have hne := s.draft_ne_library r.files
      have hsame : r.files.destination s.newDatabasePath = s.draft r.files := rfl
      rw [hsame, hk, if_neg hne, FileTree.get?_put _ (hk ▸ hlands.ne_nil), if_neg hne,
        FileTree.get?_erase _ (s.draft_ne_nil r.files), if_pos rfl]
  · cases h

/-- What a run leaves that puts its new table in the place of the old one. -/
structure Replaces (s : Setup) (files : FileTree) (r r' : Run) : Prop where
  rows : ∃ target, r.target = some target ∧ (s.rows r'.files).Perm
    (if FileTree.isFileless s.databasePath then [] else target.table.rows)
  elsewhere : ∀ m, m ≠ s.library files → m ≠ s.draft files → r'.files.get? m = r.files.get? m
  draft : r'.files.get? (s.draft files) = none

/-- The places of the table of the library and of the new table. -/
abbrev Setup.bothTables (s : Setup) (files : FileTree) : List Location :=
  [s.library files, s.draft files]

namespace Guarded

variable {r₁ r₂ : Run}

theorem places_eq (h : Guarded s files r) :
    s.draft r.files = s.draft files ∧ s.library r.files = s.library files :=
  ⟨FileTree.destination_congr h.workingDir _, FileTree.destination_congr h.workingDir _⟩

theorem closeTarget_retabled (h : Guarded s files r) (hw : w.Reliable)
    (h₁ : { r with source := none }.closeTarget w = (r₁, .ok ())) :
    Retabled (s.bothTables files) (s.bothTables files) r.files r₁.files := by
  have hr : Retabled (s.bothTables files) (s.bothTables files) r.files
      ({ r with source := none } : Run).files := .refl h.wellFormed
  obtain ⟨target, htarget, hpath, hlocation, -⟩ := h.target
  refine Run.closeTarget_retabled hw hr ?_ h₁
  intro target' hsome
  obtain rfl : target = target' := Option.some.inj (htarget.symm.trans hsome)
  have hdraft : r.files.destination s.newDatabasePath = s.draft files := h.places_eq.1
  rw [hpath, hlocation, hdraft]
  refine ⟨by simp, ?_⟩
  intro l hl
  cases hl
  exact ⟨s.draft_ne_nil files, by simp, by simp⟩

theorem closePrimary_retabled (h : Guarded s files r) (hw : w.Reliable)
    (h₁ : { r with source := none }.closeTarget w = (r₁, .ok ()))
    (h₂ : r₁.closePrimary w = (r₂, .ok ())) :
    Retabled (s.bothTables files) (s.bothTables files) r.files r₂.files := by
  refine Run.closePrimary_retabled (h.closeTarget_retabled hw h₁) ?_ h₂
  intro primary hsome
  obtain ⟨_, _, _, hkeeps⟩ := Run.closeTarget_keeps (w := w) (r := { r with source := none })
  rw [h₁] at hkeeps
  subst hkeeps
  obtain ⟨primary', hprimary, hplace⟩ := h.primary
  obtain rfl : primary' = primary := Option.some.inj (hprimary.symm.trans hsome)
  intro l hl
  obtain ⟨rfl, hne, -⟩ := hplace l hl
  exact ⟨hne, by simp, by simp⟩

/-- **A run that is not stopped puts its new table in the place of the old one.** -/
theorem replaces (h : Guarded s files r) (hw : w.Reliable)
    (hlibrary : r.Spares files (s.library files)) (hdraft : r.Spares files (s.draft files))
    (hstop : r.stopped = false) (hf : r.finish s w = (r', .ok ())) : Replaces s files r r' := by
  obtain ⟨hrows, -⟩ := h.finish hw hlibrary hdraft hf
  rw [if_pos ⟨hstop, rfl⟩] at hrows
  obtain ⟨target, htarget, -, -, hperm⟩ := h.target
  have hfinished := r.finish_cases s w
  rw [hf] at hfinished
  generalize hresult : (r', Except.ok ()) = outcome at hfinished
  -- A run that is not stopped and does not fail has come to the rename.
  cases hfinished with
  | @replaced r₁ r₂ r₃ h₁ h₂ hnew h₃ =>
    cases hresult
    rw [Run.report_files] at hrows
    obtain ⟨hstopped, -, hclosed⟩ := h.closed hw hlibrary hdraft h₁ h₂
    rw [hstop, if_neg Bool.false_ne_true] at hclosed
    obtain ⟨table, htable, -⟩ := hclosed
    rw [FileTree.tableAt?_eq_some] at htable
    have hretabled := h.closePrimary_retabled hw h₁ h₂
    have hreplaced := Run.replaceTable_retabled (s := s) hretabled (h.places_eq.1 ▸ htable)
      (by simp [h.places_eq]) (by simp [h.places_eq]) h₃
    have hdest : s.draft r₂.files = s.draft files :=
      FileTree.destination_congr (hretabled.workingDir.trans h.workingDir) _
    refine ⟨⟨target, htarget, ?_⟩, ?_, ?_⟩
    · rw [Setup.rows, Run.report_files, show s.library r₃.files = s.library files from
        FileTree.destination_congr (hreplaced.workingDir.trans h.workingDir) _]
      split
      · exact .refl _
      · exact hrows.trans hperm.symm
    · intro m hlibrary hdraft
      rw [Run.report_files]
      exact hreplaced.get? m (by simp [hlibrary, hdraft])
    · rw [Run.report_files, ← hdest]
      exact Run.get?_draft_of_replaceTable (hdest ▸ htable) h₃
  | @kept r₁ r₂ h₁ h₂ hold =>
    obtain ⟨hstopped, -⟩ := h.closed hw hlibrary hdraft h₁ h₂
    simp [htarget, hstopped, hstop] at hold
  | _ => cases hresult

end Guarded

/-- **A destructive run that is not stopped, and has moved no file, puts its new table in
    the place of the old one.** -/
theorem replaces_of_reachable (hd : s.mode.isDestructive) (hw : w.Reliable)
    (hwf : files.WellFormed) (h : Reachable s w files none r) (hphase : r.phase = .finish)
    (hstop : r.stopped = false) (hmoves : r.history.moves = [])
    (hs : r.step s w = (r', .ok .done)) : Replaces s files r r' := by
  have hact := (Run.act_of_step_ok hs).1
  simp only [Run.act, hphase] at hact
  have hspares : ∀ l, r.Spares files l := fun l => by simp [Run.Spares, hmoves]
  exact (guarded_of_reachable hd hw hwf h hphase).replaces hw (hspares _) (hspares _) hstop hact

end SongLibrary.Reconcile
