/-
  How runs end that are not stopped.

  * The queue is nothing to how a run begins (`start_requeue`, `prepare_requeue`);
  * `Run.Concludes` is how a run ends: its tables cannot be opened, or it goes on until it is
    to close them, and does so (`concludes_of_reachable`);
  * states in which a job comes to the same end alike, aside from dates (`finish_alike`);
  * so runs that begin alike, and whose verdicts are known beforehand, end alike, however
    long their queues are and however many candidates they take at a time
    (`concludes_alike`).
-/
import SongLibrary.Proofs.FileTree.Dates
import SongLibrary.Proofs.Reconcile.Foreseeing
import SongLibrary.Proofs.Reconcile.Stopping

namespace SongLibrary.Reconcile

namespace Run

variable {s : Setup} {w : Services} {files : FileTree} {r r' r'' r₁ : Run}

/-! ## Another queue -/

/-- A state with another queue. -/
def requeue (queue : Queue Job) (r : Run) : Run :=
  { r with queue }

variable (queue : Queue Job)

theorem openTable_requeue (path : Path) : (r.requeue queue).openTable w path =
    ((r.openTable w path).1.requeue queue, (r.openTable w path).2) := by
  unfold openTable
  simp only [show (r.requeue queue).moment = r.moment from rfl,
    show (r.requeue queue).files = r.files from rfl]
  cases w.tableFails r.moment with
  | true => rfl
  | false =>
    rcases r.files.openTable path with ⟨files, _ | table⟩
    · rfl
    · simp only [Bool.false_eq_true, if_false,
        show (r.requeue queue).asked.moment = r.asked.moment from rfl]
      cases w.tableFails r.asked.moment <;> rfl

theorem removeFile_requeue (path : Path) : (r.requeue queue).removeFile w path =
    ((r.removeFile w path).1.requeue queue, (r.removeFile w path).2) := by
  unfold removeFile
  simp only [show (r.requeue queue).moment = r.moment from rfl,
    show (r.requeue queue).files = r.files from rfl]
  cases w.fileFault? r.moment with
  | some fault => cases fault <;> rfl
  | none =>
    rcases r.files.removeFile path with fault | files
    · cases fault <;> rfl
    · rfl

theorem openTarget_requeue : (r.requeue queue).openTarget s w =
    ((r.openTarget s w).1.requeue queue, (r.openTarget s w).2) := by
  unfold openTarget
  rw [removeFile_requeue]
  rcases r.removeFile w s.newDatabasePath with ⟨r₁, failure | _⟩
  · rfl
  · dsimp only
    rw [removeFile_requeue]
    rcases r₁.removeFile w (s.newDatabasePath.addSuffix "-journal") with ⟨r₂, failure | _⟩
    · rfl
    · dsimp only
      rw [openTable_requeue]
      rcases r₂.openTable w s.newDatabasePath with ⟨r₃, failure | table⟩ <;> rfl

theorem openPrimary_requeue : (r.requeue queue).openPrimary s w =
    ((r.openPrimary s w).1.requeue queue, (r.openPrimary s w).2) := by
  unfold openPrimary
  rw [openTable_requeue]
  rcases r.openTable w s.databasePath with ⟨r₁, failure | table⟩ <;> rfl

/-- The queue is nothing to opening the tables. -/
theorem start_requeue : (r.requeue queue).start s w =
    ((r.start s w).1.requeue queue, (r.start s w).2) := by
  unfold start
  cases s.mode.isDestructive with
  | false => exact openPrimary_requeue queue
  | true =>
    simp only [if_true]
    rw [openTarget_requeue]
    rcases r.openTarget s w with ⟨r₁, failure | _⟩
    · rfl
    · exact openPrimary_requeue queue

theorem chooseNextId_requeue : (r.requeue queue).chooseNextId s w =
    ((r.chooseNextId s w).1.requeue queue, (r.chooseNextId s w).2) := by
  unfold chooseNextId
  cases s.mode with
  | compact checkNew =>
    simp only [show (r.requeue queue).moment = r.moment from rfl,
      show (r.requeue queue).primary = r.primary from rfl]
    cases w.tableFails r.moment with
    | true => rfl
    | false => cases r.primary <;> rfl
  | _ => rfl

theorem openSource_requeue : (r.requeue queue).openSource s w =
    ((r.openSource s w).1.requeue queue, (r.openSource s w).2) := by
  unfold openSource
  simp only [show (r.requeue queue).stopped = r.stopped from rfl,
    show (r.requeue queue).moment = r.moment from rfl,
    show (r.requeue queue).primary = r.primary from rfl]
  cases r.stopped with
  | true => rfl
  | false =>
    cases s.mode.origin with
    | fileTree => rfl
    | table order =>
      cases w.tableFails r.moment with
      | true => rfl
      | false => cases r.primary <;> rfl

/-- The queue is nothing to preparing. -/
theorem prepare_requeue : (r.requeue queue).prepare s w =
    ((r.prepare s w).1.requeue queue, (r.prepare s w).2) := by
  unfold prepare
  rw [chooseNextId_requeue]
  rcases r.chooseNextId s w with ⟨r₁, failure | _⟩
  · rfl
  · dsimp only
    rw [openSource_requeue]
    rcases r₁.openSource s w with ⟨r₂, failure | _⟩ <;> rfl

/-! ## Where no operation on a table fails -/

theorem start_primary (h : r.start s w = (r', .ok ())) : r'.primary.isSome := by
  have hopened : ∀ {r : Run}, r.openPrimary s w = (r', .ok ()) → r'.primary.isSome := by
    intro r h
    unfold openPrimary at h
    split at h
    · cases h
    · cases h
      rfl
  unfold start at h
  split at h
  · split at h
    · cases h
    · exact hopened h
  · exact hopened h

theorem start_unstopped (h : (Run.new s files).start s w = (r, .ok ())) : r.stopped = false := by
  rw [show r = ((Run.new s files).start s w).1 by rw [h]]
  exact start_stopped

/-- Opening the tables changes these, and the files. -/
theorem start_keeps (s : Setup) (w : Services) (r : Run) : ∃ primary target files phase moment,
    (r.start s w).1 = { r with primary, target, files, phase, moment } := by
  have hprimary : ∀ {r : Run}, ∃ primary files phase moment,
      (r.openPrimary s w).1 = { r with primary, files, phase, moment } := by
    intro r
    obtain ⟨files, moment, hkeeps⟩ := openTable_filesOnly (w := w) (r := r) s.databasePath
    unfold openPrimary
    split
    · next hopen =>
      rw [hopen] at hkeeps
      exact ⟨r.primary, files, r.phase, moment, hkeeps⟩
    · next r₁ primary hopen =>
      rw [hopen] at hkeeps
      obtain rfl : r₁ = _ := hkeeps
      exact ⟨some primary, files, .prepare, moment, rfl⟩
  unfold start
  split
  · obtain ⟨target, files, moment, hkeeps⟩ := openTarget_keeps (s := s) (w := w) (r := r)
    split
    · next hopen =>
      rw [hopen] at hkeeps
      exact ⟨r.primary, target, files, r.phase, moment, hkeeps⟩
    · next r₁ hopen =>
      rw [hopen] at hkeeps
      obtain rfl : r₁ = _ := hkeeps
      obtain ⟨primary, files, phase, moment, heq⟩ := hprimary (r := { r with target, files, moment })
      exact ⟨primary, target, files, phase, moment, heq⟩
  · obtain ⟨primary, files, phase, moment, heq⟩ := hprimary (r := r)
    exact ⟨primary, r.target, files, phase, moment, heq⟩

theorem prepare_ok (hw : w.Sound) (hprimary : r.primary.isSome) :
    ∃ r', r.prepare s w = (r', .ok ()) := by
  obtain ⟨primary, hprimary⟩ := Option.isSome_iff_exists.1 hprimary
  obtain ⟨nextId, moment, hchoose⟩ : ∃ nextId moment,
      r.chooseNextId s w = ({ r with nextId, moment }, .ok ()) := by
    unfold chooseNextId
    split
    · rw [hw.tableFails, if_neg Bool.false_ne_true]
      split
      · next hnone => simp [hprimary] at hnone
      · exact ⟨_, r.moment + 1, rfl⟩
    · exact ⟨_, _, rfl⟩
  obtain ⟨r₂, hopen⟩ : ∃ r₂, Run.openSource s w { r with nextId, moment } = (r₂, .ok ()) := by
    unfold openSource
    split
    · exact ⟨_, rfl⟩
    · split
      · exact ⟨_, rfl⟩
      · simp only [hw.tableFails, hprimary]
        exact ⟨_, rfl⟩
  unfold prepare
  rw [hchoose]
  dsimp only
  rw [hopen]
  exact ⟨_, rfl⟩

theorem classify_ok (hw : w.Sound) (hprimary : r.primary.isSome) (c : Candidate) :
    (r.classify s w c).2 = .ok () := by
  obtain ⟨primary, hprimary⟩ := Option.isSome_iff_exists.1 hprimary
  rw [classify_eq]
  split
  · rfl
  · split
    · rfl
    · obtain ⟨moment, hexisting⟩ := existingRecord_eq (s := s) (r := r.see c) hw hprimary c
      rw [hexisting]

/-! ## Tables that stay where they are -/

/-- The tables are where they were, and that of the library is as it was if a new one is
    written. -/
structure SameTables (r r' : Run) : Prop where
  primary : r'.primary.map OpenTable.location = r.primary.map OpenTable.location
  target : r'.target.map OpenTable.location = r.target.map OpenTable.location
  library : r.target.isSome → r'.primary = r.primary

namespace SameTables

theorem refl (r : Run) : SameTables r r :=
  ⟨rfl, rfl, fun _ => rfl⟩

theorem target_isSome (h : SameTables r r') : r'.target.isSome = r.target.isSome := by
  simpa using congrArg Option.isSome h.target

theorem primary_isSome (h : SameTables r r') : r'.primary.isSome = r.primary.isSome := by
  simpa using congrArg Option.isSome h.primary

theorem trans (h : SameTables r r') (h' : SameTables r' r'') : SameTables r r'' :=
  ⟨h'.primary.trans h.primary, h'.target.trans h.target,
    fun hsome => (h'.library (h.target_isSome ▸ hsome)).trans (h.library hsome)⟩

theorem symm (h : SameTables r r') : SameTables r' r :=
  ⟨h.primary.symm, h.target.symm, fun hsome => (h.library (h.target_isSome ▸ hsome)).symm⟩

end SameTables

theorem Looks.sameTables (h : Looks s r r') : SameTables r r' := by
  induction h with
  | refl => exact .refl r
  | tail _ hlook ih =>
    refine ih.trans ?_
    cases hlook with
    | copy _ hcopied _ =>
      cases hcopied with
      | repeated _ => exact .refl _
      | added htarget _ => exact ⟨rfl, by rw [htarget]; rfl, fun _ => rfl⟩
      | failed => exact ⟨rfl, rfl, fun _ => rfl⟩
    | _ => exact ⟨rfl, rfl, fun _ => rfl⟩

theorem nextCandidate_sameTables (s : Setup) (w : Services) (r : Run) :
    SameTables r (r.nextCandidate s w).1 := by
  obtain ⟨source, moment, hkeeps⟩ := r.nextCandidate_keeps s w
  rw [hkeeps]
  exact ⟨rfl, rfl, fun _ => rfl⟩

theorem Slices.sameTables (h : Slices s w r r') : SameTables r r' := by
  induction h with
  | refl => exact .refl r
  | @tail r₂ _ _ hslice ih =>
    refine ih.trans ?_
    have hnext := nextCandidate_sameTables s w r₂
    cases hslice with
    | @look r₃ _ c _ htaken hclassify =>
      have hlooks := classify_looks (s := s) (w := w) (r := r₃) c
      rw [htaken] at hnext
      rw [hclassify] at hlooks
      exact hnext.trans hlooks.sameTables
    | exhaust _ htaken =>
      rw [htaken] at hnext
      exact ⟨hnext.primary, hnext.target, hnext.library⟩
    | @work job queue hpop =>
      have hkept := perform_kept s w { r₂ with queue, history.taken := job :: r₂.history.taken } job
      exact ⟨hkept.primary, hkept.target, hkept.library⟩
    | note _ _ _ => exact ⟨rfl, rfl, fun _ => rfl⟩

theorem Begun.sameTables (h : Begun s r r') : SameTables r r' := by
  cases h <;> exact ⟨rfl, rfl, fun _ => rfl⟩

/-! ## Taking candidates -/

theorem pull_ok (hw : w.Sound) (n : Nat) (hprimary : r.primary.isSome) :
    (pull s w n r).2 = .ok () := by
  induction n generalizing r with
  | zero => rfl
  | succ n ih =>
    unfold pull
    split
    · rfl
    · obtain ⟨source, moment, c, hnext, -⟩ := nextCandidate_ok (s := s) hw hprimary
      rw [hnext]
      cases c with
      | none => rfl
      | some c =>
        dsimp only
        have hclassify := classify_ok (s := s) (r := { r with source, moment }) hw hprimary c
        have hlooks := classify_looks (s := s) (w := w) (r := { r with source, moment }) c
        generalize classify s w { r with source, moment } c = looked at hclassify hlooks
        obtain ⟨r₂, result⟩ := looked
        obtain rfl : result = .ok () := hclassify
        exact ih (hlooks.sameTables.primary_isSome.trans hprimary)

theorem gather_ok (hw : w.Sound) (hprimary : r.primary.isSome) : (r.gather s w).2 = .ok () := by
  have hpull := pull_ok (s := s) hw s.batch hprimary
  unfold gather
  generalize pull s w s.batch r = pulled at hpull
  obtain ⟨r₂, result⟩ := pulled
  obtain rfl : result = .ok () := hpull
  rfl

/-! ## Ends -/

/-- An act that ends a run: the failure, if there is one, is reported. -/
def ended (result : Run × Except Failure Unit) : Option Failure × Run :=
  match result with
  | (r, .ok ()) => (none, r)
  | (r, .error failure) => (some failure, r.fail failure)

/-- How a run ends that is not stopped. -/
inductive Concludes (s : Setup) (w : Services) (files : FileTree) : Option Failure × Run → Prop where
  | unopened {r₀ : Run} {failure : Failure}
      (hstart : (Run.new s files).start s w = (r₀, .error failure)) :
      Concludes s w files (some failure, r₀.fail failure)
  | closed {r : Run} (h : Reachable s w files none r) (hphase : r.phase = .finish)
      (hstop : r.stopped = false) : Concludes s w files (ended (r.finish s w))

/-- A run that works has the table of the library. -/
theorem Working.primary (h : Working s w files r) : r.primary.isSome := by
  obtain ⟨r₀, r₂, hstart, hprepare, hslices⟩ := h.slices
  have hbegun := prepare_begun (start_unstopped hstart) hprepare
  rw [hslices.sameTables.primary_isSome, hbegun.sameTables.primary_isSome]
  exact start_primary hstart

/-- A step that fails does not stop a run either. -/
theorem act_error_stopped {failure : Failure} (h : r.act s w = (r₁, .error failure)) :
    r₁.stopped = r.stopped := by
  cases act_error_cases h with
  | start _ h =>
    rw [show r₁ = (r.start s w).1 by rw [h]]
    exact start_stopped
  | prepare _ h =>
    have hchoose : (r.chooseNextId s w).1.stopped = r.stopped := by
      unfold chooseNextId
      split
      · split
        · rfl
        · split <;> rfl
      · rfl
    rw [show r₁ = (r.prepare s w).1 by rw [h]]
    refine of_andThen (P := fun r' => r'.stopped = r.stopped) hchoose fun r₂ h₂ => ?_
    refine of_andThen (P := fun r' => r'.stopped = r.stopped) ?_ fun _ h₃ => h₃
    rw [← h₂]
    unfold openSource
    split
    · rfl
    · split
      · rfl
      · split
        · rfl
        · split <;> rfl
  | gather _ h =>
    unfold gather at h
    split at h
    · next hpull =>
      cases h
      have hlooked := (pull_looks (s := s) (w := w) (r := r) s.batch).sameCourse
      rw [hpull] at hlooked
      exact hlooked.stopped
    · cases h
  | finish _ h =>
    rw [show r₁ = (r.finish s w).1 by rw [h]]
    exact finish_stopped

/-- No step stops a run. -/
theorem stopped_step (s : Setup) (w : Services) (r : Run) : (r.step s w).1.stopped = r.stopped := by
  rcases hs : r.step s w with ⟨r', failure | p⟩
  · obtain ⟨r₁, hact, rfl⟩ := act_of_step_error hs
    have hstopped : r₁.stopped = r.stopped := act_error_stopped hact
    exact hstopped
  · exact step_stopped hs

/-- **A run that is not stopped ends when it has closed its tables**, or cannot open them. -/
theorem concludes_of_reachable {o : Option Failure} (hw : w.Sound) (h : Reachable s w files o r)
    (hphase : r.phase = .done) (hstop : r.stopped = false) : Concludes s w files (o, r) := by
  induction h with
  | new => cases hphase
  | @control _ r message _ ih =>
    rcases r.control_cases message with heq | heq <;> rw [heq] at hphase hstop ⊢
    · exact ih hphase hstop
    · cases hstop
  | @step o r r' p hr hs ih =>
    have hact := (act_of_step_ok hs).1
    -- A step that ends the run is the one that closes its tables.
    by_cases hdone : r.phase = .done
    · rw [act_of_done hdone] at hact
      cases hact
      exact ih hdone hstop
    · obtain rfl : o = none := by
        by_contra hfailed
        exact hdone (done_of_reachable hr (Option.isSome_iff_ne_none.2 hfailed))
      have hgoing : r.stopped = false := (step_stopped hs).symm.trans hstop
      obtain ⟨hfinish, hact⟩ := finish_of_done hact hdone hphase
      have hclosed := Concludes.closed hr hfinish hgoing
      rwa [hact] at hclosed
  | @fail o r r' failure hr hs ih =>
    obtain rfl := no_failure_before hr hs
    obtain ⟨r₁, hact, rfl⟩ := act_of_step_error hs
    have hgoing : r.stopped = false := (act_error_stopped hact).symm.trans hstop
    -- Preparing and taking candidates do not fail here, so opening or closing a table did.
    cases progressing_of_reachable hr hgoing with
    | fresh hnew =>
      rw [hnew] at hact
      exact .unopened hact
    | opened hprepare hstart =>
      obtain ⟨r₂, hok⟩ := prepare_ok (s := s) hw (start_primary hstart)
      simp [act, hprepare, hok] at hact
    | working hmem hworking =>
      cases act_error_cases hact with
      | start hcase _ => simp [hcase] at hmem
      | prepare hcase _ => simp [hcase] at hmem
      | gather _ hact =>
        have hok := gather_ok (s := s) hw hworking.primary
        rw [hact] at hok
        cases hok
      | finish hcase hact =>
        have hclosed := Concludes.closed hr hcase hgoing
        rwa [hact] at hclosed
    | finished hover =>
      rw [act_of_done hover] at hact
      cases hact

/-! ## Closing the tables -/

/-- The files once both tables are closed. -/
def committedFiles (r : Run) : FileTree :=
  closedFiles { r with files := match r.target with
    | none => r.files
    | some target => r.savedFiles target }

theorem commit_saves (hw : w.Sound) (t : OpenTable) :
    r.commit w t = ({ r.asked with files := r.savedFiles t }, .ok ()) := by
  unfold commit savedFiles
  rw [hw.tableFails, if_neg Bool.false_ne_true]
  cases t.location <;> rfl

/-- What closing the tables comes to in a run that is not stopped. -/
theorem finish_closes (hw : w.Steady) (hstop : r.stopped = false) : ∃ moment, r.finish s w =
    match if r.target.isSome then r.committedFiles.rename s.newDatabasePath s.databasePath
      else .ok r.committedFiles with
    | .ok files => (Run.report { r with
        source := none, target := none, primary := none, files, moment } false, .ok ())
    | .error fault => ({ r with
        source := none, target := none, primary := none, files := r.committedFiles, moment },
        .error (.context ("replacing " ++ s.databasePath.shown) (.io fault))) := by
  -- Both tables are closed first, and each is written to its file.
  obtain ⟨moment, htarget⟩ : ∃ moment, { r with source := none }.closeTarget w = ({ r with
      source := none, target := none, moment, files := match r.target with
        | none => r.files
        | some target => r.savedFiles target }, .ok ()) := by
    unfold closeTarget
    cases htarget : r.target with
    | none => exact ⟨r.moment, by simp only⟩
    | some target =>
      simp only [hstop, Bool.false_eq_true, if_false, commit_saves hw.toSound]
      exact ⟨r.moment + 1, rfl⟩
  obtain ⟨moment', hprimary⟩ : ∃ moment', closePrimary w { r with
      source := none, target := none, moment, files := match r.target with
        | none => r.files
        | some target => r.savedFiles target } = ({ r with
      source := none, target := none, primary := none, moment := moment'
      files := r.committedFiles }, .ok ()) := by
    unfold closePrimary committedFiles closedFiles
    cases hprimary : r.primary with
    | none => exact ⟨moment, by simp only⟩
    | some primary =>
      simp only [commit_saves hw.toSound]
      exact ⟨moment + 1, rfl⟩
  unfold finish
  dsimp only
  rw [htarget]
  dsimp only
  rw [hprimary]
  simp only [hstop, Bool.not_false, Bool.and_true]
  cases r.target.isSome with
  | false => exact ⟨moment', rfl⟩
  | true =>
    refine ⟨moment' + 1, ?_⟩
    simp only [if_true, replaceTable, hw.faults]
    cases r.committedFiles.rename s.newDatabasePath s.databasePath <;> rfl

/-- What runs that come to the same end with: the files, aside from the dates in tables, and
    what is counted, but for the longest queue. -/
structure Agrees (r r' : Run) : Prop where
  files : r'.files.undated = r.files.undated
  counts : ∀ counter, counter ≠ .queueHighWater →
    r'.counters.get counter = r.counters.get counter

theorem savedFiles_agree {t t' : OpenTable} (hfiles : r'.files.undated = r.files.undated)
    (hlocation : t'.location = t.location) (htable : t'.table.undated = t.table.undated) :
    (r'.savedFiles t').undated = (r.savedFiles t).undated := by
  unfold savedFiles
  rw [hlocation]
  cases t.location with
  | none => exact hfiles
  | some l =>
    dsimp only
    rw [FileTree.keepTable_undated, FileTree.keepTable_undated, hfiles, htable]

/-- The files are the same once the tables are closed. -/
theorem committedFiles_agree {gap : Int} (h : Alike (fun _ => "") gap False r r')
    (ht : SameTables r r') : r'.committedFiles.undated = r.committedFiles.undated := by
  unfold committedFiles
  have htable := h.table
  cases htarget : r.target with
  | none =>
    have htarget' : r'.target = none := by simpa [htarget] using ht.target
    simp only [written, htarget, htarget', Option.none_or, Option.map_map] at htable
    simp only [htarget', closedFiles, h.files]
    cases hprimary : r.primary with
    | none =>
      have hprimary' : r'.primary = none := by simpa [hprimary] using ht.primary
      rw [hprimary']
    | some primary =>
      obtain ⟨primary', hprimary', hlocation⟩ : ∃ primary', r'.primary = some primary' ∧
          primary'.location = primary.location := by simpa [hprimary] using ht.primary
      rw [hprimary, hprimary'] at htable
      rw [hprimary']
      exact savedFiles_agree rfl hlocation (Option.some.inj htable)
  | some target =>
    obtain ⟨target', htarget', hlocation⟩ : ∃ target', r'.target = some target' ∧
        target'.location = target.location := by simpa [htarget] using ht.target
    simp only [written, htarget, htarget', Option.some_or, Option.map_some] at htable
    have hsaved : (r'.savedFiles target').undated = (r.savedFiles target).undated :=
      savedFiles_agree (congrArg FileTree.undated h.files) hlocation (Option.some.inj htable)
    simp only [htarget', closedFiles, ht.library (by rw [htarget]; rfl)]
    cases r.primary with
    | none => exact hsaved
    | some primary => exact savedFiles_agree hsaved rfl rfl

/-- **States that are alike end alike**, aside from dates. -/
theorem finish_alike {gap : Int} (hw : w.Steady) (hstop : r.stopped = false)
    (hstop' : r'.stopped = false) (h : Alike (fun _ => "") gap False r r') (ht : SameTables r r') :
    (ended (r'.finish s w)).1 = (ended (r.finish s w)).1 ∧
      Agrees (ended (r.finish s w)).2 (ended (r'.finish s w)).2 := by
  have hfiles := committedFiles_agree h ht
  obtain ⟨moment, hfinish⟩ := finish_closes (s := s) hw hstop
  obtain ⟨moment', hfinish'⟩ := finish_closes (s := s) hw hstop'
  -- The tables are in their places, or the new one cannot be put there.
  have hplaced : (if r'.target.isSome then r'.committedFiles.rename s.newDatabasePath s.databasePath
        else .ok r'.committedFiles).map FileTree.undated =
      (if r.target.isSome then r.committedFiles.rename s.newDatabasePath s.databasePath
        else .ok r.committedFiles).map FileTree.undated := by
    rw [ht.target_isSome]
    split
    · rw [← FileTree.rename_undated, ← FileTree.rename_undated, hfiles]
    · exact congrArg Except.ok hfiles
  have hreported : ∀ {t t' : FileTree}, t'.undated = t.undated →
      Agrees (Run.report { r with
          source := none, target := none, primary := none, files := t, moment } false)
        (Run.report { r' with
          source := none, target := none, primary := none, files := t', moment := moment' } false) := by
    intro t t' hsame
    obtain ⟨sent, hkeeps⟩ := report_keeps { r with
      source := none, target := none, primary := none, files := t, moment } false
    obtain ⟨sent', hkeeps'⟩ := report_keeps { r' with
      source := none, target := none, primary := none, files := t', moment := moment' } false
    rw [hkeeps, hkeeps']
    refine ⟨hsame, fun counter hc => ?_⟩
    simp only [Counters.raise, Counters.get_set, if_neg hc]
    exact h.counts hc
  rw [hfinish, hfinish']
  generalize (if r'.target.isSome then _ else _ : Except Fault FileTree) = placed' at hplaced ⊢
  generalize (if r.target.isSome then _ else _ : Except Fault FileTree) = placed at hplaced ⊢
  cases placed with
  | error fault =>
    cases placed' with
    | error fault' =>
      obtain rfl : fault' = fault := Except.error.inj hplaced
      exact ⟨rfl, hfiles, fun counter hc => h.counts hc⟩
    | ok t' => cases hplaced
  | ok t =>
    cases placed' with
    | error fault' => cases hplaced
    | ok t' => exact ⟨rfl, hreported (Except.ok.inj hplaced)⟩

/-! ## Two runs -/

theorem Ahead.copyAll {δ : String → String} {gap : Int} {more : Counter → UInt64} (hw : w.Sound)
    (h : Ahead δ gap more False r r') (hlast : r'.lastCopied = r.lastCopied) (songs : List Song) :
    Ahead δ gap more False (r.copyAll w songs) (r'.copyAll w songs) := by
  induction songs generalizing r r' with
  | nil => exact h
  | cons song songs ih =>
    exact ih (h.copyRecord hw hlast song)
      ((lastCopied_copyRecord ..).trans (lastCopied_copyRecord ..).symm)

end Run

namespace Foreseen

variable {s : Setup} {w : Services} {sees : Candidate → Verdict}
  {J : List Candidate → Books → Prop} {candidates : List Candidate} {r r' r₁ r₁' : Run}

/-- A run with no candidate and no job left has looked at all candidates, and has done the
    jobs for these. -/
theorem finished (hw : w.Steady) (hF : Foreseen s w sees J)
    (hswaps : Swappable s w sees candidates r₁) (hbegin : J candidates r₁.books)
    (hqueue : r₁.queue.toList = []) (h : Run.Slices s w r₁ r) (hsource : r.source = none)
    (hdone : r.queue.toList = []) :
    ∃ gap, Run.Ahead (fun _ => "") gap (tally (marksFor sees candidates)) False
      ((r₁.copyAll w (copiesFor sees candidates)).performAll s w (jobsFor sees candidates)) r := by
  obtain ⟨seen, rest, taken, hforetold⟩ := hF.slices hw hswaps hbegin hqueue h
  obtain rfl := hF.ended hforetold.holds hsource
  have hall := hforetold.split
  rw [List.append_nil] at hall
  subst hall
  have hjobs := hforetold.jobs
  rw [hdone, List.append_nil] at hjobs
  exact hjobs ▸ hforetold.ahead

/-- **Runs that begin alike end alike**, in whatever order they look and work. -/
theorem alike {gap : Int} (hw : w.Steady) (hF : Foreseen s w sees J)
    (hswaps : Swappable s w sees candidates r₁) (hswaps' : Swappable s w sees candidates r₁')
    (hbegin : J candidates r₁.books) (hqueue : r₁.queue.toList = []) (hbooks : r₁'.books = r₁.books)
    (halike : Run.Alike (fun _ => "") gap False r₁ r₁') (hlast : r₁'.lastCopied = r₁.lastCopied)
    (h : Run.Slices s w r₁ r) (h' : Run.Slices s w r₁' r') (hsource : r.source = none)
    (hsource' : r'.source = none) (hdone : r.queue.toList = []) (hdone' : r'.queue.toList = []) :
    ∃ gap, Run.Alike (fun _ => "") gap False r r' := by
  obtain ⟨gap₁, hfirst⟩ := hF.finished hw hswaps hbegin hqueue h hsource hdone
  obtain ⟨gap₂, hsecond⟩ := hF.finished hw hswaps' (hbooks ▸ hbegin)
    ((congrArg Books.jobs hbooks).trans hqueue) h' hsource' hdone'
  have hcopied := Run.Ahead.copyAll hw.toSound halike hlast (copiesFor sees candidates)
  have hworked := hcopied.performAll (s := s) hw (jobsFor sees candidates)
    fun _ _ _ => Run.blurs_const w gap
  have hboth := Run.Ahead.trans hworked hsecond
  exact ⟨_, hfirst.alike (hboth.recount fun _ => UInt64.zero_add _)⟩

end Foreseen

/-- What a run comes to from a state where it has prepared does not depend on its queue:
    the verdicts on the candidates are known beforehand. -/
def Run.Foreseeable (s : Setup) (w : Services) (r₁ : Run) : Prop :=
  ∃ sees J candidates, Foreseen s w sees J ∧ J candidates r₁.books ∧
    ∀ queue, Swappable s w sees candidates (r₁.requeue queue)

namespace Run

variable {s : Setup} {w : Services} {files : FileTree} {r r' : Run} {batch queueLimit : Nat}

/-- The same is done in a slice, however many candidates a run takes at a time. -/
theorem Slices.retune (h : Slices { s with batch, queueLimit } w r r') : Slices s w r r' := by
  refine Relation.ReflTransGen.mono (fun _ _ hslice => ?_) _ _ h
  cases hslice with
  | look hopen hnext hclassify => exact .look hopen hnext hclassify
  | exhaust hopen hnext => exact .exhaust hopen hnext
  | work hpop => exact .work hpop
  | note phase reported sent => exact .note phase reported sent

theorem start_retune (r : Run) : r.start { s with batch, queueLimit } w = r.start s w := rfl

theorem prepare_retune (r : Run) : r.prepare { s with batch, queueLimit } w = r.prepare s w := rfl

theorem finish_retune (r : Run) : r.finish { s with batch, queueLimit } w = r.finish s w := rfl

/-- A run has an empty queue once it has prepared. -/
theorem queue_of_prepare {r₀ r₁ : Run} (hstart : (Run.new s files).start s w = (r₀, .ok ()))
    (hprepare : r₀.prepare s w = (r₁, .ok ())) : r₁.queue.toList = [] := by
  have hsame := start_requeue (s := s) (w := w) (r := Run.new s files) (.empty s.queueLimit)
  rw [show (Run.new s files).requeue (.empty s.queueLimit) = Run.new s files from rfl, hstart] at hsame
  have hsame' := prepare_requeue (s := s) (w := w) (r := r₀) (.empty s.queueLimit)
  rw [← (Prod.mk.inj hsame).1, hprepare] at hsame'
  rw [(Prod.mk.inj hsame').1]
  rfl

/-- **Runs that differ in their queues and in the candidates they take at a time end alike**,
    where the verdicts are known beforehand. -/
theorem concludes_alike {e e' : Option Failure × Run} (hw : w.Steady)
    (hforeseeable : ∀ r₀ r₁, (Run.new s files).start s w = (r₀, .ok ()) →
      r₀.prepare s w = (r₁, .ok ()) → r₁.Foreseeable s w)
    (h : Concludes s w files e) (h' : Concludes { s with batch, queueLimit } w files e') :
    e'.1 = e.1 ∧ Agrees e.2 e'.2 := by
  -- The second run begins as the first does, but for the queue.
  have hbegins : (Run.new { s with batch, queueLimit } files).start { s with batch, queueLimit } w =
      (((Run.new s files).start s w).1.requeue (.empty queueLimit),
        ((Run.new s files).start s w).2) := by
    rw [start_retune]
    exact start_requeue (r := Run.new s files) (.empty queueLimit)
  cases h with
  | @unopened r₀ failure hstart =>
    rw [hstart] at hbegins
    cases h' with
    | unopened hstart' =>
      rw [hstart'] at hbegins
      cases hbegins
      exact ⟨rfl, rfl, fun _ _ => rfl⟩
    | closed h' hphase' hstop' =>
      obtain ⟨r₀', _, hstart', -⟩ := (working_of_reachable h' hstop' (by simp [hphase'])).slices
      rw [hstart'] at hbegins
      cases hbegins
  | @closed r h hphase hstop =>
    have hworking := working_of_reachable h hstop (by simp [hphase])
    obtain ⟨r₀, r₁, hstart, hprepare, hslices⟩ := hworking.slices
    rw [hstart] at hbegins
    cases h' with
    | unopened hstart' =>
      rw [hstart'] at hbegins
      cases hbegins
    | @closed r' h' hphase' hstop' =>
      have hworking' := working_of_reachable h' hstop' (by simp [hphase'])
      obtain ⟨r₀', r₁', hstart', hprepare', hslices'⟩ := hworking'.slices
      rw [hstart'] at hbegins
      cases hbegins
      rw [prepare_retune, prepare_requeue, hprepare] at hprepare'
      cases hprepare'
      obtain ⟨sees, J, candidates, hF, hJ, hswaps⟩ := hforeseeable r₀ r₁ hstart hprepare
      have hqueue := queue_of_prepare hstart hprepare
      have hbooks : (r₁.requeue (.empty queueLimit)).books = r₁.books :=
        congrArg (fun jobs => { r₁.books with jobs }) hqueue.symm
      have hstart : Alike (fun _ => "") 0 False r₁ (r₁.requeue (.empty queueLimit)) :=
        .same rfl rfl rfl rfl rfl (by simp [requeue])
      obtain ⟨gap, halike⟩ := hF.alike hw (hswaps r₁.queue) (hswaps (.empty queueLimit)) hJ hqueue
        hbooks hstart rfl hslices hslices'.retune (hworking.seen (by simp [hphase]))
        (hworking'.seen (by simp [hphase'])) (hworking.done hphase) (hworking'.done hphase')
      rw [finish_retune]
      have hrequeued : SameTables r₁ (r₁.requeue (.empty queueLimit)) := ⟨rfl, rfl, fun _ => rfl⟩
      exact finish_alike hw hstop hstop' halike
        (hslices.sameTables.symm.trans (hrequeued.trans hslices'.sameTables))

end Run

end SongLibrary.Reconcile
