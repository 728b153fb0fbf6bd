/-
  Runs that are not stopped, slice by slice.

  * `Slice` is the least that such a run does between two steps: it looks at a candidate,
    finds that there is none left, does a job, or takes note of how far it has come;
  * a run that is not stopped opens its tables (`start_opens`), prepares (`Begun`), and
    goes on by slices (`working_of_reachable`);
  * `Services.Steady` is a world that gives the same answer to the same question.
-/
import SongLibrary.Proofs.Reconcile.Copying
import SongLibrary.Proofs.Reconcile.Records

namespace SongLibrary.Reconcile

/-- What a run relies on to come to the same each time: no operation on a table fails, and
    the same question has the same answer, but for the time. -/
structure Services.Steady (w : Services) : Prop extends w.Sound where
  reads : ∀ n m, w.readTags n = w.readTags m
  writes : ∀ n m, w.writeTags n = w.writeTags m
  tracks : ∀ n m, w.trackTags? n = w.trackTags? m
  faults : ∀ n, w.fileFault? n = none

theorem sampleServices_steady : sampleServices.Steady where
  toSound := sampleServices_sound
  reads _ _ := rfl
  writes _ _ := rfl
  tracks _ _ := rfl
  faults _ := rfl

namespace Run

variable (s : Setup) (w : Services)

/-- The least that a run does once its tables are open. -/
inductive Slice : Run → Run → Prop where
  /-- A candidate is looked at. -/
  | look {r r₁ r₂ : Run} {c : Candidate} (hopen : r.queue.closed = false)
      (hnext : r.nextCandidate s w = (r₁, .ok (some c)))
      (hclassify : r₁.classify s w c = (r₂, .ok ())) : Slice r r₂
  /-- There is no candidate left. -/
  | exhaust {r r₁ : Run} (hopen : r.queue.closed = false)
      (hnext : r.nextCandidate s w = (r₁, .ok none)) : Slice r { r₁ with source := none }
  | work {r : Run} {job : Job} {queue : Queue Job} (hpop : r.queue.pop? = some (job, queue)) :
      Slice r ({ r with queue, history.taken := job :: r.history.taken }.perform s w job)
  | note {r : Run} (phase : Phase) (reported : Float) (sent : List Message) :
      Slice r { r with phase, reported, sent }

/-- What a run does in some slices. -/
abbrev Slices : Run → Run → Prop :=
  Relation.ReflTransGen (Slice s w)

variable {s w} {r r' : Run}

theorem closed_of_hasRoom {queue : Queue Job} (h : queue.hasRoom) : queue.closed = false := by
  simp only [Queue.hasRoom, Bool.and_eq_true, Bool.not_eq_true'] at h
  exact h.1

theorem pull_slices {n : Nat} (h : pull s w n r = (r', .ok ())) : Slices s w r r' := by
  induction n generalizing r with
  | zero =>
    cases h
    exact .refl
  | succ n ih =>
    unfold pull at h
    split at h
    · cases h
      exact .refl
    · next hroom =>
      replace hroom : r.queue.closed = false := closed_of_hasRoom (by simpa using hroom)
      split at h
      · cases h
      · next hnext =>
        cases h
        exact .single (.exhaust hroom hnext)
      · next r₁ c hnext =>
        split at h
        · cases h
        · next r₂ hclassify => exact .head (.look hroom hnext hclassify) (ih h)

theorem performNext_slices (r : Run) : Slices s w r (r.performNext s w) := by
  unfold performNext
  split
  · exact .refl
  · next hpop => exact .single (.work hpop)

theorem reportProgress_slices (r : Run) : Slices s w r r.reportProgress := by
  obtain ⟨reported, sent, hkeeps⟩ := r.reportProgress_keeps
  rw [hkeeps]
  exact .single (.note r.phase reported sent)

theorem gather_slices (h : r.gather s w = (r', .ok ())) :
    Slices s w r r' ∧ (r'.phase ≠ r.phase → r'.source = none) := by
  unfold gather at h
  split at h
  · cases h
  · next r₁ hpull =>
    cases h
    have hphase : r₁.phase = r.phase := by
      have hlooked := (pull_looks (s := s) (w := w) (r := r) s.batch).sameCourse
      rw [hpull] at hlooked
      exact hlooked.phase
    -- The phase changes only where no candidate is left.
    obtain ⟨phase, hnoted, hended⟩ : ∃ phase,
        (if r₁.source.isNone then { r₁ with phase := .drain } else r₁) = { r₁ with phase } ∧
          (phase ≠ r.phase → r₁.source = none) := by
      split
      · next hnone => exact ⟨.drain, rfl, fun _ => by simpa using hnone⟩
      · exact ⟨r₁.phase, rfl, fun hne => absurd hphase hne⟩
    rw [hnoted]
    refine ⟨(pull_slices hpull).trans (.head (.note phase r₁.reported r₁.sent)
      ((performNext_slices _).trans (reportProgress_slices _))), ?_⟩
    obtain ⟨reported, sent, hkeeps⟩ := ({ r₁ with phase }.performNext s w).reportProgress_keeps
    rw [hkeeps]
    dsimp only
    rw [performNext_sameCourse.phase, (performNext_sameSource s w _).source]
    exact hended

theorem drain_slices (r : Run) :
    Slices s w r (r.drain s w) ∧ (r.drain s w).source = r.source ∧
      ((r.drain s w).phase ≠ r.phase → (r.drain s w).queue.toList = []) := by
  unfold drain
  split
  · next hempty =>
    refine ⟨.single (.note .finish r.reported r.sent), rfl, fun _ => ?_⟩
    rw [Queue.isEmpty, Queue.size_eq_length] at hempty
    simpa using hempty
  · refine ⟨(performNext_slices _).trans (reportProgress_slices _), ?_⟩
    obtain ⟨reported, sent, hkeeps⟩ := (r.performNext s w).reportProgress_keeps
    rw [hkeeps]
    exact ⟨(performNext_sameSource s w r).source, fun hne => absurd performNext_sameCourse.phase hne⟩

/-- A run whose tables are open, which has prepared and is not stopped. -/
structure Working (s : Setup) (w : Services) (files : FileTree) (r : Run) : Prop where
  slices : ∃ r₀ r₁, (Run.new s files).start s w = (r₀, .ok ()) ∧
    r₀.prepare s w = (r₁, .ok ()) ∧ Slices s w r₁ r
  seen : r.phase ≠ .gather → r.source = none
  done : r.phase = .finish → r.queue.toList = []

variable {files : FileTree}

theorem Working.gather (h : Working s w files r) (hphase : r.phase = .gather)
    (hact : r.gather s w = (r', .ok ())) : Working s w files r' := by
  obtain ⟨r₀, r₁, hstart, hprepare, hslices⟩ := h.slices
  obtain ⟨hnext, hseen⟩ := gather_slices hact
  refine ⟨⟨r₀, r₁, hstart, hprepare, hslices.trans hnext⟩, hphase ▸ hseen, fun hfinish => ?_⟩
  rcases gather_phase hphase hact with h | h <;> rw [hfinish] at h <;> cases h

theorem Working.drain (h : Working s w files r) (hphase : r.phase = .drain) :
    Working s w files (r.drain s w) := by
  obtain ⟨r₀, r₁, hstart, hprepare, hslices⟩ := h.slices
  obtain ⟨hnext, hsource, hdone⟩ := r.drain_slices (s := s) (w := w)
  refine ⟨⟨r₀, r₁, hstart, hprepare, hslices.trans hnext⟩, fun _ => ?_, fun hfinish => hdone ?_⟩
  · rw [hsource]
    exact h.seen (by simp [hphase])
  · simp [hfinish, hphase]

theorem prepare_working {r₀ : Run} (hstart : (Run.new s files).start s w = (r₀, .ok ()))
    (h : r₀.prepare s w = (r', .ok ())) : Working s w files r' := by
  have hphase := prepare_phase h
  exact ⟨⟨r₀, r', hstart, h, .refl⟩, fun hne => absurd hphase hne, fun hfinish => by
    rw [hphase] at hfinish; cases hfinish⟩

/-- How far a run has come that is not stopped. -/
inductive Progressing (s : Setup) (w : Services) (files : FileTree) (r : Run) : Prop where
  | fresh (h : r = .new s files)
  | opened (hphase : r.phase = .prepare) (h : (Run.new s files).start s w = (r, .ok ()))
  | working (hphase : r.phase ∈ [.gather, .drain, .finish]) (h : Working s w files r)
  | finished (hphase : r.phase = .done)

theorem Progressing.step {p : Progress} (h : Progressing s w files r)
    (hs : r.step s w = (r', .ok p)) : Progressing s w files r' := by
  have hact := (act_of_step_ok hs).1
  cases h with
  | fresh hnew =>
    subst hnew
    exact .opened (start_phase hact) hact
  | opened hphase hstart =>
    simp only [act, hphase] at hact
    exact .working (by simp [prepare_phase hact]) (prepare_working hstart hact)
  | working hphase hworking =>
    cases act_cases hact with
    | start hcase _ _ => simp [hcase] at hphase
    | prepare hcase _ _ => simp [hcase] at hphase
    | gather hcase hact hnext =>
      refine .working ?_ (hworking.gather hcase hact)
      rcases hnext with hnext | hnext <;> simp [hnext]
    | drain hcase hnext =>
      refine .working ?_ (hworking.drain hcase)
      rcases hnext with hnext | hnext <;> simp [hnext]
    | finish _ _ hnext => exact .finished hnext
    | done hcase => simp [hcase] at hphase
  | finished hphase =>
    rw [act_of_done hphase] at hact
    cases hact
    exact .finished hphase

/-! ## Looking at a candidate -/

/-- The state in which a candidate is looked at: it has been counted. -/
def see (r : Run) (c : Candidate) : Run :=
  { r with history.found := c :: r.history.found }.count .found

theorem classify_eq (c : Candidate) :
    r.classify s w c = match s.classifier.skipReason? c.path c.record.isNone with
      | some reason => ((r.see c).skip (SkipReason.counter reason), .ok ())
      | none =>
        if c.record.isSome && !(r.see c).files.pathExists c.path then
          ((r.see c).skip .missing, .ok ())
        else
          match (r.see c).existingRecord s w c with
          | (r, .error failure) => (r, .error failure)
          | (r, .ok existing) => (r.settle s w c existing, .ok ()) := rfl

theorem settle_none {c : Candidate} : r.settle s w c none = r.enqueue s c none := by
  simp only [settle]

/-! ## The beginning -/

/-- The id of the first song that a run adds which has none: a copying run gives it itself. -/
def FirstId (s : Setup) (r : Run) (id : Option Int64) : Prop :=
  (∀ checkNew, s.mode ≠ .compact checkNew) ∧ id = r.nextId ∨
    ∃ primary, r.primary = some primary ∧ id = some (primary.table.maxId + 1)

/-- What preparing comes to in a run that is not stopped. -/
inductive Begun (s : Setup) (r : Run) : Run → Prop where
  | files {nextId : Option Int64} {total moment : Nat} {sent : List Message}
      (horigin : s.mode.origin = .fileTree) (hid : FirstId s r nextId) :
      Begun s r { r with
        source := some (.files (r.files.walk s.root))
        nextId, total, moment, sent, phase := .gather }
  | table {order : SongTable.Order} {primary : OpenTable} {nextId : Option Int64}
      {total moment : Nat} {sent : List Message} (horigin : s.mode.origin = .table order)
      (hprimary : r.primary = some primary) (hid : FirstId s r nextId) :
      Begun s r { r with
        source := some (.table (primary.table.visit order pageSize))
        nextId, total, moment, sent, phase := .gather }

theorem prepare_begun (hstop : r.stopped = false) (h : r.prepare s w = (r', .ok ())) :
    Begun s r r' := by
  have hchoose : ∀ {r₁ : Run}, r.chooseNextId s w = (r₁, .ok ()) →
      ∃ nextId moment, r₁ = { r with nextId, moment } ∧ FirstId s r nextId := by
    intro r₁ h
    unfold chooseNextId at h
    split at h
    · split at h
      · cases h
      · split at h
        · cases h
        · next hprimary =>
          cases h
          exact ⟨_, r.moment + 1, rfl, .inr ⟨_, hprimary, rfl⟩⟩
    · next hmode =>
      cases h
      exact ⟨r.nextId, r.moment, rfl, .inl ⟨hmode, rfl⟩⟩
  -- A run that is not stopped gets the files or the visit of its mode as its source.
  unfold prepare at h
  split at h
  · cases h
  · next r₁ h₁ =>
    obtain ⟨nextId, moment, rfl, hid⟩ := hchoose h₁
    split at h
    · cases h
    · next r₂ h₂ =>
      cases h
      unfold openSource at h₂
      rw [if_neg (show ¬ r.stopped = true by simp [hstop])] at h₂
      split at h₂
      · next horigin =>
        cases h₂
        exact .files horigin hid
      · next horigin =>
        split at h₂
        · cases h₂
        · split at h₂
          · cases h₂
          · next hprimary =>
            cases h₂
            exact .table horigin hprimary hid

/-- What opening the tables comes to in a run that writes no new table. -/
theorem start_opens (hd : s.mode.isDestructive = false) (h : r.start s w = (r', .ok ())) :
    ∃ table moment, r.files.openTable s.databasePath =
        ((r.files.openTable s.databasePath).1, some table) ∧
      r' = { r with
        files := (r.files.openTable s.databasePath).1
        primary := some ⟨s.databasePath, r.files.tableFile? s.databasePath, table⟩
        phase := .prepare, moment } := by
  simp only [start, hd, Bool.false_eq_true, if_false, openPrimary] at h
  split at h
  · cases h
  · next r₁ primary hopen =>
    cases h
    unfold openTable at hopen
    dsimp only at hopen
    split at hopen
    · cases hopen
    · split at hopen
      · cases hopen
      · next files table hopened =>
        split at hopen
        · cases hopen
        · cases hopen
          exact ⟨table, r.moment + 2, by rw [hopened], by rw [hopened]; rfl⟩

/-! ## The end -/

/-- The files once the table of the library is closed. -/
def savedFiles (r : Run) (primary : OpenTable) : FileTree :=
  match primary.location with
  | none => r.files
  | some l => r.files.keepTable l primary.table

/-- A run that writes no new table ends with the table of the library in its file. -/
theorem finish_saves {primary : OpenTable} (hw : w.Sound) (htarget : r.target = none)
    (hprimary : r.primary = some primary) :
    ∃ moment, r.finish s w = (Run.report { r with
      source := none, primary := none, files := r.savedFiles primary, moment } false, .ok ()) := by
  refine ⟨r.moment + 1, ?_⟩
  have hcommit : ({ r with source := none, primary := none } : Run).commit w primary =
      ({ r with source := none, primary := none, files := r.savedFiles primary,
                moment := r.moment + 1 }, .ok ()) := by
    unfold commit savedFiles
    rw [hw.tableFails, if_neg Bool.false_ne_true]
    cases primary.location <;> rfl
  unfold finish
  dsimp only
  rw [show ({ r with source := none } : Run).closeTarget w = ({ r with source := none }, .ok ()) by
    simp [closeTarget, htarget]]
  dsimp only
  rw [show ({ r with source := none } : Run).closePrimary w =
      ({ r with source := none, primary := none, files := r.savedFiles primary,
                moment := r.moment + 1 }, .ok ()) by
    rw [← hcommit]
    simp [closePrimary, hprimary]]
  simp [htarget]

/-! ## Stopping is not undone -/

theorem openPrimary_stopped : (r.openPrimary s w).1.stopped = r.stopped := by
  have hkept : (r.openTable w s.databasePath).1.stopped = r.stopped := by
    obtain ⟨_, _, hkeeps⟩ := openTable_filesOnly (w := w) (r := r) s.databasePath
    rw [hkeeps]
  unfold openPrimary
  split <;> next hopen => rw [hopen] at hkept; exact hkept

theorem start_stopped : (r.start s w).1.stopped = r.stopped := by
  unfold start
  split
  · refine of_andThen (P := fun r' => r'.stopped = r.stopped) ?_ ?_
    · obtain ⟨_, _, _, hkeeps⟩ := openTarget_keeps (s := s) (w := w) (r := r)
      rw [hkeeps]
    · intro r₁ h₁
      rw [openPrimary_stopped, h₁]
  · exact openPrimary_stopped

theorem finish_stopped : (r.finish s w).1.stopped = r.stopped := by
  have hreport : ∀ (r : Run) (discarded : Bool), (r.report discarded).stopped = r.stopped := by
    intro r discarded
    obtain ⟨_, hkeeps⟩ := r.report_keeps discarded
    rw [hkeeps]
  refine of_andThen (P := fun r' => r'.stopped = r.stopped) ?_ ?_
  · obtain ⟨_, _, _, hkeeps⟩ := closeTarget_keeps (w := w) (r := { r with source := none })
    rw [hkeeps]
  · intro r₁ h₁
    refine of_andThen (P := fun r' => r'.stopped = r.stopped) ?_ ?_
    · obtain ⟨_, _, _, hkeeps⟩ := closePrimary_keeps (w := w) (r := r₁)
      rw [hkeeps, h₁]
    · intro r₂ h₂
      split
      · refine of_andThen (P := fun r' => r'.stopped = r.stopped) ?_ ?_
        · obtain ⟨_, _, hkeeps⟩ := replaceTable_filesOnly (s := s) (w := w) (r := r₂)
          rw [hkeeps, h₂]
        · intro r₃ h₃
          rw [hreport, h₃]
      · rw [hreport, h₂]

/-- Only a message stops a run. -/
theorem step_stopped {p : Progress} (h : r.step s w = (r', .ok p)) : r'.stopped = r.stopped := by
  cases act_cases (act_of_step_ok h).1 with
  | start _ hact _ =>
    have hsame := start_stopped (s := s) (w := w) (r := r)
    rwa [hact] at hsame
  | prepare _ hact _ => exact (prepare_unstopped hact).1
  | gather _ hact _ =>
    unfold gather at hact
    split at hact
    · cases hact
    · next r₁ hpull =>
      cases hact
      have hlooked := (pull_looks (s := s) (w := w) (r := r) s.batch).sameCourse
      rw [hpull] at hlooked
      obtain ⟨_, _, hkeeps⟩ := reportProgress_keeps
        ((if r₁.source.isNone then { r₁ with phase := .drain } else r₁).performNext s w)
      rw [hkeeps]
      dsimp only
      rw [performNext_sameCourse.stopped, ← hlooked.stopped]
      split <;> rfl
  | drain _ _ =>
    unfold drain
    split
    · rfl
    · obtain ⟨_, _, hkeeps⟩ := (r.performNext s w).reportProgress_keeps
      rw [hkeeps]
      exact performNext_sameCourse.stopped
  | finish _ hact _ =>
    have hsame := finish_stopped (s := s) (w := w) (r := r)
    rwa [hact] at hsame
  | done _ => rfl

/-- **A run that is not stopped opens its tables, prepares, and goes on by slices.** -/
theorem progressing_of_reachable (h : Reachable s w files none r) (hstop : r.stopped = false) :
    Progressing s w files r := by
  generalize ho : (none : Option Failure) = o at h
  induction h with
  | new => exact .fresh rfl
  | @control _ r message _ ih =>
    rcases r.control_cases message with heq | heq <;> rw [heq] at hstop ⊢
    · exact ih hstop ho
    · cases hstop
  | @step _ r r' p hr hs ih => exact (ih ((step_stopped hs).symm.trans hstop) ho).step hs
  | fail => cases ho

theorem working_of_reachable (h : Reachable s w files none r) (hstop : r.stopped = false)
    (hphase : r.phase ∈ [.gather, .drain, .finish]) : Working s w files r := by
  cases progressing_of_reachable h hstop with
  | fresh hnew => simp [hnew, Run.new] at hphase
  | opened hopened _ => simp [hopened] at hphase
  | working _ hworking => exact hworking
  | finished hover => simp [hover] at hphase

end Run

end SongLibrary.Reconcile
