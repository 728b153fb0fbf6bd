/-
  Runs that copy records, seen to the end.

  * `Books.Considers` lists what looking at a candidate does in a run that copies records:
    to the books, and to the location of the record copied last (`classify_considers`);
  * a property that looking at candidates and doing jobs keep (`Books.Copying`) holds when
    such a run has seen every candidate and done every job (`copying_of_reachable`).
-/
import SongLibrary.Proofs.Reconcile.Course

namespace SongLibrary.Reconcile

/-- A candidate that is not skipped: there is no reason to leave it out, and the file of a
    record is there. -/
def Candidate.IsLive (s : Setup) (t : FileTree) (c : Candidate) : Prop :=
  s.classifier.skipReason? c.path c.record.isNone = none ∧
    (c.record.isSome → t.pathExists c.path = true)

namespace Books

variable (s : Setup) (w : Services) (files : FileTree) (b : Books)

variable {s files b} in
/-- The new table is empty in the beginning. -/
theorem Ready.newTable (h : Ready s files b) (hd : s.mode.isDestructive)
    (hleft : s.leftover files = []) : ∃ target, b.target = some target ∧ target.table.rows = [] := by
  have htarget := h.target
  rw [if_pos hd] at htarget
  obtain ⟨target, hsome, -, -, hrows⟩ := htarget
  exact ⟨target, hsome, hrows.trans hleft⟩

/-- What looking at a candidate does in a run that copies records: to the books, and to
    the location of the record copied last. -/
inductive Considers (c : Candidate) (last : Option String) : Books → Option String → Prop where
  | skipped (h : ¬ c.IsLive s b.files) : Considers c last b last
  /-- The record copied last is at the same location. -/
  | repeated {song : Song} (hlive : c.IsLive s b.files) (hrecord : b.IsRecordOf c song)
      (hlast : last = some song.uri) : Considers c last b last
  | copied {song : Song} {target : OpenTable} {id : Int64} {table : SongTable}
      (hlive : c.IsLive s b.files) (hrecord : b.IsRecordOf c song) (hlast : last ≠ some song.uri)
      (h : b.target = some target) (hinsert : target.table.insert? song = some (id, table)) :
      Considers c last { b with target := some { target with table } } (some song.uri)
  | refused {song : Song} (hlive : c.IsLive s b.files) (hrecord : b.IsRecordOf c song)
      (hlast : last ≠ some song.uri)
      (h : ∀ target ∈ b.target, target.table.insert? song = none) :
      Considers c last b (some song.uri)
  /-- There is no record of the file: it has a bad name, or there will be a job for it. -/
  | unknown {jobs : List Job} (hlive : c.IsLive s b.files) (hrecord : c.record = none)
      (hnone : ∀ primary ∈ b.primary, primary.table.songAt? c.key = none)
      (hjobs : ∀ job ∈ jobs, job.path = c.path ∧ job.key = c.key ∧ job.existing = none) :
      Considers c last { b with jobs := b.jobs ++ jobs } last

/-- No candidate is to come. -/
inductive Exhausted : Prop where
  | none (h : b.source = none)
  | files (h : b.source = some (.files []))
  | table {visit visit' : SongTable.Visit} {primary : OpenTable} (h : b.source = some (.table visit))
      (hprimary : b.primary = some primary) (hnext : visit.next primary.table = (none, visit'))

/-- A property of the books, and of the location of the record copied last, that a run
    keeps which copies records and is not stopped. -/
structure Copying (I : Books → Option String → Prop) : Prop where
  begin : ∀ {b : Books} {source : Source}, Ready s files b → files.KeepsDirectories b.files →
    Begins s b (some source) → I { b with source := some source } none
  consider : ∀ {b b' : Books} {last last' : Option String} {c : Candidate} {source : Source},
    I b last → Takes s b c source → Considers s { b with source := some source } c last b' last' →
    I b' last'
  close : ∀ {b : Books} {last : Option String}, I b last → Exhausted b →
    I { b with source := none } last
  work : ∀ {b b' : Books} {last : Option String} {job : Job} {jobs : List Job}, I b last →
    b.jobs = job :: jobs → Works s w { b with jobs } job b' → I b' last

end Books

namespace Run

open Books

variable {s : Setup} {w : Services} {files : FileTree} {r r' : Run}

/-! ## Looking at candidates -/

theorem copyRecord_considers (hw : w.Sound) {c : Candidate} {song : Song}
    (hlive : c.IsLive s r.files) (hrecord : r.books.IsRecordOf c song) :
    Considers s r.books c r.lastCopied (r.copyRecord w song).books (r.copyRecord w song).lastCopied := by
  unfold copyRecord
  split
  · next hlast => exact .repeated hlive hrecord hlast
  · next hlast =>
    simp only [hw.tableFails, Bool.false_eq_true, if_false]
    split
    · next r₁ hadd =>
      obtain ⟨target, id, table, htarget, hinsert, rfl⟩ := addToTarget_cases _ hadd
      exact .copied hlive hrecord hlast htarget hinsert
    · next hadd =>
      refine .refused hlive hrecord hlast ?_
      intro target htarget
      have hsome : r.target = some target := htarget
      refine Option.eq_none_iff_forall_ne_some.2 ?_
      rintro ⟨id, table⟩ hinsert
      simp [addToTarget, asked, hsome, hinsert] at hadd

theorem enqueue_considers {c : Candidate} (hlive : c.IsLive s r.files) (hrecord : c.record = none)
    (hnone : ∀ primary ∈ r.primary, primary.table.songAt? c.key = none) :
    Considers s r.books c r.lastCopied (r.enqueue s c none).books (r.enqueue s c none).lastCopied := by
  have hlast : (r.enqueue s c none).lastCopied = r.lastCopied := by
    unfold enqueue
    split
    · rfl
    · split <;> rfl
  rw [hlast]
  rcases r.enqueue_books (s := s) c none with heq | heq <;> rw [heq]
  · have hidle : Considers s r.books c r.lastCopied { r.books with jobs := r.books.jobs ++ [] }
        r.lastCopied := .unknown hlive hrecord hnone (by simp)
    rwa [List.append_nil] at hidle
  · exact .unknown hlive hrecord hnone (by simp)

theorem settle_considers (hw : w.Sound) {checkNew : Bool} (hmode : s.mode = .compact checkNew)
    {c : Candidate} {existing : Option Song} (hlive : c.IsLive s r.files)
    (h : existing = none ∧ (s.mode = .rebuild ∨
        c.record = none ∧ ∀ primary ∈ r.primary, primary.table.songAt? c.key = none) ∨
      ∃ song, existing = some song ∧ s.mode ≠ .rebuild ∧ r.books.IsRecordOf c song) :
    Considers s r.books c r.lastCopied (r.settle s w c existing).books
      (r.settle s w c existing).lastCopied := by
  unfold settle
  rcases h with ⟨rfl, hrecord⟩ | ⟨song, rfl, -, hrecord⟩
  · obtain ⟨hnone, htable⟩ := hrecord.resolve_left (by simp [hmode])
    exact enqueue_considers hlive hnone htable
  · simp only [hmode]
    exact copyRecord_considers (r := r.count .alreadyInTable) hw hlive hrecord

theorem classify_considers (hw : w.Sound) {checkNew : Bool} (hmode : s.mode = .compact checkNew)
    {c : Candidate} (h : r.classify s w c = (r', .ok ())) :
    Considers s r.books c r.lastCopied r'.books r'.lastCopied := by
  unfold classify at h
  dsimp only at h
  -- A candidate is left out for its path, or because its file is missing; any other is live.
  split at h
  · next reason hreason =>
    cases h
    refine .skipped fun hlive => ?_
    rw [hlive.1] at hreason
    cases hreason
  · next hreason =>
    split at h
    · next hmissing =>
      cases h
      refine .skipped fun hlive => ?_
      rw [Bool.and_eq_true] at hmissing
      have hthere : r.files.pathExists c.path = true := hlive.2 hmissing.1
      have hgone : (!r.files.pathExists c.path) = true := hmissing.2
      simp [hthere] at hgone
    · next hthere =>
      have hlive : c.IsLive s r.files := by
        refine ⟨hreason, fun hsome => ?_⟩
        have hnot : ¬ (c.record.isSome && !r.files.pathExists c.path) = true := hthere
        simpa [hsome] using hnot
      split at h
      · cases h
      · next r₁ existing hexisting =>
        cases h
        obtain ⟨moment, hkeeps⟩ := existingRecord_keeps s w
          ({ r with history.found := c :: r.history.found }.count .found) c
        obtain ⟨hbooks, hrecord⟩ := existingRecord_books hexisting
        rw [hexisting] at hkeeps
        have hlast : r₁.lastCopied = r.lastCopied := by rw [show r₁ = _ from hkeeps]; rfl
        have hfiles : r₁.files = r.files := congrArg Books.files hbooks
        have hprimary : r₁.primary = r.primary := congrArg Books.primary hbooks
        have hconsiders := settle_considers (r := r₁) hw hmode (c := c)
          (hfiles ▸ hlive) (by rw [hprimary, hbooks]; exact hrecord)
        rwa [hlast, hbooks] at hconsiders

/-- What doing a job leaves alone. -/
structure SameSource (r r' : Run) : Prop where
  source : r'.source = r.source
  lastCopied : r'.lastCopied = r.lastCopied

theorem Deeds.sameSource {job : Job} (h : Deeds s w job r r') : SameSource r r' := by
  induction h with
  | refl => exact ⟨rfl, rfl⟩
  | tail _ hd ih =>
    refine ⟨.trans ?_ ih.source, .trans ?_ ih.lastCopied⟩ <;> cases hd with
    | store _ hstored => cases hstored <;> rfl
    | move hrenamed _ => cases hrenamed <;> rfl
    | _ => rfl

/-- Doing a job takes no candidate, and copies no record. -/
theorem performNext_sameSource (s : Setup) (w : Services) (r : Run) :
    SameSource r (r.performNext s w) := by
  unfold performNext
  split
  · exact ⟨rfl, rfl⟩
  · next job queue _ =>
    obtain ⟨r₁, hdeeds, hsettled⟩ :=
      perform_deeds s w { r with queue, history.taken := job :: r.history.taken } job
    have hsame := hdeeds.sameSource
    generalize perform s w _ job = r' at hsettled
    cases hsettled <;> exact ⟨hsame.source, hsame.lastCopied⟩

/-! ## Between two steps -/

variable {I : Books → Option String → Prop}

theorem nextCandidate_end (h : r.nextCandidate s w = (r', .ok none)) : Exhausted r.books := by
  unfold nextCandidate at h
  split at h
  · next hsource => exact .none hsource
  · next hsource => exact .files hsource
  · cases h
  · next visit hsource =>
    split at h
    · cases h
    · split at h
      · cases h
      · next primary hprimary =>
        dsimp only at h
        split at h
        · next visit' hnext => exact .table hsource hprimary hnext
        · cases h

theorem pull_copying (hw : w.Sound) {checkNew : Bool} (hmode : s.mode = .compact checkNew)
    (hI : Copying s w files I) {n : Nat} (hr : I r.books r.lastCopied)
    (h : pull s w n r = (r', .ok ())) : I r'.books r'.lastCopied := by
  induction n generalizing r with
  | zero =>
    cases h
    exact hr
  | succ n ih =>
    unfold pull at h
    split at h
    · cases h
      exact hr
    · obtain ⟨source, moment, hkeeps⟩ := r.nextCandidate_keeps s w
      split at h
      · cases h
      · next r₁ hnext =>
        cases h
        have hend := nextCandidate_end hnext
        rw [hnext] at hkeeps
        subst hkeeps
        exact hI.close hr hend
      · next r₁ c hnext =>
        obtain ⟨source', hbooks, htakes⟩ := nextCandidate_books hnext
        rw [hnext] at hkeeps
        split at h
        · cases h
        · next r₂ hclassify =>
          have hconsiders := classify_considers hw hmode hclassify
          rw [hbooks, show r₁.lastCopied = r.lastCopied by rw [show r₁ = _ from hkeeps]]
            at hconsiders
          exact ih (hI.consider hr htakes hconsiders) h

theorem performNext_copying (hw : w.Sound) (hI : Copying s w files I) (hr : I r.books r.lastCopied) :
    I (r.performNext s w).books (r.performNext s w).lastCopied := by
  cases hpop : r.queue.pop? with
  | none =>
    simp only [performNext, hpop]
    exact hr
  | some taken =>
    obtain ⟨job, queue⟩ := taken
    have hworks := perform_books (s := s) hw
      { r with queue, history.taken := job :: r.history.taken } job
    rw [(r.performNext_sameSource s w).lastCopied]
    simp only [performNext, hpop]
    exact hI.work hr (Queue.toList_of_pop? hpop) hworks

/-- What holds of a run that has not been stopped. -/
structure Unstopped (I : Books → Option String → Prop) (r : Run) : Prop where
  holds : I r.books r.lastCopied
  seen : r.phase ≠ .gather → r.source = none
  done : r.phase = .finish → r.queue.toList = []

theorem prepare_unstopped (h : r.prepare s w = (r', .ok ())) :
    r'.stopped = r.stopped ∧ r'.lastCopied = r.lastCopied ∧
      (r.stopped = false → r'.source.isSome) := by
  -- Choosing an id leaves the source alone; then a run that is not stopped gets one.
  have hchoose : ∀ {r₁ : Run}, r.chooseNextId s w = (r₁, .ok ()) →
      r₁.stopped = r.stopped ∧ r₁.lastCopied = r.lastCopied := by
    intro r₁ h
    unfold chooseNextId at h
    split at h
    · split at h
      · cases h
      · split at h
        · cases h
        · cases h
          exact ⟨rfl, rfl⟩
    · cases h
      exact ⟨rfl, rfl⟩
  have hopen : ∀ {r₁ r₂ : Run}, r₁.openSource s w = (r₂, .ok ()) →
      r₂.stopped = r₁.stopped ∧ r₂.lastCopied = r₁.lastCopied ∧
        (r₁.stopped = false → r₂.source.isSome) := by
    intro r₁ r₂ h
    unfold openSource at h
    split at h
    · next hstopped =>
      cases h
      exact ⟨rfl, rfl, fun hno => by simp [hno] at hstopped⟩
    · split at h
      · cases h
        exact ⟨rfl, rfl, fun _ => rfl⟩
      · split at h
        · cases h
        · split at h
          · cases h
          · cases h
            exact ⟨rfl, rfl, fun _ => rfl⟩
  unfold prepare at h
  split at h
  · cases h
  · next r₁ h₁ =>
    split at h
    · cases h
    · next r₂ h₂ =>
      cases h
      obtain ⟨hstopped, hlast⟩ := hchoose h₁
      obtain ⟨hstopped', hlast', hsome⟩ := hopen h₂
      exact ⟨hstopped'.trans hstopped, hlast'.trans hlast, fun hno => hsome (hstopped.trans hno)⟩

/-- The files of a state are well-formed, and have the directories that there were. -/
structure Housed (files : FileTree) (r : Run) : Prop where
  wellFormed : r.files.WellFormed
  directories : files.KeepsDirectories r.files

namespace Housed

theorem removeFile (h : Housed files r) (hw : w.Reliable) (path : Path) :
    Housed files (r.removeFile w path).1 := by
  have hremoved := removeFile_cases hw r path
  have hretabled : FileTree.Retabled [r.files.destination path] [] r.files r.files := .refl h.wellFormed
  exact ⟨(hremoved.retabled hretabled (by simp)).wellFormed, hremoved.keepsDirectories h.directories⟩

theorem openTable (h : Housed files r) (path : Path) : Housed files (r.openTable w path).1 := by
  have hopens := openTable_cases w r path
  have hretabled : FileTree.Retabled [r.files.destination path] [r.files.destination path]
      r.files r.files := .refl h.wellFormed
  exact ⟨(hopens.retabled hretabled (by simp)).wellFormed,
    hopens.keepsDirectories h.directories h.wellFormed⟩

theorem openPrimary (h : Housed files r) : Housed files (r.openPrimary s w).1 := by
  have hopen := h.openTable (w := w) s.databasePath
  unfold Run.openPrimary
  split
  · next hsame =>
    rw [hsame] at hopen
    exact hopen
  · next hsame =>
    rw [hsame] at hopen
    exact ⟨hopen.wellFormed, hopen.directories⟩

theorem openTarget (h : Housed files r) (hw : w.Reliable) : Housed files (r.openTarget s w).1 := by
  refine of_andThen (P := Housed files) (h.removeFile hw _) fun r₁ h₁ => ?_
  refine of_andThen (P := Housed files) (h₁.removeFile hw _) fun r₂ h₂ => ?_
  have hopen := h₂.openTable (w := w) s.newDatabasePath
  split
  · next hsame =>
    rw [hsame] at hopen
    exact hopen
  · next hsame =>
    rw [hsame] at hopen
    exact ⟨hopen.wellFormed, hopen.directories⟩

/-- Opening the tables leaves the directories alone. -/
theorem start (h : Housed files r) (hw : w.Reliable) : Housed files (r.start s w).1 := by
  unfold Run.start
  split
  · exact of_andThen (P := Housed files) (h.openTarget hw) fun r₁ h₁ => h₁.openPrimary
  · exact h.openPrimary

end Housed

theorem start_lastCopied (h : r.start s w = (r', .ok ())) : r'.lastCopied = r.lastCopied := by
  have hprimary : ∀ {r : Run}, r.openPrimary s w = (r', .ok ()) → r'.lastCopied = r.lastCopied := by
    intro r h
    have hopen := openTable_filesOnly (w := w) (r := r) s.databasePath
    unfold openPrimary at h
    split at h
    · cases h
    · next htable =>
      rw [htable] at hopen
      obtain ⟨_, _, rfl⟩ := hopen
      cases h
      rfl
  unfold start at h
  split at h
  · split at h
    · cases h
    · next htarget =>
      obtain ⟨_, _, _, hkeeps⟩ := openTarget_keeps (s := s) (w := w) (r := r)
      rw [htarget] at hkeeps
      subst hkeeps
      have hsame := hprimary h
      exact hsame
  · exact hprimary h

theorem gather_unstopped (hw : w.Sound) {checkNew : Bool} (hmode : s.mode = .compact checkNew)
    (hI : Copying s w files I) (hphase : r.phase = .gather) (h : r.gather s w = (r', .ok ())) :
    r'.stopped = r.stopped ∧ (Unstopped I r → Unstopped I r') := by
  unfold gather at h
  split at h
  · cases h
  · next r₁ hpull =>
    have hlooks := (pull_looks (s := s) (w := w) (r := r) s.batch).sameCourse
    rw [hpull] at hlooks
    cases h
    have hnext : ∃ phase, (if r₁.source.isNone then { r₁ with phase := .drain } else r₁) =
        { r₁ with phase } ∧ (phase ≠ .gather → r₁.source = none) ∧ phase ≠ .finish := by
      split
      · next hnone => exact ⟨.drain, rfl, fun _ => Option.isNone_iff_eq_none.1 hnone, by decide⟩
      · have hsame : r₁.phase = .gather := hlooks.phase.trans hphase
        exact ⟨r₁.phase, rfl, fun hne => absurd hsame hne, by rw [hsame]; decide⟩
    obtain ⟨phase, heq, hseen, hfinish⟩ := hnext
    rw [heq]
    have hcourse := performNext_sameCourse (s := s) (w := w) (r := { r₁ with phase })
    have hsource := performNext_sameSource s w { r₁ with phase }
    obtain ⟨reported, sent, hkeeps⟩ := (performNext s w { r₁ with phase }).reportProgress_keeps
    rw [hkeeps]
    refine ⟨hcourse.stopped.trans hlooks.stopped, fun hr => ⟨?_, ?_, ?_⟩⟩
    · have hI₁ := pull_copying hw hmode hI hr.holds hpull
      exact performNext_copying (r := { r₁ with phase }) hw hI hI₁
    · exact fun hne => hsource.source.trans (hseen fun hgather => hne (hcourse.phase.trans hgather))
    · exact fun hdone => absurd (hcourse.phase.symm.trans hdone) hfinish

theorem drain_unstopped (hw : w.Sound) (hI : Copying s w files I) (hphase : r.phase = .drain) :
    (r.drain s w).stopped = r.stopped ∧ (Unstopped I r → Unstopped I (r.drain s w)) := by
  unfold drain
  split
  · next hempty =>
    refine ⟨rfl, fun hr => ⟨hr.holds, fun _ => hr.seen (by simp [hphase]), fun _ => ?_⟩⟩
    have hsize : r.queue.size = 0 := by simpa [Queue.isEmpty] using hempty
    exact List.length_eq_zero_iff.1 (r.queue.size_eq_length ▸ hsize)
  · have hcourse := performNext_sameCourse (s := s) (w := w) (r := r)
    have hsource := performNext_sameSource s w r
    obtain ⟨reported, sent, hkeeps⟩ := (r.performNext s w).reportProgress_keeps
    rw [hkeeps]
    refine ⟨hcourse.stopped, fun hr => ⟨performNext_copying hw hI hr.holds, ?_, ?_⟩⟩
    · exact fun _ => hsource.source.trans (hr.seen (by simp [hphase]))
    · intro hdone
      have hfinish := hcourse.phase.symm.trans hdone
      rw [hphase] at hfinish
      cases hfinish

/-- **A property that looking at candidates and doing jobs keep holds at the end of a run**
    that copies records and is not stopped: then no candidate is to come, and no job is
    left. -/
theorem copying_of_reachable {o : Option Failure} (hw : w.Sound) (hwf : files.WellFormed)
    {checkNew : Bool} (hmode : s.mode = .compact checkNew) (hI : Copying s w files I)
    (h : Reachable s w files o r) :
    (r.phase ∈ [.start, .prepare] → r.lastCopied = none ∧ Housed files r) ∧
      (r.phase ∈ [.gather, .drain, .finish] → r.stopped = false → Unstopped I r) := by
  -- The property begins where the candidates come from somewhere, and each slice keeps it.
  induction h with
  | new => exact ⟨fun _ => ⟨rfl, hwf, fun _ hd => hd⟩, by simp [Run.new]⟩
  | @control _ r message _ ih =>
    rcases r.control_cases message with heq | heq <;> rw [heq]
    · exact ih
    · refine ⟨fun hphase => ?_, fun _ hno => by cases hno⟩
      obtain ⟨hnone, hhoused⟩ := ih.1 hphase
      exact ⟨hnone, hhoused.wellFormed, hhoused.directories⟩
  | @step _ r r' _ hr hs ih =>
    cases act_cases (act_of_step_ok hs).1 with
    | start hphase hact hnext =>
      obtain ⟨hnone, hhoused⟩ := ih.1 (by simp [hphase])
      have hstarted := hhoused.start (s := s) hw.toReliable
      rw [hact] at hstarted
      exact ⟨fun _ => ⟨(start_lastCopied hact).trans hnone, hstarted⟩, by simp [hnext]⟩
    | prepare hphase hact hnext =>
      obtain ⟨hstopped, hlast, hsome⟩ := prepare_unstopped hact
      refine ⟨by simp [hnext], fun _ hno => ⟨?_, by simp [hnext], by simp [hnext]⟩⟩
      have hready := ready_of_reachable hw.toReliable hwf hr hphase
      obtain ⟨source, hbegins, hbooks⟩ := prepare_books hready.source hact
      have hsource : r'.source = source := congrArg Books.source hbooks
      obtain ⟨first, rfl⟩ := Option.isSome_iff_exists.1 (hsource ▸ hsome (hstopped ▸ hno))
      obtain ⟨hnone, hhoused⟩ := ih.1 (by simp [hphase])
      rw [hbooks, hlast, hnone]
      exact hI.begin hready hhoused.directories hbegins
    | gather hphase hact hnext =>
      obtain ⟨hstopped, hkept⟩ := gather_unstopped hw hmode hI hphase hact
      refine ⟨?_, fun _ hno => hkept (ih.2 (by simp [hphase]) (hstopped ▸ hno))⟩
      rcases hnext with hnext | hnext <;> simp [hnext]
    | drain hphase hnext =>
      obtain ⟨hstopped, hkept⟩ := drain_unstopped hw hI hphase
      refine ⟨?_, fun _ hno => hkept (ih.2 (by simp [hphase]) (hstopped ▸ hno))⟩
      rcases hnext with hnext | hnext <;> simp [hnext]
    | finish _ _ hnext => simp [hnext]
    | done hphase => simp [hphase]
  | fail _ hs _ =>
    obtain ⟨r₁, -, rfl⟩ := act_of_step_error hs
    simp [fail]

end Run

end SongLibrary.Reconcile
