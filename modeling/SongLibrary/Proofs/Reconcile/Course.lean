/-
  The course of a run, as far as its books go.

  * `Books.Ready` says what the books are once the tables are open: they have the
    rows that were in the files, and only files of tables have changed
    (`start_ready`);
  * `Lasting` holds of a property that taking candidates and doing jobs keep, whatever
    fails; it holds of the books of every state of a run from there on
    (`course_of_lasting`);
  * `Invariant` holds of a property that is kept where no operation on a table fails and
    files are moved directly to their places (`course_of_reachable`).
-/
import SongLibrary.Proofs.Reconcile.Books
import SongLibrary.Proofs.Reconcile.Replacement

namespace SongLibrary.Reconcile

open FileTree (Retabled)

/-! ## Places of tables -/

namespace Setup

variable (s : Setup) (files : FileTree)

/-- Where the files of the tables are that a run opens. -/
def tablePlaces : List Location :=
  (if FileTree.isFileless s.databasePath then [] else [s.library files]) ++
    if s.mode.isDestructive then [s.draft files] else []

/-- Where files come and go when a run opens its tables. -/
def places : List Location :=
  s.tablePlaces files ++ if s.mode.isDestructive then [s.journal files] else []

/-- The rows of the table of the library. -/
def rows (t : FileTree) : List Row :=
  if FileTree.isFileless s.databasePath then [] else t.rowsAt (s.library t)

/-- The rows of a library are those of a table. -/
theorem exists_table : ∃ table : SongTable, s.rows files = table.rows := by
  unfold rows FileTree.rowsAt
  split
  · exact ⟨⟨[], .nil⟩, rfl⟩
  · cases files.tableAt? (s.library files) with
    | none => exact ⟨⟨[], .nil⟩, rfl⟩
    | some table => exact ⟨table, rfl⟩

variable {s files}

theorem mem_tablePlaces {l : Location} :
    l ∈ s.tablePlaces files ↔ ¬ FileTree.isFileless s.databasePath ∧ l = s.library files ∨
      s.mode.isDestructive ∧ l = s.draft files := by
  unfold tablePlaces
  by_cases hf : FileTree.isFileless s.databasePath <;> by_cases hd : s.mode.isDestructive <;>
    simp [hf, hd]

theorem mem_places {l : Location} :
    l ∈ s.places files ↔ l ∈ s.tablePlaces files ∨ s.mode.isDestructive ∧ l = s.journal files := by
  unfold places
  by_cases hd : s.mode.isDestructive <;> simp [hd]

end Setup

/-! ## Opening the tables -/

namespace Books

variable (s : Setup) (w : Services) (files : FileTree)

/-- What the books are once the tables are open. -/
structure Ready (b : Books) : Prop where
  retabled : Retabled (s.places files) (s.tablePlaces files) files b.files
  /-- The table of the library has the rows it had. -/
  library : b.files.rowsAt (s.library files) = files.rowsAt (s.library files)
  tables : ∀ l ∈ s.tablePlaces files, (b.files.tableAt? l).isSome
  primary : ∃ primary, b.primary = some primary ∧ primary.table.rows = s.rows files ∧
    primary.location =
      if FileTree.isFileless s.databasePath then none else some (s.library files)
  target : if s.mode.isDestructive then ∃ target, b.target = some target ∧
      target.path = s.newDatabasePath ∧ target.location = some (s.draft files) ∧
      target.table.rows = s.leftover files
    else b.target = none
  jobs : b.jobs = []
  source : b.source = none
  moves : b.moves = []

/-- Where candidates come from in the beginning: from nowhere, if the run has been
    stopped. -/
inductive Begins (b : Books) : Option Source → Prop where
  | stopped : Begins b none
  | files (h : s.mode.origin = .fileTree) : Begins b (some (.files (b.files.walk s.root)))
  | table {order : SongTable.Order} {primary : OpenTable} (h : s.mode.origin = .table order)
      (hprimary : b.primary = some primary) :
      Begins b (some (.table (primary.table.visit order Run.pageSize)))

/-- Every file has been moved to a path that leads directly to it. -/
def Direct (b : Books) : Prop :=
  ∀ move ∈ b.moves, files.Leads move.2

/-- A property of books that a run keeps once its tables are open, whatever fails. -/
structure Lasting (I : Books → Prop) : Prop where
  begin : ∀ {b : Books} {source : Option Source}, Ready s files b → Begins s b source →
    I { b with source }
  stop : ∀ {b : Books}, I b → I { b with source := none }
  settle : ∀ {b b' : Books} {c : Candidate} {source : Source}, I b → Takes s b c source →
    Settles s { b with source := some source } c b' → I b'
  work : ∀ (r : Run) (job : Job), I { r.books with jobs := job :: r.books.jobs } →
    I (r.perform s w job).books

/-- A property of books that a run keeps once its tables are open, as long as it
    moves files to paths that lead directly to them, and no operation on a table fails. -/
structure Invariant (I : Books → Prop) : Prop where
  begin : ∀ {b : Books} {source : Option Source}, Ready s files b → Begins s b source →
    I { b with source }
  stop : ∀ {b : Books}, I b → I { b with source := none }
  settle : ∀ {b b' : Books} {c : Candidate} {source : Source}, I b → Takes s b c source →
    Settles s { b with source := some source } c b' → I b'
  work : ∀ {b b' : Books} {job : Job} {jobs : List Job}, I b → b.jobs = job :: jobs →
    Works s w { b with jobs } job b' → b'.Direct files → I b'

variable {s w files}

/-- Moves are not forgotten, so what is kept as long as they are direct lasts. -/
theorem Invariant.lasting {I : Books → Prop} (hw : w.Sound) (hI : Invariant s w files I) :
    Lasting s w files fun b => b.Direct files → I b where
  begin h hbegins _ := hI.begin h hbegins
  stop h hd := hI.stop (h hd)
  settle h htakes hsettles hd :=
    hI.settle (h fun move hmove => hd move (hsettles.moves ▸ hmove)) htakes hsettles
  work r job h hd := by
    have hworks := Run.perform_books (s := s) hw r job
    exact hI.work (h fun move hmove => hd move (hworks.moves_subset hmove)) rfl hworks hd

end Books

namespace Run

open Books

variable {s : Setup} {w : Services} {files : FileTree} {r r' : Run}

/-- Opening the table of the library, after the new one if there is one. -/
theorem openPrimary_ready
    (hretabled : Retabled (s.places files) (s.tablePlaces files) files r.files)
    (hrows : r.files.rowsAt (s.library files) = files.rowsAt (s.library files))
    (hdraft : s.mode.isDestructive → (r.files.tableAt? (s.draft files)).isSome)
    (htarget : if s.mode.isDestructive then ∃ target, r.target = some target ∧
        target.path = s.newDatabasePath ∧ target.location = some (s.draft files) ∧
        target.table.rows = s.leftover files
      else r.target = none)
    (hjobs : r.queue.toList = []) (hsource : r.source = none) (hmoves : r.history.moves = [])
    (h : r.openPrimary s w = (r', .ok ())) : Ready s files r'.books := by
  have hopens := openTable_cases w r s.databasePath
  have hretabled' := hopens.retabled hretabled fun hfile =>
    have hplace : s.library files ∈ s.tablePlaces files := Setup.mem_tablePlaces.2 (.inl ⟨hfile, rfl⟩)
    ⟨Setup.mem_places.2 (.inl hplace), hplace⟩
  unfold openPrimary at h
  split at h
  · cases h
  · next r₁ primary hopen =>
    rw [hopen] at hopens hretabled'
    cases h
    cases hopens with
    | @opened files' table _ hopened =>
      have hlibrary : r.files.destination s.databasePath = s.library files :=
        FileTree.destination_congr hretabled.workingDir _
      obtain ⟨hlocation, htable⟩ := hopened.rows hretabled.wellFormed
      rw [hlibrary] at hlocation htable
      refine ⟨hretabled', (hopened.rowsAt hretabled.wellFormed _).trans hrows, ?_,
        ⟨_, rfl, ?_, hlocation⟩, htarget, hjobs, hsource, hmoves⟩
      · intro l hl
        rcases Setup.mem_tablePlaces.1 hl with ⟨hfile, rfl⟩ | ⟨hd, rfl⟩
        · obtain ⟨l, hl, hsome⟩ := (hopened.table hretabled.wellFormed).resolve_left hfile
          rw [hlocation, if_neg hfile] at hl
          cases hl
          exact Option.isSome_iff_exists.2 ⟨_, hsome⟩
        · obtain ⟨draft, hsome⟩ := Option.isSome_iff_exists.1 (hdraft hd)
          exact Option.isSome_iff_exists.2 ⟨_, hopened.tableAt? hretabled.wellFormed hsome⟩
      · rw [htable, hrows]
        rfl

/-- **Opening the tables makes the books ready.** -/
theorem start_ready (hw : w.Reliable) (hwf : files.WellFormed)
    (hbooks : r.books = ⟨files, none, none, [], none, []⟩) (hhistory : r.history = {})
    (h : r.start s w = (r', .ok ())) : Ready s files r'.books := by
  simp only [books, Books.mk.injEq] at hbooks
  obtain ⟨hfiles, -, htarget, hjobs, hsource, -⟩ := hbooks
  subst hfiles
  unfold start at h
  -- A destructive mode opens its new table before that of the library.
  split at h
  · next hd =>
    split at h
    · cases h
    · next r₁ htarget =>
      obtain ⟨hopened, hkept, hdrafted⟩ := openTarget_cases hw hwf htarget
      obtain ⟨target, hsome, hdrafted⟩ := hdrafted rfl
      have hi := (Intact.refl hwf _).retabled hopened (s.library_not_mem r.files)
      have hdraft : s.draft r.files ∈ s.tablePlaces r.files := Setup.mem_tablePlaces.2 (.inr ⟨hd, rfl⟩)
      have hretabled : Retabled (s.places r.files) (s.tablePlaces r.files) r.files r₁.files := by
        refine hopened.mono ?_ ?_
        · intro l hl
          rcases List.mem_pair.1 hl with rfl | rfl
          · exact Setup.mem_places.2 (.inl hdraft)
          · exact Setup.mem_places.2 (.inr ⟨hd, rfl⟩)
        · intro l hl
          rw [List.mem_singleton.1 hl]
          exact hdraft
      have hsame : r₁.queue = r.queue ∧ r₁.source = r.source := by
        obtain ⟨_, _, _, hkeeps⟩ := openTarget_keeps (s := s) (w := w) (r := r)
        rw [htarget] at hkeeps
        subst hkeeps
        exact ⟨rfl, rfl⟩
      refine openPrimary_ready hretabled hi.rows ?_ ?_ ?_ ?_ ?_ h
      · intro _
        exact Option.isSome_iff_exists.2 ⟨_, hdrafted.table⟩
      · rw [if_pos hd]
        exact ⟨target, hsome, hdrafted.path, hdrafted.location, hdrafted.rows⟩
      · rw [hsame.1, hjobs]
      · rw [hsame.2, hsource]
      · rw [hkept, hhistory]
  · next hd =>
    refine openPrimary_ready (.refl hwf) rfl (fun hd' => absurd hd' hd) ?_ hjobs hsource ?_ h
    · rw [if_neg hd, htarget]
    · rw [hhistory]

/-! ## Looking at candidates, and doing jobs -/

variable {I : Books → Prop}

theorem chooseNextId_books (h : r.chooseNextId s w = (r', .ok ())) : r'.books = r.books := by
  unfold chooseNextId at h
  split at h
  · split at h
    · cases h
    · split at h
      · cases h
      · cases h
        rfl
  · cases h
    rfl

theorem openSource_books (hsource : r.source = none) (h : r.openSource s w = (r', .ok ())) :
    ∃ source, Begins s r.books source ∧ r'.books = { r.books with source } := by
  unfold openSource at h
  split at h
  · cases h
    exact ⟨none, .stopped, by rw [← hsource]; rfl⟩
  · split at h
    · next horigin =>
      cases h
      exact ⟨_, .files horigin, rfl⟩
    · next horigin =>
      split at h
      · cases h
      · split at h
        · cases h
        · next hprimary =>
          cases h
          exact ⟨_, .table horigin hprimary, rfl⟩

/-- Preparing settles where candidates come from. -/
theorem prepare_books (hsource : r.source = none) (h : r.prepare s w = (r', .ok ())) :
    ∃ source, Begins s r.books source ∧ r'.books = { r.books with source } := by
  unfold prepare at h
  split at h
  · cases h
  · next r₁ hchoose =>
    have hsame := chooseNextId_books hchoose
    have hsource₁ : r₁.source = none := (congrArg Books.source hsame).trans hsource
    split at h
    · cases h
    · next r₂ hopen =>
      cases h
      obtain ⟨source, hbegins, hbooks⟩ := openSource_books hsource₁ hopen
      rw [hsame] at hbegins hbooks
      exact ⟨source, hbegins, hbooks⟩

theorem pull_books (hI : Lasting s w files I) {n : Nat} (hr : I r.books)
    (h : pull s w n r = (r', .ok ())) : I r'.books := by
  induction n generalizing r with
  | zero =>
    cases h
    exact hr
  | succ n ih =>
    unfold pull at h
    split at h
    · cases h
      exact hr
    · split at h
      · cases h
      · next r₁ hnext =>
        cases h
        obtain ⟨source, moment, hkeeps⟩ := r.nextCandidate_keeps s w
        rw [hnext] at hkeeps
        subst hkeeps
        exact hI.stop hr
      · next r₁ c hnext =>
        obtain ⟨source, hbooks, htakes⟩ := nextCandidate_books hnext
        split at h
        · cases h
        · next r₂ hclassify =>
          have hsettles := classify_books hclassify
          rw [hbooks] at hsettles
          exact ih (hI.settle hr htakes hsettles) h

theorem performNext_books (hI : Lasting s w files I) (hr : I r.books) :
    I (r.performNext s w).books := by
  cases hpop : r.queue.pop? with
  | none =>
    simp only [performNext, hpop]
    exact hr
  | some taken =>
    obtain ⟨job, queue⟩ := taken
    simp only [performNext, hpop]
    refine hI.work { r with queue, history.taken := job :: r.history.taken } job ?_
    have hjobs : job :: queue.toList = r.books.jobs := (Queue.toList_of_pop? hpop).symm
    simp only [books] at hjobs ⊢
    rw [hjobs]
    exact hr

/-! ## Between two steps -/

/-- How far a run has come between two steps. -/
inductive Course (s : Setup) (files : FileTree) (I : Books → Prop) (r : Run) : Prop where
  | fresh (hphase : r.phase = .start) (hbooks : r.books = ⟨files, none, none, [], none, []⟩)
      (hhistory : r.history = {})
  | ready (hphase : r.phase = .prepare) (h : Ready s files r.books)
  | working (hphase : r.phase ∈ [.gather, .drain, .finish]) (h : I r.books)
  | ended (hphase : r.phase = .done)

theorem gather_books (hI : Lasting s w files I) (hr : I r.books) (h : r.gather s w = (r', .ok ())) :
    I r'.books := by
  unfold gather at h
  split at h
  · cases h
  · next r₁ hpull =>
    cases h
    have hbooks : (if r₁.source.isNone then { r₁ with phase := .drain } else r₁).books = r₁.books := by
      split <;> rfl
    generalize (if r₁.source.isNone then { r₁ with phase := .drain } else r₁) = r₂ at hbooks ⊢
    obtain ⟨reported, sent, hkeeps⟩ := (r₂.performNext s w).reportProgress_keeps
    rw [hkeeps]
    refine performNext_books hI ?_
    rw [hbooks]
    exact pull_books hI hr hpull

theorem drain_books (hI : Lasting s w files I) (hr : I r.books) : I (r.drain s w).books := by
  unfold drain
  split
  · exact hr
  · obtain ⟨reported, sent, hkeeps⟩ := (r.performNext s w).reportProgress_keeps
    rw [hkeeps]
    exact performNext_books hI hr

/-- **A property that taking candidates and doing jobs keep holds of every run**,
    from where its tables are open and candidates come from somewhere. -/
theorem course_of_lasting {o : Option Failure} (hw : w.Reliable) (hwf : files.WellFormed)
    (hI : Lasting s w files I) (h : Reachable s w files o r) : Course s files I r := by
  -- What lasts begins with the source of the candidates, and ends when the tables are closed.
  induction h with
  | new => exact .fresh rfl rfl rfl
  | @control _ r message _ ih =>
    rcases r.control_cases message with heq | heq <;> rw [heq]
    · exact ih
    · cases ih with
      | fresh hphase hbooks hhistory =>
        refine .fresh hphase ?_ hhistory
        simp only [books, Books.mk.injEq] at hbooks ⊢
        exact ⟨hbooks.1, hbooks.2.1, hbooks.2.2.1, hbooks.2.2.2.1, trivial, hbooks.2.2.2.2.2⟩
      | ready hphase hr =>
        exact .ready hphase
          ⟨hr.retabled, hr.library, hr.tables, hr.primary, hr.target, hr.jobs, rfl, hr.moves⟩
      | working hphase hr => exact .working hphase (hI.stop hr)
      | ended hphase => exact .ended hphase
  | @step _ r r' _ _ hs ih =>
    have hact := (act_of_step_ok hs).1
    cases ih with
    | fresh hphase hbooks hhistory =>
      simp only [act, hphase] at hact
      exact .ready (start_phase hact) (start_ready hw hwf hbooks hhistory hact)
    | ready hphase hr =>
      simp only [act, hphase] at hact
      obtain ⟨source, hbegins, hbooks⟩ := prepare_books hr.source hact
      refine .working (by simp [prepare_phase hact]) ?_
      rw [hbooks]
      exact hI.begin hr hbegins
    | working hphase hr =>
      cases act_cases hact with
      | start hcase _ _ => simp [hcase] at hphase
      | prepare hcase _ _ => simp [hcase] at hphase
      | gather _ hact hnext =>
        refine .working ?_ (gather_books hI hr hact)
        rcases hnext with hnext | hnext <;> simp [hnext]
      | drain _ hnext =>
        refine .working ?_ (drain_books hI hr)
        rcases hnext with hnext | hnext <;> simp [hnext]
      | finish _ _ hnext => exact .ended hnext
      | done hcase => simp [hcase] at hphase
    | ended hphase =>
      rw [act_of_done hphase] at hact
      cases hact
      exact .ended hphase
  | fail _ hs _ =>
    obtain ⟨r₁, -, rfl⟩ := act_of_step_error hs
    exact .ended rfl

/-- A property that is kept as long as moves are direct holds of every run that moves files
    directly. -/
theorem course_of_reachable {o : Option Failure} (hw : w.Sound) (hwf : files.WellFormed)
    (hI : Invariant s w files I) (h : Reachable s w files o r) :
    Course s files (fun b => b.Direct files → I b) r :=
  course_of_lasting hw.toReliable hwf (hI.lasting hw) h

/-- Between opening and closing the tables, what lasts holds. -/
theorem Course.books (hc : Course s files I r) (hphase : r.phase ∈ [.gather, .drain, .finish]) :
    I r.books := by
  cases hc with
  | fresh hstart _ _ => simp [hstart] at hphase
  | ready hprepare _ => simp [hprepare] at hphase
  | working _ hr => exact hr
  | ended hdone => simp [hdone] at hphase

/-- A run that has opened its tables is ready. -/
theorem ready_of_reachable {o : Option Failure} (hw : w.Reliable) (hwf : files.WellFormed)
    (h : Reachable s w files o r) (hphase : r.phase = .prepare) : Books.Ready s files r.books := by
  have hI : Lasting s w files fun _ => True :=
    ⟨fun _ _ => trivial, fun _ => trivial, fun _ _ _ => trivial, fun _ _ _ => trivial⟩
  cases course_of_lasting hw hwf hI h with
  | fresh hstart _ _ => simp [hstart] at hphase
  | ready _ hready => exact hready
  | working hworking _ => simp [hphase] at hworking
  | ended hdone => simp [hdone] at hphase

/-- Such a property holds when the tables are to be closed. -/
theorem books_of_reachable (hw : w.Sound) (hwf : files.WellFormed) (hI : Invariant s w files I)
    (h : Reachable s w files none r) (hphase : r.phase = .finish) (hd : r.books.Direct files) :
    I r.books :=
  (course_of_reachable hw hwf hI h).books (by simp [hphase]) hd

end Run

end SongLibrary.Reconcile
