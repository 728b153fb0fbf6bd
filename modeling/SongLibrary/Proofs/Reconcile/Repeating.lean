/-
  Runs that follow on others.

  A run stores nothing where there is nothing new (`Barren`).  One that adds files does so
  where it passes over all that it comes to (`Setup.HasAll`): that is where a run of this
  kind leaves a library (`hasAll_of_run`), and another then adds nothing (`nothing_new`).
-/
import SongLibrary.Proofs.Reconcile.Passing
import SongLibrary.Proofs.SongTable.OnlyTables

namespace SongLibrary.Reconcile

open FileTree (OnlyTables Retabled)

variable {s : Setup} {w : Services} {files t t' : FileTree} {r r' r'' : Run} {primary : OpenTable}
  {rest : List Path} {p : Path}

/-! ## What is read of files -/

/-- The tags that are read of a file. -/
def Services.tagsIn? (w : Services) (t : FileTree) (p : Path) : Option ParsedTags :=
  match t.read p with
  | .error _ => none
  | .ok content => (w.readTags 0 p content).toOption

/-- The same is read of a file where only tables have changed: there are no tags in a table. -/
theorem Services.Reliable.tagsIn?_congr (hw : w.Reliable) (hwf : t.WellFormed)
    (hwf' : t'.WellFormed) (h : OnlyTables t t') : w.tagsIn? t' p = w.tagsIn? t p := by
  have htable : ∀ table, (w.readTags 0 p (.songs table)).toOption = none := by
    intro table
    cases htags : w.readTags 0 p (.songs table) with
    | error failure => rfl
    | ok parsed => exact absurd htags (hw.readTags 0 p table parsed)
  unfold tagsIn?
  cases hread : t.read p with
  | ok content =>
    rcases h.read hwf hread with hsame | ⟨a, b, rfl, hother⟩
    · rw [hsame]
    · rw [hother]
      exact (htable b).trans (htable a).symm
  | error fault =>
    cases hread' : t'.read p with
    | error fault' => rfl
    | ok content =>
      rcases h.symm.read hwf' hread' with hsame | ⟨a, b, -, hother⟩
      · rw [hread] at hsame
        cases hsame
      · rw [hread] at hother
        cases hother

theorem Setup.newSong?_eq : s.newSong? w t p = (w.tagsIn? t p).bind fun parsed =>
    if parsed.isEmpty then none
    else some (fillDerived s.refs s.readingTemplate (pathFrom s.root p)
      { Song.new (keyOf s.musicDir p) "" with tags := parsed.tags }) := by
  unfold newSong? Services.tagsIn?
  cases t.read p with
  | error fault => rfl
  | ok content =>
    dsimp only
    cases w.readTags 0 p content <;> rfl

theorem Run.readTags_eq (hw : w.Steady) (r : Run) (p : Path) :
    ∃ moment, r.readTags w p = (w.tagsIn? r.files p, { r with moment }) := by
  unfold readTags Services.tagsIn?
  rw [hw.reads r.moment 0]
  cases r.files.read p with
  | error fault => exact ⟨r.moment, rfl⟩
  | ok content => exact ⟨r.moment + 1, rfl⟩

/-! ## Where nothing is stored -/

namespace Run

/-- Nothing has been stored on the way to the second state. -/
structure Unstored (r r' : Run) : Prop where
  primary : r'.primary = r.primary
  target : r'.target = r.target
  counts : ∀ counter ∈ [Counter.new, .updated], r'.counters.get counter = r.counters.get counter

namespace Unstored

theorem trans (h : Unstored r r') (h' : Unstored r' r'') : Unstored r r'' :=
  ⟨h'.primary.trans h.primary, h'.target.trans h.target,
    fun counter hc => (h'.counts counter hc).trans (h.counts counter hc)⟩

theorem count (h : Unstored r r') (counter : Counter) (hc : counter ∉ [Counter.new, .updated]) :
    Unstored r (r'.count counter) := by
  refine ⟨h.primary, h.target, fun other hother => ?_⟩
  have hne : other ≠ counter := by
    rintro rfl
    exact hc hother
  rw [← h.counts other hother]
  simp [Run.count, Counters.increment, hne]

end Unstored

/-- Moving a file stores nothing. -/
theorem rename_unstored (s : Setup) (w : Services) (r : Run) (song : Song) (path : Path)
    (bypass : Option String) (force : Bool) :
    Unstored r (r.rename s w song path bypass force).2 := by
  obtain ⟨song', r₁, hrenamed, heq⟩ := r.rename_cases s w song path bypass force
  have h₁ : Unstored r r₁ := by
    cases hrenamed <;> exact ⟨rfl, rfl, fun _ _ => rfl⟩
  rcases heq with heq | ⟨counter, hcounter, heq⟩ <;> rw [heq]
  · exact h₁
  · refine h₁.count counter ?_
    simp only [List.mem_cons, List.not_mem_nil, or_false] at hcounter
    rcases hcounter with rfl | rfl | rfl <;> decide

/-- Moving a file leaves the id of its song. -/
theorem rename_id (s : Setup) (w : Services) (r : Run) (song : Song) (path : Path)
    (bypass : Option String) (force : Bool) :
    (r.rename s w song path bypass force).1.id = song.id := by
  obtain ⟨song', r₁, hrenamed, heq⟩ := r.rename_cases s w song path bypass force
  have hid : song'.id = song.id := by
    cases hrenamed <;> rfl
  rcases heq with heq | ⟨counter, -, heq⟩ <;> rw [heq] <;> exact hid

/-- A full table takes no new song. -/
theorem store_unstored {song : Song} (hw : w.Sound) (htarget : r.target = none)
    (hprimary : r.primary = some primary) (hfull : IsFull primary.table.rows) (hid : song.id = none) :
    Unstored r (r.store w song false) := by
  have hsave : primary.table.save? song = none := by
    simp [SongTable.save?, hid, SongTable.insert?_of_isFull hfull hid]
  have hstore : r.store w song false = r.asked.count .bad := by
    simp [store, storeIn, saveToPrimary, hw.tableFails, htarget, hprimary, hsave, asked]
  rw [hstore]
  have hasked : Unstored r r.asked := ⟨rfl, rfl, fun _ _ => rfl⟩
  exact hasked.count .bad (by decide)

/-- The job for a file stores nothing, where it is passed over or the table is full. -/
theorem perform_unstored (hw : w.Steady) (hmode : s.mode = .checkNew) (htarget : r.target = none)
    (hprimary : r.primary = some primary)
    (h : IsFull primary.table.rows ∨ s.newSong? w r.files p = none) :
    Unstored r (r.perform s w (s.newJob p)) := by
  obtain ⟨moment, ⟨hnone, heq⟩ | ⟨content, parsed, song, date, -, -, hsong, heq⟩⟩ :=
    r.perform_fresh (s := s) (p := p) hw (.inl hmode)
  · rw [heq]
    have hmoment : Unstored r { r with moment } := ⟨rfl, rfl, fun _ _ => rfl⟩
    exact (hmoment.count .noTags (by decide)).count .skipped (by decide)
  · have hfull := h.resolve_right (by simp [hsong])
    have hid : ({ song with dateAdded := date } : Song).id = none := by
      obtain ⟨tags, rfl⟩ := Setup.newSong?_eq_some hsong
      rfl
    have hmoment : Unstored r { r with moment } := ⟨rfl, rfl, fun _ _ => rfl⟩
    rw [heq]
    by_cases hauto : s.autoOrganize && s.mode.allowsMoves
    · rw [if_pos hauto]
      have hmoved := hmoment.trans (rename_unstored s w { r with moment }
        { song with dateAdded := date } p (s.bypass? (pathFrom s.root p)) false)
      have hid' := (rename_id s w { r with moment } { song with dateAdded := date } p
        (s.bypass? (pathFrom s.root p)) false).trans hid
      generalize Run.rename s w { r with moment } _ p _ false = renamed at hmoved hid' ⊢
      exact (hmoved.trans (store_unstored hw.toSound (hmoved.target.trans htarget)
        (hmoved.primary.trans hprimary) hfull hid')).count .processed (by decide)
    · rw [if_neg hauto]
      exact (hmoment.trans (store_unstored hw.toSound htarget hprimary hfull hid)).count
        .processed (by decide)

end Run

/-! ## Runs that store nothing -/

/-- What a run has to look at in a library: the files that a scan comes to, or the songs that a
    visit of the table comes to. -/
def Setup.Known (s : Setup) (t : FileTree) (c : Candidate) : Prop :=
  match s.mode.origin with
  | .fileTree => ∃ p ∈ (s.opened t).walk s.root, c = s.ofFile p
  | .table order => ∃ row ∈ s.rows t, SongTable.Cursor.precedes order {} row ∧ c = s.ofSong row.song

section

variable (s : Setup) (w : Services) (t : FileTree) (still : Prop)

/-- A run has stored nothing: the table of the library is as it was, and so are the files, on
    a condition. -/
structure Barren (r : Run) (primary : OpenTable) : Prop where
  opened : r.primary = some primary
  rows : primary.table.rows = s.rows t
  location : primary.location = t.tableFile? s.databasePath
  target : r.target = none
  counts : ∀ counter ∈ [Counter.new, .updated], r.counters.get counter = 0
  files : still → r.files = s.opened t

/-- Doing the job stores nothing in a run that has stored nothing. -/
def Spare (job : Job) : Prop :=
  ∀ r primary, Barren s t still r primary → Barren s t still (r.perform s w job) primary

/-- All that is looked at comes to jobs that store nothing. -/
def Idle : Prop :=
  ∀ r primary, Barren s t still r primary → ∀ c, s.Known t c → ∀ job,
    (s.verdict c (r.files.pathExists c.path) (s.recordIn c primary.table)).job = some job →
      Spare s w t still job

/-- A run that has stored nothing goes on to store nothing. -/
structure Idling (r : Run) (primary : OpenTable) : Prop extends Barren s t still r primary where
  jobs : ∀ job ∈ r.queue.toList, Spare s w t still job
  known : ∀ source ∈ r.source,
    (∃ paths, source = .files paths ∧ ∀ p ∈ paths, s.Known t (s.ofFile p)) ∨
      ∃ visit, source = .table visit ∧ ∀ song ∈ visit.rest primary.table, s.Known t (s.ofSong song)

end

variable {still : Prop}

theorem Barren.unstored (h : Barren s t still r primary) (hu : Run.Unstored r r')
    (hfiles : still → r'.files = r.files) : Barren s t still r' primary :=
  ⟨hu.primary.trans h.opened, h.rows, h.location, hu.target.trans h.target,
    fun counter hc => (hu.counts counter hc).trans (h.counts counter hc),
    fun hstill => (hfiles hstill).trans (h.files hstill)⟩

/-- Nothing is stored by looking at a candidate. -/
theorem tally_verdict {counter : Counter} (hc : counter ∈ [Counter.new, .updated]) (c : Candidate)
    (isThere : Bool) (existing : Option Song) :
    tally (s.verdict c isThere existing).marks counter = 0 := by
  have hadmission : ∀ existing, counter ∉ (s.admission c existing).marks := by
    intro existing hmem
    unfold Setup.admission at hmem
    simp only [List.mem_cons, List.not_mem_nil, or_false] at hc
    split at hmem <;> rcases hc with rfl | rfl <;> simp at hmem
  have hsettlement : counter ∉ (s.settlement c existing).marks := by
    simp only [List.mem_cons, List.not_mem_nil, or_false] at hc
    unfold Setup.settlement
    split <;> rcases hc with rfl | rfl <;> simp [hadmission]
  have hverdict : counter ∉ (s.verdict c isThere existing).marks := by
    simp only [List.mem_cons, List.not_mem_nil, or_false] at hc
    unfold Setup.verdict
    split
    · next reason _ => rcases hc with rfl | rfl <;> cases reason <;> decide
    · split
      · rcases hc with rfl | rfl <;> decide
      · rcases hc with rfl | rfl <;> simp [hsettlement]
  rw [tally, List.count_eq_zero.2 hverdict]
  rfl

namespace Idling

theorem next {c : Candidate} (h : Idling s w t still r primary)
    (hnext : r.nextCandidate s w = (r', .ok (some c))) :
    s.Known t c ∧ Idling s w t still r' primary ∧ r'.queue = r.queue := by
  unfold Run.nextCandidate at hnext
  split at hnext
  · cases hnext
  · cases hnext
  · next p paths hsource =>
    cases hnext
    obtain ⟨_, ⟨⟩, hpaths⟩ := (h.known _ hsource).resolve_right (by simp)
    obtain ⟨hp, hpaths⟩ := List.forall_mem_cons.1 hpaths
    refine ⟨hp, ⟨⟨h.opened, h.rows, h.location, h.target, h.counts, h.files⟩, h.jobs, ?_⟩, rfl⟩
    rintro _ ⟨⟩
    exact .inl ⟨paths, rfl, hpaths⟩
  · next visit hsource =>
    obtain ⟨_, ⟨⟩, hrest⟩ := (h.known _ hsource).resolve_left (by simp)
    split at hnext
    · cases hnext
    · rw [h.opened] at hnext
      dsimp only at hnext
      split at hnext
      · cases hnext
      · next song visit' hvisit =>
        rw [(SongTable.Visit.rest_of_next hvisit).1] at hrest
        obtain ⟨hknown, hrest⟩ := List.forall_mem_cons.1 hrest
        split at hnext <;> cases hnext <;>
          refine ⟨hknown, ⟨⟨h.opened, h.rows, h.location, h.target, h.counts, h.files⟩, h.jobs, ?_⟩,
            rfl⟩ <;>
          · rintro _ ⟨⟩
            exact .inr ⟨visit', rfl, hrest⟩

theorem exhaust (h : Idling s w t still r primary)
    (hnext : r.nextCandidate s w = (r', .ok none)) :
    Idling s w t still { r' with source := none } primary := by
  have hsame : ∃ source moment, r' = { r with source, moment } := by
    unfold Run.nextCandidate at hnext
    split at hnext
    · cases hnext
      exact ⟨r.source, r.moment, rfl⟩
    · cases hnext
      exact ⟨r.source, r.moment, rfl⟩
    · cases hnext
    · split at hnext
      · cases hnext
      · rw [h.opened] at hnext
        dsimp only at hnext
        split at hnext
        · split at hnext <;> cases hnext <;> exact ⟨_, _, rfl⟩
        · cases hnext
  obtain ⟨source, moment, rfl⟩ := hsame
  exact ⟨⟨h.opened, h.rows, h.location, h.target, h.counts, h.files⟩, h.jobs, by simp⟩

theorem look {c : Candidate} (hw : w.Sound) (hcompact : ∀ checkNew, s.mode ≠ .compact checkNew)
    (hidle : Idle s w t still) (h : Idling s w t still r primary) (hknown : s.Known t c)
    (hopen : r.queue.closed = false) (hclassify : r.classify s w c = (r', .ok ())) :
    Idling s w t still r' primary := by
  obtain ⟨queue, counters, moment, history, hqueue, hcounts, -, rfl⟩ :=
    Run.classify_judged hw h.opened hopen hclassify
  rw [Setup.copy_verdict hcompact]
  refine ⟨⟨h.opened, h.rows, h.location, h.target, fun counter hc => ?_, h.files⟩, ?_, h.known⟩
  · have hne : counter ≠ .queueHighWater := by
      rintro rfl
      simp at hc
    rw [hcounts counter hne, h.counts counter hc, tally_verdict hc]
    rfl
  · dsimp only
    rw [hqueue]
    intro job hjob
    rcases List.mem_append.1 hjob with hjob | hjob
    · exact h.jobs job hjob
    · exact hidle r primary h.toBarren c hknown job (Option.mem_toList.1 hjob)

theorem slice (hw : w.Sound) (hcompact : ∀ checkNew, s.mode ≠ .compact checkNew)
    (hidle : Idle s w t still) (h : Idling s w t still r primary) (hslice : Run.Slice s w r r') :
    Idling s w t still r' primary := by
  cases hslice with
  | note phase reported sent =>
    exact ⟨⟨h.opened, h.rows, h.location, h.target, h.counts, h.files⟩, h.jobs, h.known⟩
  | exhaust hopen hnext => exact h.exhaust hnext
  | look hopen hnext hclassify =>
    obtain ⟨hknown, h₁, hqueue⟩ := h.next hnext
    exact h₁.look hw hcompact hidle hknown (hqueue ▸ hopen) hclassify
  | @work job queue hpop =>
    have hjobs := Queue.toList_of_pop? hpop
    have hkept := Run.perform_kept s w { r with queue, history.taken := job :: r.history.taken } job
    have hbarren : Barren s t still { r with queue, history.taken := job :: r.history.taken } primary :=
      ⟨h.opened, h.rows, h.location, h.target, h.counts, h.files⟩
    refine ⟨h.jobs job (by simp [hjobs]) _ _ hbarren, fun other hother => h.jobs other ?_,
      fun source hsource => h.known source (hkept.source ▸ hsource)⟩
    rw [hkept.queue] at hother
    exact hjobs ▸ List.mem_cons_of_mem _ hother

theorem begin {r₀ : Run} (hmode : s.mode.isDestructive = false) (hwf : t.WellFormed)
    (hstart : (Run.new s t).start s w = (r₀, .ok ())) (hprepare : r₀.prepare s w = (r, .ok ())) :
    ∃ primary, Idling s w t still r primary := by
  obtain ⟨table, moment, hopened, rfl⟩ := Run.start_opens hmode hstart
  have hrows : table.rows = s.rows t := by
    have hcases := t.openTable_cases s.databasePath
    have hopened : t.openTable s.databasePath = (s.opened t, some table) := hopened
    rw [hopened] at hcases
    exact (hcases.rows hwf).2
  have hbarren : ∀ {source : Option Source} {nextId : Option Int64} {total moment : Nat}
      {sent : List Message}, Barren s t still { Run.new s t with
        files := s.opened t, primary := some ⟨s.databasePath, t.tableFile? s.databasePath, table⟩
        source, nextId, total, moment, sent, phase := .gather }
      ⟨s.databasePath, t.tableFile? s.databasePath, table⟩ := by
    intros
    exact ⟨rfl, hrows, rfl, rfl, fun counter _ => Counters.get_zero counter, fun _ => rfl⟩
  cases Run.prepare_begun rfl hprepare with
  | files horigin hid =>
    refine ⟨_, hbarren, fun job hjob => (by cases hjob), ?_⟩
    rintro _ ⟨⟩
    refine .inl ⟨_, rfl, fun p hp => ?_⟩
    rw [Setup.Known, horigin]
    exact ⟨p, hp, rfl⟩
  | @table order primary nextId total moment' sent horigin hprimary hid =>
    cases hprimary
    refine ⟨_, hbarren, fun job hjob => (by cases hjob), ?_⟩
    rintro _ ⟨⟩
    refine .inr ⟨_, rfl, fun song hsong => ?_⟩
    rw [SongTable.Visit.rest_visit] at hsong
    obtain ⟨row, hrow, rfl⟩ := List.mem_map.1 hsong
    obtain ⟨hmem, hprecedes⟩ := List.mem_filter.1 hrow
    rw [Setup.Known, horigin]
    exact ⟨row, hrows ▸ (table.perm_ordered order).subset hmem, hprecedes, rfl⟩

/-- Such a run when it is to close its tables. -/
theorem of_reachable (hw : w.Sound) (hmode : s.mode.isDestructive = false) (hwf : t.WellFormed)
    (hidle : Idle s w t still) (h : Reachable s w t none r) (hphase : r.phase = .finish)
    (hstop : r.stopped = false) : ∃ primary, Idling s w t still r primary := by
  have hworking := Run.working_of_reachable h hstop (by simp [hphase])
  obtain ⟨r₀, r₁, hstart, hprepare, hslices⟩ := hworking.slices
  obtain ⟨primary, hbegin⟩ : ∃ primary, Idling s w t still r₁ primary :=
    begin hmode hwf hstart hprepare
  have hcompact : ∀ checkNew, s.mode ≠ .compact checkNew := by
    intro checkNew heq
    rw [heq] at hmode
    cases hmode
  clear hworking h hphase hstop
  exact ⟨primary, hslices.rec hbegin fun _ hslice ih => ih.slice hw hcompact hidle hslice⟩

end Idling

/-- **A run that stores nothing ends with the library as it was.** -/
theorem Barren.step (hw : w.Sound) (hwf : t.WellFormed) {table : SongTable}
    (hopen : t.openTable s.databasePath = (s.opened t, some table))
    (h : Barren s t still r primary) (hphase : r.phase = .finish) :
    ∃ r', r.step s w = (r', .ok .done) ∧ r'.counters.get .new = 0 ∧ r'.counters.get .updated = 0 ∧
      (still → s.rows r'.files = s.rows t ∧ ∀ l, l ≠ s.library t → r'.files.get? l = t.get? l) := by
  obtain ⟨moment, hfinish⟩ := Run.finish_saves (s := s) (r := r) hw h.target h.opened
  have hstep : r.step s w = ((r.finish s w).1, .ok .done) := by
    rw [Run.step, Run.act, hphase, hfinish]
    rfl
  obtain ⟨sent, hkeeps⟩ := Run.report_keeps (r := { r with
    source := none, primary := none, files := r.savedFiles primary, moment }) false
  rw [hfinish, hkeeps] at hstep
  have hsame : ∀ counter ∈ [Counter.new, .updated],
      (r.counters.raise .queueHighWater (.ofNat r.queue.highWater)).get counter = 0 := by
    intro counter hc
    rw [← h.counts counter hc]
    simp only [List.mem_cons, List.not_mem_nil, or_false] at hc
    rcases hc with rfl | rfl <;> simp [Counters.raise]
  refine ⟨_, hstep, hsame .new (by simp), hsame .updated (by simp), fun hstill => ?_⟩
  obtain ⟨hsaved, hothers⟩ := Run.rows_savedFiles hwf hopen (h.files hstill) h.location
  refine ⟨?_, hothers⟩
  by_cases hfile : FileTree.isFileless s.databasePath
  · rw [Setup.rows, Setup.rows, if_pos hfile, if_pos hfile]
  · exact (hsaved hfile).trans h.rows

/-- **Where all that is looked at comes to jobs that store nothing, a run ends with the library
    as it was.** -/
theorem Idle.step (hw : w.Sound) (hmode : s.mode.isDestructive = false) (hwf : t.WellFormed)
    (hidle : Idle s w t still) (h : Reachable s w t none r) (hphase : r.phase = .finish)
    (hstop : r.stopped = false) :
    ∃ r', r.step s w = (r', .ok .done) ∧ r'.counters.get .new = 0 ∧ r'.counters.get .updated = 0 ∧
      (still → s.rows r'.files = s.rows t ∧ ∀ l, l ≠ s.library t → r'.files.get? l = t.get? l) := by
  obtain ⟨primary, hidling⟩ := Idling.of_reachable hw hmode hwf hidle h hphase hstop
  have hworking := Run.working_of_reachable h hstop (by simp [hphase])
  obtain ⟨r₀, r₁, hstart, -, -⟩ := hworking.slices
  obtain ⟨table, moment, hopened, -⟩ := Run.start_opens hmode hstart
  exact hidling.toBarren.step hw hwf hopened hphase

/-! ## Runs that add nothing -/

/-- A library to which a run adds nothing: there is no id left, or each file that a scan comes
    to is passed over. -/
def Setup.HasAll (s : Setup) (w : Services) (t : FileTree) : Prop :=
  IsFull (s.rows t) ∨ ∀ p ∈ (s.opened t).walk s.root, s.Passes w (s.rows t) (s.opened t) p

/-- The job for a file leaves the files as they are, where these are not moved or the file is
    passed over. -/
theorem Run.perform_files (hw : w.Steady) (hmode : s.mode = .checkNew)
    (h : s.autoOrganize = false ∨ s.newSong? w r.files p = none) :
    (r.perform s w (s.newJob p)).files = r.files := by
  obtain ⟨moment, ⟨hnone, heq⟩ | ⟨content, parsed, song, date, -, -, hsong, heq⟩⟩ :=
    r.perform_fresh (s := s) (p := p) hw (.inl hmode)
  · rw [heq]
    rfl
  · rw [heq, h.resolve_right (by simp [hsong])]
    exact (Run.store_books hw.toSound { r with moment } { song with dateAdded := date }
      false).sameFiles

/-- A file that has a job is new. -/
theorem Setup.isNew_of_job {table : SongTable} {c : Candidate} {job : Job} {isThere : Bool}
    (hmode : s.mode = .checkNew) (hknown : s.Known t c) (hrows : table.rows = s.rows t)
    (hjob : (s.verdict c isThere (s.recordIn c table)).job = some job) :
    ∃ p ∈ (s.opened t).walk s.root, job = s.newJob p ∧ s.IsNew (s.rows t) p := by
  obtain ⟨hpath, hkey, hexisting⟩ := Setup.job_of_verdict hjob
  -- A candidate with a record has no job.
  have hnone : s.recordIn c table = none := by
    cases hrecord : s.recordIn c table with
    | none => rfl
    | some song =>
      rw [hrecord] at hjob
      simp only [Setup.verdict, Setup.settlement, hmode] at hjob
      split at hjob
      · cases hjob
      · split at hjob <;> cases hjob
  have hrecord : c.record = none ∧ table.songAt? c.key = none := by
    simpa [Setup.recordIn, hmode] using hnone
  rw [Setup.Known, hmode] at hknown
  obtain ⟨p, hp, rfl⟩ := hknown
  rw [hnone] at hjob
  unfold Setup.verdict at hjob
  refine ⟨p, hp, ?_⟩
  split at hjob
  · cases hjob
  · next hreason =>
    rw [if_neg (by simp [Setup.ofFile])] at hjob
    have hadmitted : (s.admission (s.ofFile p) none).job = some job := hjob
    unfold Setup.admission at hadmitted
    split at hadmitted
    · cases hadmitted
    · next hgood =>
      refine ⟨(Option.some.inj hadmitted).symm, hreason, ?_, Bool.not_eq_true _ ▸ hgood⟩
      rw [← hrows]
      exact SongTable.songAt?_eq_none_iff.1 hrecord.2

theorem Setup.HasAll.idle (hw : w.Steady) (hmode : s.mode = .checkNew) (h : s.HasAll w t) :
    Idle s w t (IsFull (s.rows t) → s.autoOrganize = false) := by
  intro r primary hbarren c hknown job hjob
  obtain ⟨p, hp, rfl, hnew⟩ := Setup.isNew_of_job hmode hknown hbarren.rows hjob
  have hnone : IsFull (s.rows t) ∨ s.newSong? w (s.opened t) p = none :=
    h.imp_right fun hpasses => (hpasses p hp).resolve_left (not_not_intro hnew)
  intro r primary hbarren
  have hhere : IsFull (s.rows t) ∨ s.newSong? w r.files p = none := by
    by_cases hfull : IsFull (s.rows t)
    · exact .inl hfull
    · rw [hbarren.files fun hfull' => absurd hfull' hfull]
      exact hnone
  refine hbarren.unstored (Run.perform_unstored hw hmode hbarren.target hbarren.opened
    (hbarren.rows ▸ hhere)) fun hstill => Run.perform_files hw hmode (hhere.imp_left hstill)

/-- A file is passed over as before where only tables have changed. -/
theorem Setup.Passes.retabled {rows : List Row} (hw : w.Reliable) (hwf : t.WellFormed)
    (hwf' : t'.WellFormed) (h : OnlyTables t t') (hpasses : s.Passes w rows t p) :
    s.Passes w rows t' p := by
  refine hpasses.imp_right fun hnone => ?_
  rwa [newSong?_eq, hw.tagsIn?_congr hwf hwf' h, ← newSong?_eq]

/-- **A run leaves a library that has all**, if it has moved files directly, and the songs that
    it has added for these have plain keys. -/
theorem hasAll_of_run (hw : w.Steady) (hmode : s.mode = .checkNew) (hwf : files.WellFormed)
    (hlisted : files.Listed) (haligned : s.autoOrganize → s.Aligned)
    (hfile : ¬ FileTree.isFileless s.databasePath) (h : Reachable s w files none r)
    (hphase : r.phase = .finish) (hstop : r.stopped = false) {o : Except Failure Run.Progress}
    (hs : r.step s w = (r', o))
    (hdirect : ∀ move ∈ r'.history.moves, files.Leads move.2)
    (hplain : ∀ row ∈ s.rows r'.files, row ∉ s.rows files →
      (∃ move ∈ r'.history.moves, move.2 = resolve s.musicDir row.uri) → IsPlainKey row.uri) :
    r'.files.WellFormed ∧ r'.files.Listed ∧ ∀ table : SongTable,
      r'.files.openTable s.databasePath = (s.opened r'.files, some table) → s.HasAll w r'.files := by
  obtain ⟨primary, hentering, hqueue⟩ :=
    Entering.of_reachable hw hmode hwf hlisted haligned h hphase hstop
  obtain ⟨r₁, outcome, hact, hfiles, hhistory, -⟩ := act_of_step hs
  simp only [Run.act, hphase] at hact
  have hsame := r.finish_history s w
  rw [hact] at hsame
  have hmoves : r'.history.moves = r.books.moves := by rw [hhistory, hsame]; rfl
  rw [hmoves] at hdirect hplain
  obtain ⟨hkept, hlisted₁⟩ := hentering.kept hdirect
  have hnot : ¬ s.mode.isDestructive := by rw [hmode]; simp [Mode.isDestructive]
  have hretabled := hkept.finish hw.toReliable hfile (fun hd => absurd hd hnot) hact
  -- The rows of the library are those of the table that the run has written.
  have hrows : s.rows r'.files = primary.table.rows := by
    obtain ⟨live, hlive, hrows⟩ := hkept.finish_rows hw.toSound hfile hnot hact
    have hprimary : primary = live := by
      simpa [Books.live, Run.books, hentering.target, hentering.opened] using hlive
    have hplace : s.library r₁.files = s.library files :=
      FileTree.destination_congr (hretabled.workingDir.trans hkept.workingDir) _
    rw [hfiles, Setup.rows, if_neg hfile, hplace, hrows, hprimary]
  rw [← hfiles] at hretabled
  have hlisted' := hretabled.listed hlisted₁
  refine ⟨hretabled.wellFormed, hlisted', fun table hopen => ?_⟩
  have hopened := r'.files.openTable_cases s.databasePath
  have hagain : Retabled (s.tablePlaces files) (s.tablePlaces files) r.files (s.opened r'.files) := by
    refine hretabled.opened hopened fun l hl => ?_
    rw [(hretabled.wellFormed.tableFile?_eq hl).1,
      FileTree.destination_congr (hretabled.workingDir.trans hkept.workingDir)]
    have hmem : s.library files ∈ s.tablePlaces files := Setup.mem_tablePlaces.2 (.inl ⟨hfile, rfl⟩)
    exact ⟨hmem, hmem⟩
  have honly : OnlyTables r.files (s.opened r'.files) := by
    refine .of_retabled hagain fun l hl => ⟨hkept.tables l hl, ?_⟩
    obtain ⟨-, rfl⟩ := (Setup.mem_tablePlaces.1 hl).resolve_right fun hd => hnot hd.1
    rw [hopen] at hopened
    obtain ⟨l, hl, htable⟩ := (hopened.table hretabled.wellFormed).resolve_left hfile
    rw [(hretabled.wellFormed.tableFile?_eq hl).1,
      FileTree.destination_congr (hretabled.workingDir.trans hkept.workingDir)] at htable
    exact Option.isSome_iff_exists.2 ⟨table, htable⟩
  have hpassed := hentering.passed ⟨hdirect, hrows ▸ hplain⟩
  rw [Setup.HasAll, hrows]
  refine hpassed.imp_right fun hpassed p hp => ?_
  have hbefore := (honly.mem_walk_iff hkept.wellFormed hlisted₁ hagain.wellFormed
    (hagain.listed hlisted₁)).1 hp
  have hpasses : s.Passes w primary.table.rows r.files p := by simpa [hqueue] using hpassed p hbefore
  exact hpasses.retabled hw.toReliable hkept.wellFormed hagain.wellFormed honly

/-- **A run adds nothing to a library that has all.** -/
theorem nothing_new (hw : w.Steady) (hmode : s.mode = .checkNew) (hwf : t.WellFormed)
    (hall : s.HasAll w t) (h : Reachable s w t none r) (hphase : r.phase = .finish)
    (hstop : r.stopped = false) :
    ∃ r', r.step s w = (r', .ok .done) ∧ r'.counters.get .new = 0 ∧ r'.counters.get .updated = 0 ∧
      ((IsFull (s.rows t) → s.autoOrganize = false) →
        s.rows r'.files = s.rows t ∧ ∀ l, l ≠ s.library t → r'.files.get? l = t.get? l) :=
  (hall.idle hw hmode).step hw.toSound (by rw [hmode]; rfl) hwf h hphase hstop

end SongLibrary.Reconcile
