/-
  Runs that look at their candidates as they would have done before any job.

  * `Setup.verdict` is what looking at a candidate comes to, told from whether its file is
    there and which record it has (`Run.classify_judged`);
  * `Foreseen` says that the verdicts on all candidates are known beforehand, whatever the
    jobs done meanwhile;
  * then what a run has come to is settled by how many candidates it has looked at and how
    many jobs it has done, not by the order in which it did so (`Foreseen.slices`).
-/
import SongLibrary.Proofs.Reconcile.Swapping

namespace SongLibrary.Reconcile

/-! ## Verdicts -/

/-- What looking at a candidate comes to: what is counted, the job for it, and the record
    that is copied. -/
structure Verdict where
  marks : List Counter
  job : Option Job := none
  copy : Option Song := none

namespace Setup

variable (s : Setup) (c : Candidate)

/-- A candidate gets a job, unless its name is bad. -/
def admission (existing : Option Song) : Verdict :=
  if s.classifier.isBadName c.path then { marks := [.badFileName, .skipped] }
  else { marks := [.queued], job := some ⟨c.path, c.key, pathFrom s.root c.path, existing⟩ }

/-- What a candidate that is not skipped comes to. -/
def settlement (existing : Option Song) : Verdict :=
  match existing, s.mode with
  | none, _ => s.admission c none
  | some _, .checkNew => { marks := [.alreadyInTable, .processed] }
  | some song, .compact _ => { marks := [.alreadyInTable], copy := some song }
  | some song, _ =>
    let v := s.admission c (some song)
    { v with marks := .alreadyInTable :: v.marks }

/-- What looking at a candidate comes to, where its file is there or not, and has a record
    or not. -/
def verdict (isThere : Bool) (existing : Option Song) : Verdict :=
  match s.classifier.skipReason? c.path c.record.isNone with
  | some reason => { marks := [.found, SkipReason.counter reason, .skipped] }
  | none =>
    if c.record.isSome && !isThere then { marks := [.found, .missing, .skipped] }
    else
      let v := s.settlement c existing
      { v with marks := .found :: v.marks }

variable {s c} in
/-- No verdict says to copy a record, but where records are copied. -/
theorem copy_verdict (hcompact : ∀ checkNew, s.mode ≠ .compact checkNew) (isThere : Bool)
    (existing : Option Song) : (s.verdict c isThere existing).copy = none := by
  have hadmission : ∀ existing, (s.admission c existing).copy = none := by
    intro existing
    unfold admission
    split <;> rfl
  unfold verdict
  split
  · rfl
  · split
    · rfl
    · dsimp only
      unfold settlement
      split
      · exact hadmission none
      · rfl
      · next hmode => exact absurd hmode (hcompact _)
      · exact hadmission _

/-- The record of a candidate, where the library has a table. -/
def recordIn (table : SongTable) : Option Song :=
  if s.mode = .rebuild then none else c.record.or (table.songAt? c.key)

end Setup

namespace Run

variable {s : Setup} {w : Services} {r r' r₁ : Run} {c : Candidate}

/-- What a verdict leaves of a state. -/
def Judged (w : Services) (v : Verdict) (r r' : Run) : Prop :=
  ∃ (queue : Queue Job) (counters : Counters) (moment : Nat) (history : History),
    queue.toList = r.queue.toList ++ v.job.toList ∧
    (∀ k, k ≠ .queueHighWater → counters.get k = r.counters.get k + tally v.marks k) ∧
    history.moves = r.history.moves ∧ r' = match v.copy with
      | none => { r with queue, counters, moment, history }
      | some song => { r with queue, counters, moment, history }.copyRecord w song

namespace Judged

theorem seen {v : Verdict} (h : Judged w v { r with history.found := c :: r.history.found } r') :
    Judged w v r r' := h

/-- What is counted first is one of the marks. -/
theorem counted {v : Verdict} {mark : Counter} (h : Judged w v (r.count mark) r') :
    Judged w { v with marks := mark :: v.marks } r r' := by
  obtain ⟨queue, counters, moment, history, hqueue, hcounters, hrest⟩ := h
  refine ⟨queue, counters, moment, history, hqueue, fun k hk => ?_, hrest⟩
  rw [hcounters k hk, Run.count, Counters.get_increment, tally_cons mark v.marks k, UInt64.add_assoc]

end Judged

theorem skip_judged (r : Run) (reason : Counter) :
    Judged w { marks := [reason, .skipped] } r (r.skip reason) := by
  refine ⟨r.queue, r.counters.skip reason, r.moment, r.history, by simp, fun k _ => ?_, rfl, rfl⟩
  rw [Counters.skip, Counters.get_increment, Counters.get_increment, tally_cons reason [.skipped] k,
    UInt64.add_assoc]

theorem enqueue_judged (hopen : r.queue.closed = false) (existing : Option Song) :
    Judged w (s.admission c existing) r (r.enqueue s c existing) := by
  unfold Setup.admission enqueue
  split
  · exact r.skip_judged .badFileName
  · obtain ⟨queue, hpush⟩ : ∃ queue,
        r.queue.push ⟨c.path, c.key, pathFrom s.root c.path, existing⟩ = some queue := by
      simp [Queue.push, hopen]
    rw [hpush]
    refine ⟨queue, _, r.moment, r.history, Queue.toList_push hpush, fun k hk => ?_, rfl, rfl⟩
    rw [Counters.raise, Counters.get_set, if_neg hk]
    exact r.counters.get_increment .queued k

theorem settle_judged (hopen : r.queue.closed = false) (existing : Option Song) :
    Judged w (s.settlement c existing) r (r.settle s w c existing) := by
  cases existing with
  | none =>
    rw [settle_none]
    exact enqueue_judged hopen none
  | some song =>
    have hold : Judged w _ r _ := Judged.counted (enqueue_judged (s := s) (c := c)
      (r := r.count .alreadyInTable) hopen (some song))
    unfold Setup.settlement settle
    cases s.mode with
    | checkNew =>
      refine Judged.counted (v := { marks := [.processed] })
        ⟨r.queue, _, r.moment, r.history, by simp [count], fun k _ => ?_, rfl, rfl⟩
      exact Counters.get_increment _ .processed k
    | compact =>
      exact Judged.counted (v := { marks := [], copy := some song })
        ⟨r.queue, _, r.moment, r.history, by simp [count],
          fun k _ => (UInt64.add_zero _).symm, rfl, rfl⟩
    | _ => exact hold

theorem existingRecord_eq {primary : OpenTable} (hw : w.Sound) (hprimary : r.primary = some primary)
    (c : Candidate) : ∃ moment,
      r.existingRecord s w c = ({ r with moment }, .ok (s.recordIn c primary.table)) := by
  unfold existingRecord Setup.recordIn
  split
  · exact ⟨r.moment, rfl⟩
  · cases c.record with
    | some song => exact ⟨r.moment, rfl⟩
    | none =>
      refine ⟨r.moment + 1, ?_⟩
      simp only [hw.tableFails, Bool.false_eq_true, if_false, hprimary, asked, Option.none_or]

/-- **Looking at a candidate comes to the verdict on it.** -/
theorem classify_judged {primary : OpenTable} (hw : w.Sound) (hprimary : r.primary = some primary)
    (hopen : r.queue.closed = false) (h : r.classify s w c = (r', .ok ())) :
    Judged w (s.verdict c (r.files.pathExists c.path) (s.recordIn c primary.table)) r r' := by
  have hsee : ∀ {v : Verdict}, Judged w v (r.see c) r' →
      Judged w { v with marks := .found :: v.marks } r r' := fun hv =>
    Judged.seen (Judged.counted (r := { r with history.found := c :: r.history.found }) hv)
  rw [classify_eq] at h
  unfold Setup.verdict
  cases hreason : s.classifier.skipReason? c.path c.record.isNone with
  | some reason =>
    simp only [hreason] at h
    cases h
    exact hsee (skip_judged _ _)
  | none =>
    simp only [hreason] at h
    change (if c.record.isSome && !r.files.pathExists c.path then _ else _) = _ at h
    by_cases hmissing : c.record.isSome && !r.files.pathExists c.path
    · simp only [if_pos hmissing] at h ⊢
      cases h
      exact hsee (skip_judged _ _)
    · obtain ⟨moment, hexisting⟩ := existingRecord_eq (s := s) (r := r.see c) hw hprimary c
      simp only [if_neg hmissing, hexisting] at h ⊢
      cases h
      exact hsee (settle_judged (r := { r.see c with moment }) hopen _)

end Run

/-! ## Verdicts that are known beforehand -/

/-- The verdicts on the candidates to come are known, as long as a property of these and of
    the books holds, and it holds of the others once the first has been looked at, whatever
    job is done, and whatever record is copied. -/
structure Foreseen (s : Setup) (w : Services) (sees : Candidate → Verdict)
    (J : List Candidate → Books → Prop) : Prop where
  look : ∀ {rest : List Candidate} {b : Books} {c : Candidate} {source : Source}, J rest b →
    Books.Takes s b c source → ∃ rest', rest = c :: rest' ∧
      (∃ primary, b.primary = some primary ∧
        s.verdict c (b.files.pathExists c.path) (s.recordIn c primary.table) = sees c) ∧
      J rest' { b with source := some source, jobs := b.jobs ++ (sees c).job.toList }
  copy : ∀ {rest : List Candidate} {b : Books} {c : Candidate} {song : Song}
    {target : Option OpenTable}, J rest b → (sees c).copy = some song →
    target.isSome = b.target.isSome → J rest { b with target }
  exhaust : ∀ {rest : List Candidate} {b : Books}, J rest b → Books.Exhausted b →
    rest = [] ∧ J [] { b with source := none }
  ended : ∀ {rest : List Candidate} {b : Books}, J rest b → b.source = none → rest = []
  work : ∀ {rest : List Candidate} {b b' : Books} {job : Job} {jobs : List Job}, J rest b →
    b.jobs = job :: jobs → Books.Works s w { b with jobs } job b' → J rest b'

/-- The jobs for some candidates. -/
def jobsFor (sees : Candidate → Verdict) (candidates : List Candidate) : List Job :=
  candidates.filterMap fun c => (sees c).job

/-- The records that are copied for some candidates. -/
def copiesFor (sees : Candidate → Verdict) (candidates : List Candidate) : List Song :=
  candidates.filterMap fun c => (sees c).copy

/-- What is counted when some candidates are looked at. -/
def marksFor (sees : Candidate → Verdict) (candidates : List Candidate) : List Counter :=
  candidates.flatMap fun c => (sees c).marks

/-- What a run has come to that began with some candidates, where dates are left aside: it
    has looked at some of them and done some of the jobs for these, and it is where it would
    be had it first copied records and then done the jobs, but for what it counted when it
    looked. -/
structure Foretold (s : Setup) (w : Services) (sees : Candidate → Verdict)
    (J : List Candidate → Books → Prop) (candidates : List Candidate) (r₁ r : Run)
    (seen rest : List Candidate) (taken : List Job) : Prop where
  split : candidates = seen ++ rest
  holds : J rest r.books
  jobs : jobsFor sees seen = taken ++ r.queue.toList
  ahead : ∃ gap, Run.Ahead (fun _ => "") gap (tally (marksFor sees seen)) False
    ((r₁.copyAll w (copiesFor sees seen)).performAll s w taken) r
  lastCopied : r.lastCopied = (r₁.copyAll w (copiesFor sees seen)).lastCopied

/-- A record that is copied when one of some candidates is looked at may be copied before
    the jobs for those before it are done as well as afterwards. -/
def Swappable (s : Setup) (w : Services) (sees : Candidate → Verdict) (candidates : List Candidate)
    (r₁ : Run) : Prop :=
  ∀ {seen rest : List Candidate} {c : Candidate} {song : Song} {taken jobs : List Job},
    candidates = seen ++ c :: rest → (sees c).copy = some song →
    jobsFor sees seen = taken ++ jobs →
    (r₁.copyAll w (copiesFor sees seen)).Swaps s w song taken

namespace Foreseen

variable {s : Setup} {w : Services} {sees : Candidate → Verdict}
  {J : List Candidate → Books → Prop} {candidates seen rest : List Candidate} {taken : List Job}
  {r r' r₁ r₂ : Run} {c : Candidate}

/-- A candidate is counted, and its job is put into the queue. -/
theorem count_foretold {queue : Queue Job} {counters : Counters} (moment : Nat) (history : History)
    (source : Option Source) (h : Foretold s w sees J candidates r₁ r seen (c :: rest) taken)
    (hqueue : queue.toList = r.queue.toList ++ (sees c).job.toList)
    (hcounters : ∀ k, k ≠ .queueHighWater →
      counters.get k = r.counters.get k + tally (sees c).marks k) :
    jobsFor sees (seen ++ [c]) = taken ++ queue.toList ∧
      ∃ gap, Run.Ahead (fun _ => "") gap (tally (marksFor sees (seen ++ [c]))) False
        ((r₁.copyAll w (copiesFor sees seen)).performAll s w taken)
        { r with queue, counters, moment, history, source } := by
  constructor
  · have hold := h.jobs
    unfold jobsFor at hold ⊢
    rw [List.filterMap_append, hold, hqueue, List.append_assoc]
    cases hjob : (sees c).job <;> simp [hjob]
  · obtain ⟨gap, hahead⟩ := h.ahead
    have hcounted : Run.Ahead (fun _ => "") ((moment : Int) - r.moment) (tally (sees c).marks) False
        r { r with queue, counters, moment, history, source } :=
      ⟨rfl, rfl, hcounters, rfl, .inl rfl, by dsimp only; omega⟩
    refine ⟨_, (hahead.trans hcounted).recount fun k => ?_⟩
    simp [marksFor, List.flatMap_append, tally_append]

/-- A record that is copied when its candidate is looked at might have been copied before the
    jobs were done. -/
theorem copy_foretold {song : Song} {r₃ : Run} (hw : w.Steady)
    (hswaps : Swappable s w sees candidates r₁)
    (h : Foretold s w sees J candidates r₁ r seen (c :: rest) taken) (hcopy : (sees c).copy = some song)
    {δ : Counter → UInt64} (hahead : ∃ gap, Run.Ahead (fun _ => "") gap δ False
      ((r₁.copyAll w (copiesFor sees seen)).performAll s w taken) r₃)
    (hlast : r₃.lastCopied = (r₁.copyAll w (copiesFor sees seen)).lastCopied) :
    (∃ gap, Run.Ahead (fun _ => "") gap δ False
      ((r₁.copyAll w (copiesFor sees (seen ++ [c]))).performAll s w taken) (r₃.copyRecord w song)) ∧
      (r₃.copyRecord w song).lastCopied =
        (r₁.copyAll w (copiesFor sees (seen ++ [c]))).lastCopied := by
  have hcopies : copiesFor sees (seen ++ [c]) = copiesFor sees seen ++ [song] := by
    simp [copiesFor, hcopy]
  obtain ⟨gap, hahead⟩ := hahead
  obtain ⟨gap', hswap⟩ := hswaps h.split hcopy h.jobs
  have hkept := Run.performAll_kept (s := s) (w := w) (r₁.copyAll w (copiesFor sees seen)) taken
  have hcopied := hahead.copyRecord hw.toSound (hlast.trans hkept.lastCopied.symm) song
  rw [hcopies, Run.copyAll, List.foldl_append]
  refine ⟨⟨_, (Run.Ahead.trans hswap hcopied).recount fun k => ?_⟩, ?_⟩
  · exact UInt64.zero_add _
  · exact (Run.lastCopied_copyRecord ..).trans (Run.lastCopied_copyRecord ..).symm

/-- A candidate is looked at. -/
theorem look_foretold (hw : w.Steady) (hF : Foreseen s w sees J)
    (hswaps : Swappable s w sees candidates r₁)
    (h : Foretold s w sees J candidates r₁ r seen rest taken)
    (hopen : r.queue.closed = false) (hnext : r.nextCandidate s w = (r₂, .ok (some c)))
    (hclassify : r₂.classify s w c = (r', .ok ())) :
    ∃ rest', Foretold s w sees J candidates r₁ r' (seen ++ [c]) rest' taken := by
  obtain ⟨source, hbooks, htakes⟩ := Run.nextCandidate_books hnext
  obtain ⟨rest', rfl, ⟨primary, hprimary, hverdict⟩, hrest⟩ := hF.look h.holds htakes
  obtain ⟨_, asked, hkeeps⟩ := r.nextCandidate_keeps s w
  rw [hnext] at hkeeps
  obtain rfl : r₂ = _ := hkeeps
  cases congrArg Books.source hbooks
  have hjudged := Run.classify_judged (r := { r with source := some source, moment := asked })
    hw.toSound hprimary hopen hclassify
  rw [show s.verdict c (r.files.pathExists c.path) (s.recordIn c primary.table) = sees c from
    hverdict] at hjudged
  obtain ⟨queue, counters, moment, history, hqueue, hcounters, hmoves, heq⟩ := hjudged
  obtain ⟨hjobs, hahead⟩ := count_foretold moment history (some source) h hqueue hcounters
  have hsplit : candidates = (seen ++ [c]) ++ rest' := by
    rw [h.split, List.append_assoc, List.singleton_append]
  -- Before a record is copied, the run has counted, and put the job into the queue.
  generalize hlooked : ({ r with queue, counters, moment, history, source := some source } : Run) = r₃
    at hahead
  rw [show queue = r₃.queue by rw [← hlooked]] at hjobs
  have hlast : r₃.lastCopied = (r₁.copyAll w (copiesFor sees seen)).lastCopied := by
    rw [← hlooked]
    exact h.lastCopied
  have hbooks₃ : r₃.books = { r.books with
      source := some source, jobs := r.books.jobs ++ (sees c).job.toList } := by
    rw [← hlooked]
    simp only [Run.books, hqueue, hmoves]
  cases hcopy : (sees c).copy with
  | none =>
    have hcopies : copiesFor sees (seen ++ [c]) = copiesFor sees seen := by
      simp [copiesFor, hcopy]
    obtain rfl : r' = r₃ := by
      rw [heq, hcopy]
      exact hlooked
    exact ⟨rest', hsplit, hbooks₃ ▸ hrest, hjobs, hcopies ▸ hahead, hcopies ▸ hlast⟩
  | some song =>
    obtain rfl : r' = r₃.copyRecord w song := by
      rw [heq, hcopy, ← hlooked]
    obtain ⟨target, hcopied, htarget⟩ := Run.copyRecord_books r₃ w song
    have hqueue₄ : (r₃.copyRecord w song).queue.toList = r₃.queue.toList := congrArg Books.jobs hcopied
    obtain ⟨hahead₄, hlast₄⟩ := copy_foretold hw hswaps h hcopy hahead hlast
    refine ⟨rest', hsplit, ?_, hqueue₄ ▸ hjobs, hahead₄, hlast₄⟩
    rw [hcopied, hbooks₃]
    exact hF.copy hrest hcopy (htarget.trans (congrArg (fun b => b.target.isSome) hbooks₃))

/-- There is no candidate left. -/
theorem exhaust_foretold (hF : Foreseen s w sees J)
    (h : Foretold s w sees J candidates r₁ r seen rest taken)
    (hnext : r.nextCandidate s w = (r₂, .ok none)) :
    Foretold s w sees J candidates r₁ { r₂ with source := none } seen [] taken := by
  obtain ⟨rfl, hholds⟩ := hF.exhaust h.holds (Run.nextCandidate_end hnext)
  obtain ⟨_, moment, hkeeps⟩ := r.nextCandidate_keeps s w
  rw [hnext] at hkeeps
  obtain rfl : r₂ = _ := hkeeps
  obtain ⟨gap, hahead⟩ := h.ahead
  have hsame : Run.Alike (fun _ => "") ((moment : Int) - r.moment) False r
      { r with source := none, moment } := .same rfl rfl rfl rfl rfl (by dsimp only; omega)
  exact ⟨h.split, hholds, h.jobs, ⟨_, (hahead.trans hsame).recount fun k => UInt64.add_zero _⟩,
    h.lastCopied⟩

/-- A job is done. -/
theorem work_foretold (hw : w.Steady) (hF : Foreseen s w sees J)
    (h : Foretold s w sees J candidates r₁ r seen rest taken) {job : Job} {queue : Queue Job}
    (hpop : r.queue.pop? = some (job, queue)) :
    Foretold s w sees J candidates r₁
      ({ r with queue, history.taken := job :: r.history.taken }.perform s w job) seen rest
      (taken ++ [job]) := by
  have hjobs := Queue.toList_of_pop? hpop
  have hworks := Run.perform_books (s := s) hw.toSound
    { r with queue, history.taken := job :: r.history.taken } job
  have hkept := Run.perform_kept s w { r with queue, history.taken := job :: r.history.taken } job
  obtain ⟨gap, hahead⟩ := h.ahead
  have htaken : Run.Ahead (fun _ => "") gap (tally (marksFor sees seen)) False
      ((r₁.copyAll w (copiesFor sees seen)).performAll s w taken)
      { r with queue, history.taken := job :: r.history.taken } :=
    ⟨hahead.files, hahead.nextId, hahead.counts, hahead.table, hahead.kind, hahead.moment⟩
  refine ⟨h.split, hF.work h.holds hjobs hworks, ?_, ⟨gap, ?_⟩, hkept.lastCopied.trans h.lastCopied⟩
  · rw [hkept.queue, h.jobs, hjobs, List.append_assoc, List.singleton_append]
  · have hdone := htaken.perform (s := s) hw job fun _ => Run.blurs_const w gap
    simpa [Run.performAll] using hdone

/-- **The order of looking and doing does not matter**, where the verdicts are known
    beforehand. -/
theorem slices (hw : w.Steady) (hF : Foreseen s w sees J)
    (hswaps : Swappable s w sees candidates r₁) (hbegin : J candidates r₁.books)
    (hqueue : r₁.queue.toList = []) (h : Run.Slices s w r₁ r) :
    ∃ seen rest taken, Foretold s w sees J candidates r₁ r seen rest taken := by
  induction h with
  | refl =>
    exact ⟨[], candidates, [], rfl, hbegin, hqueue.symm, ⟨0, Run.Alike.refl _ _ _⟩, rfl⟩
  | tail _ hslice ih =>
    obtain ⟨seen, rest, taken, hforetold⟩ := ih
    cases hslice with
    | look hopen hnext hclassify =>
      obtain ⟨rest', hnext⟩ := look_foretold hw hF hswaps hforetold hopen hnext hclassify
      exact ⟨_, _, _, hnext⟩
    | exhaust _ hnext => exact ⟨_, _, _, exhaust_foretold hF hforetold hnext⟩
    | work hpop => exact ⟨_, _, _, work_foretold hw hF hforetold hpop⟩
    | note phase reported sent =>
      obtain ⟨gap, hahead⟩ := hforetold.ahead
      exact ⟨_, _, _, hforetold.split, hforetold.holds, hforetold.jobs, ⟨gap, hahead.files,
        hahead.nextId, hahead.counts, hahead.table, hahead.kind, hahead.moment⟩,
        hforetold.lastCopied⟩

end Foreseen

end SongLibrary.Reconcile
