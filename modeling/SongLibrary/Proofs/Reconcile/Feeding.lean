/-
  Runs whose candidates come from elsewhere.

  * `Run.Furnished` says what a run has at hand that writes no new table
    (`Working.furnished`);
  * `Run.stepFrom` is a step of a run whose candidates come from any operation, and
    `Run.upTo` gives the candidates of a run up to a number of them;
  * a run with `upTo` comes to the same states as long as it takes no more candidates
    (`steps_upTo`).
-/
import SongLibrary.Proofs.Reconcile.Alike
import SongLibrary.Proofs.Reconcile.Conservation

namespace SongLibrary.Reconcile

namespace Queue

variable {Job : Type} {q q' : Queue Job}

theorem push_keeps {job : Job} (h : q.push job = some q') :
    q'.limit = q.limit ∧ q'.closed = q.closed := by
  unfold push at h
  split at h
  · cases h
  · cases h
    exact ⟨rfl, rfl⟩

/-- Taking a job out leaves the rest of the queue as it is. -/
theorem pop?_keeps {job : Job} (h : q.pop? = some (job, q')) :
    q'.limit = q.limit ∧ q'.closed = q.closed ∧ q'.highWater = q.highWater := by
  unfold pop? at h
  split at h
  · cases h
    exact ⟨rfl, rfl, rfl⟩
  · split at h
    · cases h
    · cases h
      exact ⟨rfl, rfl, rfl⟩

theorem pop?_eq_none_iff : q.pop? = none ↔ q.toList = [] := by
  constructor
  · intro h
    unfold pop? at h
    split at h
    · cases h
    · split at h
      · next hback => simp [toList, hback]
      · cases h
  · intro h
    cases hpop : q.pop? with
    | none => rfl
    | some taken =>
      obtain ⟨job, rest⟩ := taken
      rw [toList_of_pop? hpop] at h
      cases h

@[simp] theorem toList_close (q : Queue Job) : q.close.toList = q.toList := rfl

end Queue

/-- Counters are the same if each has the same number. -/
theorem Counters.ext_get {c c' : Counters} (h : ∀ counter, c.get counter = c'.get counter) :
    c = c' := by
  have hindex : ∀ i : Fin 19, ∃ counter ∈ Counter.all, counter.index = i := by decide
  obtain ⟨numbers⟩ := c
  obtain ⟨numbers'⟩ := c'
  refine congrArg Counters.mk (Vector.ext fun i hi => ?_)
  obtain ⟨counter, -, hcounter⟩ := hindex ⟨i, hi⟩
  have hsame := h counter
  simp only [get, hcounter] at hsame
  exact hsame

/-- Settling a candidate puts jobs into the queue, where no new table is written: those of
    candidates with a record have one. -/
theorem Books.Settles.adds {s : Setup} {b b' : Books} {c : Candidate}
    (hd : s.mode.isDestructive = false) (h : Settles s b c b') :
    ∃ jobs, b' = { b with jobs := b.jobs ++ jobs } ∧
      ∀ job ∈ jobs, c.record ≠ none → job.existing ≠ none := by
  cases h with
  | idle => exact ⟨[], by simp, by simp⟩
  | copied hmode _ _ _ =>
    obtain ⟨checkNew, hmode⟩ := hmode
    rw [hmode] at hd
    cases hd
  | queuedNew relative hnone =>
    refine ⟨_, rfl, fun job _ hne => ?_⟩
    rcases hnone with hmode | ⟨hnone, -⟩
    · rw [hmode] at hd
      cases hd
    · exact absurd hnone hne
  | queuedOld relative _ _ =>
    refine ⟨_, rfl, fun job hjob _ => ?_⟩
    rw [List.mem_singleton.1 hjob]
    simp

namespace Run

variable {s : Setup} {w : Services} {files : FileTree} {r r' r₁ r₂ : Run}

/-! ## What a run has at hand -/

/-- What a run has at hand that writes no new table: jobs for songs that the table comes
    to have their records. -/
structure Furnished (r : Run) : Prop where
  primary : r.primary.isSome
  target : r.target = none
  limit : 0 < r.queue.limit
  opened : r.queue.closed = false
  records : (∀ paths, r.source ≠ some (.files paths)) ∧
      (∀ job ∈ r.queue.toList, job.existing ≠ none) ∨ ∀ visit, r.source ≠ some (.table visit)

theorem Looks.queue (h : Looks s r r') :
    r'.queue.limit = r.queue.limit ∧ r'.queue.closed = r.queue.closed := by
  induction h with
  | refl => exact ⟨rfl, rfl⟩
  | tail _ hl ih =>
    rw [← ih.1, ← ih.2]
    cases hl with
    | copy _ hcopied _ => cases hcopied <;> exact ⟨rfl, rfl⟩
    | put _ hpush => exact Queue.push_keeps hpush
    | _ => exact ⟨rfl, rfl⟩

theorem Furnished.look {c : Candidate} (hd : s.mode.isDestructive = false) (h : Furnished r)
    (hnext : r.nextCandidate s w = (r₁, .ok (some c)))
    (hclassify : r₁.classify s w c = (r₂, .ok ())) : Furnished r₂ := by
  obtain ⟨source, hbooks, htakes⟩ := nextCandidate_books hnext
  have hsettles := classify_books hclassify
  rw [hbooks] at hsettles
  obtain ⟨jobs, hsame, hjobs⟩ := hsettles.adds hd
  obtain ⟨hlimit, hclosed⟩ : r₂.queue.limit = r.queue.limit ∧ r₂.queue.closed = r.queue.closed := by
    have hlooks := classify_looks (s := s) (w := w) (r := r₁) c
    obtain ⟨_, _, hkeeps⟩ := r.nextCandidate_keeps s w
    rw [hclassify] at hlooks
    rw [hnext] at hkeeps
    have hsame : r₁.queue = r.queue := by rw [show r₁ = _ from hkeeps]
    exact hsame ▸ hlooks.queue
  have hprimary : r₂.primary = r.primary := congrArg Books.primary hsame
  have htarget : r₂.target = r.target := congrArg Books.target hsame
  have hsource : r₂.source = some source := congrArg Books.source hsame
  have hqueue : r₂.queue.toList = r.queue.toList ++ jobs := congrArg Books.jobs hsame
  refine ⟨hprimary ▸ h.primary, htarget.trans h.target, hlimit ▸ h.limit, hclosed.trans h.opened, ?_⟩
  rw [hsource, hqueue]
  cases htakes with
  | file _ => exact .inr (by simp)
  | visited hvisit _ _ =>
    obtain ⟨-, hold⟩ := h.records.resolve_right fun hno => hno _ hvisit
    refine .inl ⟨by simp, fun job hjob => ?_⟩
    rcases List.mem_append.1 hjob with hjob | hjob
    · exact hold job hjob
    · exact hjobs job hjob (by simp)

theorem Furnished.slice (hd : s.mode.isDestructive = false) (h : Furnished r)
    (hslice : Slice s w r r') : Furnished r' := by
  cases hslice with
  | look _ hnext hclassify => exact h.look hd hnext hclassify
  | exhaust _ hnext =>
    obtain ⟨_, _, hkeeps⟩ := r.nextCandidate_keeps s w
    rw [hnext] at hkeeps
    subst hkeeps
    exact ⟨h.primary, h.target, h.limit, h.opened, .inr (by simp)⟩
  | @work job queue hpop =>
    have hkept := perform_kept s w { r with queue, history.taken := job :: r.history.taken } job
    obtain ⟨hlimit, hclosed, -⟩ := Queue.pop?_keeps hpop
    refine ⟨?_, ?_, ?_, ?_, ?_⟩
    · simpa using (congrArg Option.isSome hkept.primary).trans (by simpa using h.primary)
    · simpa [h.target] using hkept.target
    · rw [hkept.queue]
      exact hlimit ▸ h.limit
    · rw [hkept.queue]
      exact hclosed.trans h.opened
    · rw [hkept.queue, hkept.source]
      refine h.records.imp_left fun hold => ⟨hold.1, fun job' hjob => hold.2 job' ?_⟩
      rw [Queue.toList_of_pop? hpop]
      exact List.mem_cons_of_mem _ hjob
  | note _ _ _ => exact ⟨h.primary, h.target, h.limit, h.opened, h.records⟩

/-- A run that writes no new table is furnished once it has prepared. -/
theorem Working.furnished (hd : s.mode.isDestructive = false) (h : Working s w files r) :
    Furnished r := by
  obtain ⟨r₀, r₁, hstart, hprepare, hslices⟩ := h.slices
  obtain ⟨table, moment, -, rfl⟩ := start_opens hd hstart
  have hbegin : Furnished r₁ := by
    have hlimit : 0 < (Queue.empty s.queueLimit : Queue Job).limit := Nat.lt_of_lt_of_le
      Nat.one_pos (Nat.le_max_right s.queueLimit 1)
    cases prepare_begun rfl hprepare with
    | files _ _ => exact ⟨rfl, rfl, hlimit, rfl, .inr (by simp)⟩
    | table _ _ _ =>
      refine ⟨rfl, rfl, hlimit, rfl, .inl ⟨by simp, fun job hjob => ?_⟩⟩
      cases hjob
  clear h hprepare hstart
  induction hslices with
  | refl => exact hbegin
  | tail _ hslice ih => exact ih.slice hd hslice

/-! ## Candidates from elsewhere -/

/-- An operation that gives the next candidate, if there is one. -/
abbrev Feed : Type :=
  Run → Run × Except Failure (Option Candidate)

variable (s w) in
/-- Take candidates that an operation gives, `n` at most, while the queue has room. -/
def pullFrom (next : Feed) : Nat → Run → Run × Except Failure Unit
  | 0, r => (r, .ok ())
  | n + 1, r =>
    if !r.queue.hasRoom then (r, .ok ())
    else
      match next r with
      | (r, .error failure) => (r, .error failure)
      | (r, .ok none) => ({ r with source := none }, .ok ())
      | (r, .ok (some c)) =>
        match r.classify s w c with
        | (r, .error failure) => (r, .error failure)
        | (r, .ok ()) => pullFrom next n r

variable (s w) in
/-- Look at candidates that an operation gives, and do a job. -/
def gatherFrom (next : Feed) (r : Run) : Run × Except Failure Unit :=
  match pullFrom s w next s.batch r with
  | (r, .error failure) => (r, .error failure)
  | (r, .ok ()) =>
    let r := if r.source.isNone then { r with phase := .drain } else r
    ((r.performNext s w).reportProgress, .ok ())

variable (s w) in
/-- What the phase of a run asks for, where an operation gives the candidates. -/
def actFrom (next : Feed) (r : Run) : Run × Except Failure Unit :=
  if r.phase = .gather then r.gatherFrom s w next else r.act s w

variable (s w) in
/-- Do a slice of work, where an operation gives the candidates. -/
def stepFrom (next : Feed) (r : Run) : Run × Except Failure Progress :=
  match r.actFrom s w next with
  | (r, .ok ()) => (r, .ok r.progress)
  | (r, .error failure) => (r.fail failure, .error failure)

variable (s w) in
/-- The state after some steps, where an operation gives the candidates. -/
def stepsFrom (next : Feed) : Nat → Run → Run
  | 0, r => r
  | n + 1, r => ((stepsFrom next n r).stepFrom s w next).1

variable (s w) in
/-- The candidates of a run, up to `k` of them. -/
def upTo (k : Nat) (r : Run) : Run × Except Failure (Option Candidate) :=
  match r.nextCandidate s w with
  | (r', .ok (some c)) => if r.history.found.length < k then (r', .ok (some c)) else (r, .ok none)
  | result => result

theorem pullFrom_nextCandidate (n : Nat) (r : Run) :
    pullFrom s w (nextCandidate s w) n r = pull s w n r := by
  induction n generalizing r with
  | zero => rfl
  | succ n ih =>
    unfold pullFrom pull
    split
    · rfl
    · rcases r.nextCandidate s w with ⟨r₁, failure | _ | c⟩
      · rfl
      · rfl
      · dsimp only
        rcases r₁.classify s w c with ⟨r₂, failure | _⟩
        · rfl
        · exact ih r₂

/-- **A run whose candidates come from where they do is a run.** -/
theorem stepFrom_nextCandidate (r : Run) : r.stepFrom s w (nextCandidate s w) = r.step s w := by
  have hact : r.actFrom s w (nextCandidate s w) = r.act s w := by
    unfold actFrom
    split
    · next hphase =>
      rcases hpull : pull s w s.batch r with ⟨r₁, failure | _⟩ <;>
        simp only [act, hphase, gatherFrom, gather, pullFrom_nextCandidate, hpull]
    · rfl
  rcases hacts : r.act s w with ⟨r₁, failure | _⟩ <;> simp only [stepFrom, step, hact, hacts]

/-! ## Before the end of the candidates -/

theorem settle_found (c : Candidate) (existing : Option Song) :
    (r.settle s w c existing).history.found = r.history.found := by
  have henqueue : ∀ (r : Run) (existing : Option Song),
      (r.enqueue s c existing).history.found = r.history.found := by
    intro r existing
    unfold enqueue
    split
    · rfl
    · split <;> rfl
  unfold settle
  split
  · exact henqueue r none
  · rfl
  · next song checkNew _ =>
    obtain ⟨r₁, hcopied, heq⟩ := copyRecord_cases w (r.count .alreadyInTable) song
    rw [heq]
    cases hcopied <;> rfl
  · next song _ _ => exact henqueue (r.count .alreadyInTable) (some song)

/-- A candidate that is looked at has been found. -/
theorem classify_found (c : Candidate) :
    (r.classify s w c).1.history.found = c :: r.history.found := by
  rw [classify_eq]
  split
  · rfl
  · split
    · rfl
    · obtain ⟨moment, hkeeps⟩ := (r.see c).existingRecord_keeps s w c
      split
      · next hexisting =>
        rw [hexisting] at hkeeps
        exact congrArg (fun r : Run => r.history.found) hkeeps
      · next hexisting =>
        rw [hexisting] at hkeeps
        exact (settle_found c _).trans (congrArg (fun r : Run => r.history.found) hkeeps)

theorem nextCandidate_found : (r.nextCandidate s w).1.history.found = r.history.found := by
  obtain ⟨_, _, hkeeps⟩ := r.nextCandidate_keeps s w
  rw [hkeeps]

theorem pull_found_le (n : Nat) (r : Run) :
    r.history.found.length ≤ (pull s w n r).1.history.found.length := by
  induction n generalizing r with
  | zero => exact Nat.le_refl _
  | succ n ih =>
    have hnext := nextCandidate_found (s := s) (w := w) (r := r)
    unfold pull
    split
    · exact Nat.le_refl _
    · split
      · next heq =>
        rw [heq] at hnext
        exact Nat.le_of_eq (congrArg List.length hnext.symm)
      · next heq =>
        rw [heq] at hnext
        exact Nat.le_of_eq (congrArg List.length hnext.symm)
      · next r₁ c heq =>
        rw [heq] at hnext
        have hfound := classify_found (s := s) (w := w) (r := r₁) c
        rw [show r₁.history.found = r.history.found from hnext] at hfound
        split
        · next hclassify =>
          rw [hclassify] at hfound
          rw [hfound]
          exact Nat.le_succ _
        · next r₂ hclassify =>
          rw [hclassify] at hfound
          have hmore := ih r₂
          rw [hfound] at hmore
          exact Nat.le_of_succ_le hmore

theorem performNext_found : (r.performNext s w).history.found = r.history.found := by
  unfold performNext
  split
  · rfl
  · exact (perform_kept s w _ _).found

theorem gather_found_le (h : r.gather s w = (r', .ok ())) :
    ∃ r₁, pull s w s.batch r = (r₁, .ok ()) ∧ r'.history.found = r₁.history.found := by
  unfold gather at h
  split at h
  · cases h
  · next r₁ hpull =>
    cases h
    refine ⟨r₁, hpull, ?_⟩
    obtain ⟨_, _, hkeeps⟩ := ((if r₁.source.isNone then { r₁ with phase := .drain } else r₁).performNext
      s w).reportProgress_keeps
    rw [hkeeps]
    dsimp only
    rw [performNext_found]
    split <;> rfl

/-- As long as no more candidates are taken, it does not matter that there are no more. -/
theorem pullFrom_upTo {k n : Nat} (h : pull s w n r = (r', .ok ()))
    (hk : r'.history.found.length ≤ k) : pullFrom s w (upTo s w k) n r = (r', .ok ()) := by
  induction n generalizing r with
  | zero => exact h
  | succ n ih =>
    unfold pull at h
    unfold pullFrom
    split at h
    · next hroom =>
      rw [if_pos hroom]
      exact h
    · next hroom =>
      rw [if_neg hroom]
      have hnext := nextCandidate_found (s := s) (w := w) (r := r)
      split at h
      · cases h
      · next heq =>
        simp only [upTo, heq]
        exact h
      · next r₁ c heq =>
        rw [heq] at hnext
        split at h
        · cases h
        · next r₂ hclassify =>
          have hfound := classify_found (s := s) (w := w) (r := r₁) c
          have hmore := pull_found_le (s := s) (w := w) n r₂
          rw [hclassify, show r₁.history.found = r.history.found from hnext] at hfound
          rw [h, show r₂.history.found = _ from hfound] at hmore
          have hless : r.history.found.length < k := Nat.lt_of_lt_of_le hmore hk
          simp only [upTo, heq, if_pos hless, hclassify]
          exact ih h

theorem step_upTo {k : Nat} {p : Progress} (h : r.step s w = (r', .ok p))
    (hk : r'.history.found.length ≤ k) : r.stepFrom s w (upTo s w k) = (r', .ok p) := by
  obtain ⟨hact, rfl⟩ := act_of_step_ok h
  unfold stepFrom actFrom
  by_cases hphase : r.phase = .gather
  · rw [if_pos hphase]
    simp only [act, hphase] at hact
    obtain ⟨r₁, hpull, hfound⟩ := gather_found_le hact
    have hpull' := pullFrom_upTo hpull (hfound ▸ hk)
    have hsame : r.gatherFrom s w (upTo s w k) = r.gather s w := by
      unfold gatherFrom gather
      rw [hpull, hpull']
    rw [hsame, hact]
  · rw [if_neg hphase, hact]

theorem step_found_le {p : Progress} (h : r.step s w = (r', .ok p)) :
    r.history.found.length ≤ r'.history.found.length := by
  obtain ⟨hact, -⟩ := act_of_step_ok h
  have hsame : ∀ {r₁ : Run}, SameAccounts r r₁ →
      r.history.found.length ≤ r₁.history.found.length := fun hsame =>
    Nat.le_of_eq (congrArg (fun history => history.found.length) hsame.history).symm
  unfold act at hact
  split at hact
  · have hsame := hsame (.start (s := s) (w := w))
    rwa [hact] at hsame
  · have hsame := hsame (.prepare (s := s) (w := w))
    rwa [hact] at hsame
  · obtain ⟨r₁, hpull, hfound⟩ := gather_found_le hact
    have hmore := pull_found_le (s := s) (w := w) s.batch r
    rw [hpull] at hmore
    rwa [hfound]
  · cases hact
    unfold drain
    split
    · exact Nat.le_refl _
    · obtain ⟨_, _, hkeeps⟩ := (r.performNext s w).reportProgress_keeps
      rw [hkeeps]
      exact Nat.le_of_eq (congrArg List.length performNext_found.symm)
  · have hsame := hsame (.finish (s := s) (w := w))
    rwa [hact] at hsame
  · cases hact
    exact Nat.le_refl _

/-- **A run with so many candidates comes to the states of a run** that has not taken
    more. -/
theorem steps_upTo (h : Reachable s w files none r) (hstop : r.stopped = false) {k : Nat}
    (hk : r.history.found.length ≤ k) : ∃ n, stepsFrom s w (upTo s w k) n (.new s files) = r := by
  generalize ho : (none : Option Failure) = o at h
  induction h with
  | new => exact ⟨0, rfl⟩
  | @control _ r message _ ih =>
    rcases r.control_cases message with heq | heq <;> rw [heq] at hstop hk ⊢
    · exact ih hstop hk ho
    · cases hstop
  | @step _ r r' p hr hs ih =>
    obtain ⟨n, hn⟩ := ih ((step_stopped hs).symm.trans hstop) (Nat.le_trans (step_found_le hs) hk) ho
    refine ⟨n + 1, ?_⟩
    rw [stepsFrom, hn, step_upTo hs hk]
  | fail => cases ho

end Run

end SongLibrary.Reconcile
