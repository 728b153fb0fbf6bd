/-
  Jobs go through the queue in order.

  A run looks at a candidate only where the queue has room, and puts one job for it into the
  queue at most.  So the queue is never longer than its limit, never closed when a job is put
  in, and gives out the jobs in the order of their candidates.

  * `Sight` is a candidate together with the state in which it is looked at, `Sight.job?` the
    job that it is accepted with, and `Run.drivenSights` all of them in a run;
  * `Run.classify_puts`: looking at a candidate puts the job into the queue that it is accepted
    with;
  * `Run.Flowing` is what every look, every job and every step keeps (`Flowing.look`,
    `Flowing.performNext`, `Flowing.step`), and so every run (`flowing_driven`);
  * `jobs_flow_in_order` is the main statement.
-/
import SongLibrary.Proofs.Reconcile.Foreseeing
import SongLibrary.Proofs.Reconcile.Lining
import Mathlib.Algebra.Group.Nat.Defs
import Mathlib.Order.Bounds.Defs

namespace SongLibrary.Reconcile

/-- The greatest length is that after a job is put in, or one before. -/
theorem Queue.highWater_of_push {Job : Type} {q q' : Queue Job} {job : Job}
    (h : q.push job = some q') : q'.highWater = max q.highWater q'.toList.length := by
  rw [← size_eq_length, size_of_push h]
  unfold push at h
  split at h
  · cases h
  · cases h
    rfl

variable {s : Setup} {w : Services} {files : FileTree} {r r' r₁ r₂ : Run} {c : Candidate}

/-! ## Candidates that are looked at -/

/-- A candidate that is looked at, and the state of the run before that. -/
structure Sight where
  run : Run
  candidate : Candidate

namespace Sight

variable (s w) (x : Sight)

/-- What looking at the candidate comes to. -/
def after : Run × Except Failure Unit :=
  x.run.classify s w x.candidate

/-- The job that the candidate is accepted with, if it is: that of the verdict on it. -/
def job? : Option Job :=
  match (x.run.existingRecord s w x.candidate).2 with
  | .ok existing => (s.verdict x.candidate (x.run.files.pathExists x.candidate.path) existing).job
  | .error _ => none

variable {s w x} in
/-- Where no table fails, the record is the one that the library has. -/
theorem job?_eq {primary : OpenTable} (hw : w.Sound) (hprimary : x.run.primary = some primary) :
    x.job? s w = (s.verdict x.candidate (x.run.files.pathExists x.candidate.path)
      (s.recordIn x.candidate primary.table)).job := by
  obtain ⟨moment, hexisting⟩ := Run.existingRecord_eq (s := s) hw hprimary x.candidate
  rw [job?, hexisting]

end Sight

namespace Run

variable (s w) in
/-- The candidates that are looked at when `n` at most are taken, in order. -/
def sights : Nat → Run → List Sight
  | 0, _ => []
  | n + 1, r =>
    if !r.queue.hasRoom then []
    else
      match r.nextCandidate s w with
      | (r, .ok (some c)) =>
        ⟨r, c⟩ :: match r.classify s w c with
          | (r, .ok ()) => sights n r
          | (_, .error _) => []
      | _ => []

variable (s w) in
/-- The candidates that are looked at in a step. -/
def stepSights (r : Run) : List Sight :=
  if r.phase = .gather then sights s w s.batch r else []

variable (s w) in
/-- The candidates that are looked at in `n` steps, where messages arrive before each. -/
def drivenSights (arriving : Nat → List Control) : Nat → Run → List Sight
  | 0, _ => []
  | n + 1, r => drivenSights arriving n r ++
      stepSights s w ((driven s w arriving n r).controls (arriving n))

variable (s w) in
/-- The lengths of the queue after each of some candidates has been looked at. -/
def lengthsAfter (seen : List Sight) : List Nat :=
  seen.map fun x => (x.after s w).1.queue.toList.length

variable (s w) in
/-- Every length that the queue has had after `n` steps, in order: at first, after each
    candidate was looked at, and after each step. -/
def lengths (arriving : Nat → List Control) : Nat → Run → List Nat
  | 0, r => [r.queue.toList.length]
  | n + 1, r => lengths arriving n r ++
      lengthsAfter s w (stepSights s w ((driven s w arriving n r).controls (arriving n))) ++
      [(driven s w arriving (n + 1) r).queue.toList.length]

/-! ## Jobs that are put into the queue -/

/-- The greatest number of jobs that there were, as far as it has been counted. -/
def longest (r : Run) : UInt64 :=
  r.counters.get .queueHighWater

theorem longest_count {counter : Counter} (h : counter ≠ .queueHighWater) :
    (r.count counter).longest = r.longest := by
  simp [longest, count, Counters.increment, h.symm]

theorem longest_skip {reason : Counter} (h : reason ≠ .queueHighWater) :
    (r.skip reason).longest = r.longest :=
  (longest_count (r := r.count reason) (by decide)).trans (longest_count h)

/-- A job is put into the queue, if there is one. -/
def Puts (job? : Option Job) (r r' : Run) : Prop :=
  match job? with
  | none => r'.queue = r.queue ∧ r'.longest = r.longest
  | some job => r.queue.push job = some r'.queue ∧
      r'.longest = max r.longest (.ofNat r'.queue.highWater)

theorem Puts.congr {job? : Option Job} (h : Puts job? r₁ r') (hqueue : r₁.queue = r.queue)
    (hlongest : r₁.longest = r.longest) : Puts job? r r' := by
  cases job? with
  | none => exact ⟨h.1.trans hqueue, h.2.trans hlongest⟩
  | some job => exact ⟨hqueue ▸ h.1, hlongest ▸ h.2⟩

/-- The job comes last, and the queue has been as long as it is then. -/
theorem Puts.queue {job? : Option Job} (h : Puts job? r r')
    (hhigh : r.queue.size ≤ r.queue.highWater) :
    r'.queue.toList = r.queue.toList ++ job?.toList ∧
      r'.queue.highWater = max r.queue.highWater r'.queue.toList.length ∧
      (r'.longest = r.longest ∧ r'.queue.highWater = r.queue.highWater ∨
        r'.longest = max r.longest (.ofNat r'.queue.highWater)) := by
  cases job? with
  | none =>
    obtain ⟨hqueue, hlongest⟩ := h
    rw [hqueue]
    refine ⟨(List.append_nil _).symm, (Nat.max_eq_left ?_).symm, .inl ⟨hlongest, rfl⟩⟩
    rwa [← Queue.size_eq_length]
  | some job =>
    obtain ⟨hpush, hlongest⟩ := h
    exact ⟨Queue.toList_push hpush, Queue.highWater_of_push hpush, .inr hlongest⟩

theorem enqueue_puts (hopen : r.queue.closed = false) (existing : Option Song) :
    Puts (s.admission c existing).job r (r.enqueue s c existing) := by
  unfold Setup.admission enqueue
  split
  · exact ⟨rfl, longest_skip (by decide)⟩
  · obtain ⟨queue, hpush⟩ : ∃ queue,
        r.queue.push ⟨c.path, c.key, pathFrom s.root c.path, existing⟩ = some queue := by
      simp [Queue.push, hopen]
    rw [hpush]
    refine ⟨hpush, ?_⟩
    simp [longest, count, Counters.raise, Counters.increment]

theorem settle_puts (hopen : r.queue.closed = false) (existing : Option Song) :
    Puts (s.settlement c existing).job r (r.settle s w c existing) := by
  cases existing with
  | none =>
    rw [settle_none]
    exact enqueue_puts hopen none
  | some song =>
    have hlongest : (r.count .alreadyInTable).longest = r.longest := longest_count (by decide)
    have hold : Puts (s.admission c (some song)).job r
        ((r.count .alreadyInTable).enqueue s c (some song)) :=
      (enqueue_puts (r := r.count .alreadyInTable) hopen (some song)).congr rfl hlongest
    unfold Setup.settlement settle
    cases s.mode with
    | checkNew => exact ⟨rfl, (longest_count (by decide)).trans hlongest⟩
    | compact =>
      obtain ⟨r₁, hcopied, heq⟩ := copyRecord_cases w (r.count .alreadyInTable) song
      have hsame : r₁.queue = r.queue ∧ r₁.longest = r.longest := by
        cases hcopied with
        | failed => exact ⟨rfl, (longest_count (by decide)).trans hlongest⟩
        | _ => exact ⟨rfl, hlongest⟩
      change Puts none r ((r.count .alreadyInTable).copyRecord w song)
      rw [heq]
      exact ⟨hsame.1, (longest_count (by decide)).trans hsame.2⟩
    | _ => exact hold

/-- Which record a candidate has is told from the table and the moment. -/
theorem existingRecord_congr (hmoment : r'.moment = r.moment) (hprimary : r'.primary = r.primary)
    (c : Candidate) : (r'.existingRecord s w c).2 = (r.existingRecord s w c).2 := by
  unfold existingRecord
  rw [hmoment, hprimary]
  split
  · rfl
  · split
    · rfl
    · split
      · rfl
      · split <;> rfl

/-- **Looking at a candidate puts the job into the queue that it is accepted with.** -/
theorem classify_puts (hopen : r.queue.closed = false) (c : Candidate) :
    Puts (Sight.job? s w ⟨r, c⟩) r (r.classify s w c).1 := by
  have hsee : ∀ {job? r'}, Puts job? (r.see c) r' → Puts job? r r' := fun h => h.congr rfl
    (longest_count (r := { r with history.found := c :: r.history.found }) (by decide))
  obtain ⟨moment, hkeeps⟩ := (r.see c).existingRecord_keeps s w c
  have hsame : (r.existingRecord s w c).2 = ((r.see c).existingRecord s w c).2 :=
    existingRecord_congr (by rfl) (by rfl) c
  rw [classify_eq, Sight.job?, hsame]
  generalize (r.see c).existingRecord s w c = looked at hkeeps ⊢
  obtain ⟨r₁, result⟩ := looked
  obtain rfl : r₁ = { r.see c with moment } := hkeeps
  unfold Setup.verdict
  cases hreason : s.classifier.skipReason? c.path c.record.isNone with
  | some reason =>
    have hskip : Puts none r ((r.see c).skip (SkipReason.counter reason)) :=
      hsee ⟨rfl, longest_skip (by cases reason <;> decide)⟩
    cases result <;> exact hskip
  | none =>
    change Puts _ r (Prod.fst (if c.record.isSome && !r.files.pathExists c.path then _ else _))
    by_cases hmissing : c.record.isSome && !r.files.pathExists c.path
    · have hskip : Puts none r ((r.see c).skip .missing) := hsee ⟨rfl, longest_skip (by decide)⟩
      simp only [if_pos hmissing]
      cases result <;> exact hskip
    · simp only [if_neg hmissing]
      cases result with
      | error failure => exact hsee ⟨rfl, rfl⟩
      | ok existing => exact hsee (settle_puts (r := { r.see c with moment }) hopen existing)

/-! ## What every step keeps -/

variable {seen : List Sight} {lengths : List Nat}

theorem isGreatest_append {m : Nat} (h : IsGreatest {k | k ∈ lengths} m) (k : Nat) :
    IsGreatest {j | j ∈ lengths ++ [k]} (max m k) := by
  constructor
  · rcases Nat.le_total m k with hle | hle
    · rw [Nat.max_eq_right hle]
      exact List.mem_append_right _ (List.mem_singleton.2 rfl)
    · rw [Nat.max_eq_left hle]
      exact List.mem_append_left _ h.1
  · intro j hj
    rcases List.mem_append.1 hj with hj | hj
    · exact Nat.le_trans (h.2 hj) (Nat.le_max_left m k)
    · exact (List.mem_singleton.1 hj) ▸ Nat.le_max_right m k

/-- The queue has been in order so far: `seen` are the candidates that were looked at, and
    `lengths` the lengths that the queue has had. -/
structure Flowing (s : Setup) (w : Services) (seen : List Sight) (lengths : List Nat) (r : Run) :
    Prop where
  limit : r.queue.limit = max s.queueLimit 1
  found : seen.map Sight.candidate = r.history.found.reverse
  jobs : r.history.taken.reverse ++ r.queue.toList = seen.filterMap (Sight.job? s w)
  put : ∀ x ∈ seen, ∀ job ∈ x.job? s w, x.run.queue.push job = some (x.after s w).1.queue
  now : r.queue.toList.length ∈ lengths
  highest : IsGreatest {k | k ∈ lengths} r.queue.highWater
  bounded : r.queue.highWater ≤ r.queue.limit
  counted : s.queueLimit < 2 ^ 64 → r.longest.toNat = r.queue.highWater

namespace Flowing

theorem new (s : Setup) (w : Services) (files : FileTree) : Flowing s w [] [0] (.new s files) where
  limit := rfl
  found := rfl
  jobs := rfl
  put := by simp
  now := List.mem_singleton.2 rfl
  highest := ⟨List.mem_singleton.2 rfl, fun k hk => Nat.le_of_eq (List.mem_singleton.1 hk)⟩
  bounded := Nat.zero_le _
  counted := fun _ => congrArg UInt64.toNat (Counters.get_zero .queueHighWater)

/-- What matters are the queue, the history and what is counted of the queue. -/
theorem congr (h : Flowing s w seen lengths r) (hlimit : r'.queue.limit = r.queue.limit)
    (hhigh : r'.queue.highWater = r.queue.highWater) (hqueue : r'.queue.toList = r.queue.toList)
    (hhistory : r'.history = r.history) (hlongest : r'.longest = r.longest) :
    Flowing s w seen lengths r' where
  limit := hlimit.trans h.limit
  found := hhistory ▸ h.found
  jobs := by rw [hhistory, hqueue, h.jobs]
  put := h.put
  now := hqueue ▸ h.now
  highest := hhigh ▸ h.highest
  bounded := by rw [hhigh, hlimit]; exact h.bounded
  counted := fun hword => by rw [hlongest, hhigh, h.counted hword]

/-- A length that is no greater is one that the queue has now. -/
theorem pass (h : Flowing s w seen lengths r) (hlimit : r'.queue.limit = r.queue.limit)
    (hhigh : r'.queue.highWater = r.queue.highWater)
    (hfound : r'.history.found = r.history.found)
    (hjobs : r'.history.taken.reverse ++ r'.queue.toList =
      r.history.taken.reverse ++ r.queue.toList)
    (hlength : r'.queue.toList.length ≤ r.queue.toList.length)
    (hlongest : s.queueLimit < 2 ^ 64 → r'.longest.toNat = r.queue.highWater) :
    Flowing s w seen (lengths ++ [r'.queue.toList.length]) r' where
  limit := hlimit.trans h.limit
  found := hfound ▸ h.found
  jobs := hjobs.trans h.jobs
  put := h.put
  now := by simp
  highest := by
    have hle := Nat.le_trans hlength (h.highest.2 h.now)
    rw [hhigh, ← Nat.max_eq_left hle]
    exact isGreatest_append h.highest _
  bounded := by rw [hhigh, hlimit]; exact h.bounded
  counted := fun hword => by rw [hlongest hword, hhigh]

theorem control (h : Flowing s w seen lengths r) (message : Control) :
    Flowing s w seen lengths (r.control message) := by
  rcases r.control_cases message with heq | heq <;> rw [heq]
  · exact h
  · exact h.congr rfl rfl rfl rfl rfl

theorem controls (h : Flowing s w seen lengths r) (messages : List Control) :
    Flowing s w seen lengths (r.controls messages) := by
  induction messages generalizing r with
  | nil => exact h
  | cons message rest ih => exact ih (h.control message)

/-- **A candidate that is looked at where the queue has room keeps the queue in order.** -/
theorem look {x : Sight} (h : Flowing s w seen lengths x.run) (hroom : x.run.queue.hasRoom) :
    Flowing s w (seen ++ [x]) (lengths ++ lengthsAfter s w [x]) (x.after s w).1 := by
  obtain ⟨hopen, hless⟩ : x.run.queue.closed = false ∧ x.run.queue.size < x.run.queue.limit := by
    simpa [Queue.hasRoom] using hroom
  have hputs : Puts (x.job? s w) x.run (x.after s w).1 := classify_puts hopen x.candidate
  obtain ⟨hqueue, hhigh, hlongest⟩ := hputs.queue (Queue.size_eq_length _ ▸ h.highest.2 h.now)
  have hlimit : (x.after s w).1.queue.limit = x.run.queue.limit := (classify_looks x.candidate).queue.1
  -- There is room for the one job that a candidate may bring.
  have hbounded : (x.after s w).1.queue.highWater ≤ (x.after s w).1.queue.limit := by
    have hold := h.bounded
    rw [hhigh, hqueue, hlimit, List.length_append, ← Queue.size_eq_length]
    have hone : (x.job? s w).toList.length ≤ 1 := by cases x.job? s w <;> simp
    omega
  refine ⟨hlimit.trans h.limit, ?_, ?_, ?_, ?_, ?_, hbounded, fun hword => ?_⟩
  · rw [Sight.after, classify_found, List.reverse_cons, ← h.found, List.map_append,
      List.map_singleton]
  · rw [Sight.after, (classify_looks x.candidate).taken, ← Sight.after, hqueue,
      List.filterMap_append, ← h.jobs, List.append_assoc]
    cases hjob : x.job? s w <;> simp [hjob]
  · intro y hy job hjob
    rcases List.mem_append.1 hy with hy | hy
    · exact h.put y hy job hjob
    · obtain rfl := List.mem_singleton.1 hy
      rw [Option.mem_def.1 hjob] at hputs
      exact hputs.1
  · exact List.mem_append_right _ (List.mem_singleton.2 rfl)
  · rw [hhigh]
    exact isGreatest_append h.highest _
  · have hold := h.counted hword
    rcases hlongest with ⟨hsame, hsame'⟩ | hraised
    · rw [hsame, hsame', hold]
    · have hword' : (x.after s w).1.queue.highWater < 2 ^ 64 := by
        rw [hlimit, h.limit] at hbounded
        omega
      have hle : x.run.longest ≤ .ofNat (x.after s w).1.queue.highWater := by
        rw [UInt64.le_iff_toNat_le, hold, UInt64.toNat_ofNat_of_lt' hword', hhigh]
        exact Nat.le_max_left _ _
      have hmax : max x.run.longest (.ofNat (x.after s w).1.queue.highWater) =
          .ofNat (x.after s w).1.queue.highWater := if_pos hle
      rw [hraised, hmax, UInt64.toNat_ofNat_of_lt' hword']

/-- Taking candidates keeps the queue in order, also where it fails. -/
theorem pull (h : Flowing s w seen lengths r) (n : Nat) :
    Flowing s w (seen ++ sights s w n r) (lengths ++ lengthsAfter s w (sights s w n r))
      (Run.pull s w n r).1 := by
  induction n generalizing r seen lengths with
  | zero => simpa [sights, lengthsAfter, Run.pull] using h
  | succ n ih =>
    obtain ⟨source, moment, hkeeps⟩ := r.nextCandidate_keeps s w
    unfold sights Run.pull
    by_cases hroom : r.queue.hasRoom
    · rw [if_neg (by simp [hroom]), if_neg (by simp [hroom])]
      rcases hnext : r.nextCandidate s w with ⟨r₁, failure | _ | c⟩ <;> rw [hnext] at hkeeps <;>
        obtain rfl : r₁ = { r with source, moment } := hkeeps
      · simp only [lengthsAfter, List.map_nil, List.append_nil]
        exact h.congr rfl rfl rfl rfl rfl
      · simp only [lengthsAfter, List.map_nil, List.append_nil]
        exact h.congr rfl rfl rfl rfl rfl
      · have hlook := look (x := ⟨{ r with source, moment }, c⟩) (h.congr rfl rfl rfl rfl rfl) hroom
        rcases hclassify : Run.classify s w { r with source, moment } c with ⟨r₂, failure | _⟩
        · rw [Sight.after, hclassify] at hlook
          simpa only [hclassify] using hlook
        · rw [Sight.after, hclassify] at hlook
          have hrest := ih hlook
          simp only [hclassify]
          rw [List.append_assoc, List.append_assoc] at hrest
          exact hrest
    · rw [if_pos (by simp [hroom]), if_pos (by simp [hroom])]
      simpa [lengthsAfter] using h

/-- **Doing a job keeps the queue in order.** -/
theorem performNext (h : Flowing s w seen lengths r) :
    Flowing s w seen (lengths ++ [(r.performNext s w).queue.toList.length]) (r.performNext s w) := by
  obtain ⟨hqueue, htaken⟩ := performNext_queue (s := s) (w := w) r
  obtain ⟨hlimit, -, hfound, -⟩ := performNext_keeps (s := s) (w := w) r
  obtain ⟨hhigh, hlongest⟩ : (r.performNext s w).queue.highWater = r.queue.highWater ∧
      (r.performNext s w).longest = r.longest := by
    unfold Run.performNext
    split
    · exact ⟨rfl, rfl⟩
    · next job queue hpop =>
      have hkept := perform_kept s w { r with queue, history.taken := job :: r.history.taken } job
      exact ⟨hkept.queue ▸ (Queue.pop?_keeps hpop).2.2, hkept.counts _ (by simp)⟩
  refine h.pass hlimit hhigh hfound ?_ ?_ fun hword => by rw [hlongest, h.counted hword]
  · rw [hqueue, htaken]
    cases r.queue.toList <;> simp
  · rw [hqueue, List.length_tail]
    exact Nat.sub_le _ 1

theorem reported (h : Flowing s w seen (lengths ++ [r.queue.toList.length]) r) :
    Flowing s w seen (lengths ++ [r.reportProgress.queue.toList.length]) r.reportProgress := by
  obtain ⟨_, _, hkeeps⟩ := r.reportProgress_keeps
  rw [hkeeps]
  exact h.congr rfl rfl rfl rfl rfl

/-- An operation that leaves the queue and the history alone keeps the queue in order. -/
theorem same (h : Flowing s w seen lengths r) (hqueue : r'.queue = r.queue)
    (hhistory : r'.history = r.history)
    (hlongest : r'.longest = r.longest ∨ r'.longest = max r.longest (.ofNat r.queue.highWater)) :
    Flowing s w seen (lengths ++ [r'.queue.toList.length]) r' := by
  refine h.pass (by rw [hqueue]) (by rw [hqueue]) (by rw [hhistory]) (by rw [hqueue, hhistory])
    (Nat.le_of_eq (by rw [hqueue])) fun hword => ?_
  rcases hlongest with heq | heq <;> rw [heq]
  · exact h.counted hword
  · have hsame : UInt64.ofNat r.queue.highWater = r.longest := by
      rw [← h.counted hword, UInt64.ofNat_toNat]
    rw [hsame, show max r.longest r.longest = r.longest from ite_self _, h.counted hword]

end Flowing

/-- Closing the tables raises the greatest length that is counted to what it is. -/
theorem finish_longest (s : Setup) (w : Services) (r : Run) :
    (r.finish s w).1.longest = r.longest ∨
      (r.finish s w).1.longest = max r.longest (.ofNat r.queue.highWater) := by
  -- Closing the tables leaves the queue alone; the report counts its greatest length.
  let Same (r r' : Run) : Prop := r'.queue = r.queue ∧ r'.longest = r.longest
  have htarget : ∀ {r₁ result}, { r with source := none }.closeTarget w = (r₁, result) →
      Same r r₁ := by
    intro r₁ result h
    obtain ⟨_, _, _, hkeeps⟩ := closeTarget_keeps (w := w) (r := { r with source := none })
    rw [h] at hkeeps
    exact (show r₁ = _ from hkeeps) ▸ ⟨rfl, rfl⟩
  have hprimary : ∀ {r₁ r₂ result}, Same r r₁ → r₁.closePrimary w = (r₂, result) → Same r r₂ := by
    intro r₁ r₂ result hsame h
    obtain ⟨_, _, _, hkeeps⟩ := closePrimary_keeps (w := w) (r := r₁)
    rw [h] at hkeeps
    exact (show r₂ = _ from hkeeps) ▸ hsame
  have hreplace : ∀ {r₂ r₃ result}, Same r r₂ → r₂.replaceTable s w = (r₃, result) → Same r r₃ := by
    intro r₂ r₃ result hsame h
    have hfiles := replaceTable_filesOnly (s := s) (w := w) (r := r₂)
    rw [h] at hfiles
    obtain ⟨_, _, hkeeps⟩ := hfiles
    exact (show r₃ = _ from hkeeps) ▸ hsame
  have hreport : ∀ {r₁ : Run} (discarded : Bool), Same r r₁ →
      (r₁.report discarded).longest = max r.longest (.ofNat r.queue.highWater) := by
    intro r₁ discarded hsame
    obtain ⟨_, hkeeps⟩ := r₁.report_keeps discarded
    rw [hkeeps, ← hsame.1, ← hsame.2]
    simp [longest, Counters.raise]
  have hfinished := finish_cases s w r
  generalize r.finish s w = result at hfinished
  cases hfinished with
  | targetFails h₁ => exact .inl (htarget h₁).2
  | primaryFails h₁ h₂ => exact .inl (hprimary (htarget h₁) h₂).2
  | renameFails h₁ h₂ _ h₃ => exact .inl (hreplace (hprimary (htarget h₁) h₂) h₃).2
  | replaced h₁ h₂ _ h₃ => exact .inr (hreport false (hreplace (hprimary (htarget h₁) h₂) h₃))
  | kept h₁ h₂ _ => exact .inr (hreport _ (hprimary (htarget h₁) h₂))

/-- What a phase asks for keeps the queue in order. -/
theorem Flowing.act (h : Flowing s w seen lengths r) :
    Flowing s w (seen ++ stepSights s w r)
      (lengths ++ lengthsAfter s w (stepSights s w r) ++ [(r.act s w).1.queue.toList.length])
      (r.act s w).1 := by
  by_cases hphase : r.phase = .gather
  · have hpull := h.pull s.batch
    rw [stepSights, if_pos hphase, Run.act, hphase]
    dsimp only
    rcases gather_cases s w r with ⟨r₁, failure, hpulled, heq⟩ | ⟨r₁, phase, hpulled, -, heq⟩ <;>
      rw [hpulled] at hpull <;> rw [heq]
    · exact hpull.same rfl rfl (.inl rfl)
    · have hnext : Flowing s w _ _ { r₁ with phase } := hpull.congr rfl rfl rfl rfl rfl
      exact hnext.performNext.reported
  · have hnone : stepSights s w r = [] := if_neg hphase
    rw [hnone]
    simp only [lengthsAfter, List.map_nil, List.append_nil]
    unfold Run.act
    split
    · obtain ⟨_, _, _, _, _, hkeeps⟩ := start_keeps s w r
      rw [hkeeps]
      exact h.same rfl rfl (.inl rfl)
    · obtain ⟨_, _, _, _, _, _, hkeeps, -⟩ := prepare_keeps s w r
      rw [hkeeps]
      exact h.same rfl rfl (.inl rfl)
    · next hgather => exact absurd hgather hphase
    · unfold Run.drain
      split
      · exact h.same rfl rfl (.inl rfl)
      · exact h.performNext.reported
    · exact h.same (finish_sameQueue s w r).1.queue (finish_history s w r) (finish_longest s w r)
    · exact h.same rfl rfl (.inl rfl)

/-- **Every step keeps the queue in order.** -/
theorem Flowing.step (h : Flowing s w seen lengths r) :
    Flowing s w (seen ++ stepSights s w r)
      (lengths ++ lengthsAfter s w (stepSights s w r) ++ [(r.step s w).1.queue.toList.length])
      (r.step s w).1 := by
  have hact := h.act
  unfold Run.step
  split
  · next r₁ heq =>
    rwa [heq] at hact
  · next r₁ failure heq =>
    rw [heq] at hact
    exact hact.congr rfl rfl rfl rfl rfl

variable (s w files) in
/-- **Every run keeps the queue in order.** -/
theorem flowing_driven (arriving : Nat → List Control) (n : Nat) :
    Flowing s w (drivenSights s w arriving n (.new s files))
      (Run.lengths s w arriving n (.new s files)) (driven s w arriving n (.new s files)) := by
  induction n with
  | zero => exact .new s w files
  | succ n ih => exact (ih.controls (arriving n)).step

/-! ## States that can be reached -/

theorem driven_congr {arriving arriving' : Nat → List Control} {n : Nat}
    (h : ∀ k < n, arriving k = arriving' k) (r : Run) :
    driven s w arriving n r = driven s w arriving' n r := by
  induction n with
  | zero => rfl
  | succ n ih => rw [driven, driven, ih fun k hk => h k (Nat.lt_succ_of_lt hk), h n (Nat.lt_succ_self n)]

/-- **A state that can be reached is that after some steps**, where messages have arrived
    before each of them and after the last. -/
theorem exists_driven {o : Option Failure} (h : Reachable s w files o r) :
    ∃ arriving n messages, r = (driven s w arriving n (.new s files)).controls messages := by
  have hstep : ∀ {r : Run}, (∃ arriving n messages,
      r = (driven s w arriving n (.new s files)).controls messages) →
      ∃ arriving n messages,
        (r.step s w).1 = (driven s w arriving n (.new s files)).controls messages := by
    rintro r ⟨arriving, n, messages, rfl⟩
    refine ⟨fun k => if k = n then messages else arriving k, n + 1, [], ?_⟩
    have hsame : driven s w arriving n (.new s files) =
        driven s w (fun k => if k = n then messages else arriving k) n (.new s files) :=
      driven_congr (fun k hk => (if_neg (Nat.ne_of_lt hk)).symm) _
    rw [hsame]
    simp [driven, controls]
  induction h with
  | new => exact ⟨fun _ => [], 0, [], rfl⟩
  | control message _ ih =>
    obtain ⟨arriving, n, messages, rfl⟩ := ih
    exact ⟨arriving, n, messages ++ [message], by simp [controls]⟩
  | step _ hs ih =>
    have hnext := hstep ih
    rwa [hs] at hnext
  | fail _ hs ih =>
    have hnext := hstep ih
    rwa [hs] at hnext

end Run

/-- **Jobs go through the queue in order.**  The states that a run can reach are those after
    some steps, where any messages arrive between them.  Up to any of these, the queue has
    never had more jobs than its limit, or one if that is less; the jobs taken out and those
    still in the queue are those that candidates were accepted with, in the order in which
    the candidates were found; each of them was put into the queue, which was open; and the
    greatest length that the queue has had is what is counted. -/
theorem jobs_flow_in_order :
    (∀ o r, Reachable s w files o r → ∃ arriving n messages,
      r = (Run.driven s w arriving n (.new s files)).controls messages) ∧
    ∀ (arriving : Nat → List Control) (n : Nat) (messages : List Control),
      let r := (Run.driven s w arriving n (.new s files)).controls messages
      let seen := Run.drivenSights s w arriving n (.new s files)
      let lengths := Run.lengths s w arriving n (.new s files)
      r.queue.toList.length ∈ lengths ∧ (∀ k ∈ lengths, k ≤ max 1 s.queueLimit) ∧
      seen.map Sight.candidate = r.history.found.reverse ∧
      r.history.taken.reverse ++ r.queue.toList = seen.filterMap (Sight.job? s w) ∧
      (∀ x ∈ seen, ∀ job ∈ x.job? s w, x.run.queue.push job = some (x.after s w).1.queue) ∧
      (s.queueLimit < 2 ^ 64 →
        IsGreatest {k | k ∈ lengths} (r.counters.get .queueHighWater).toNat) := by
  refine ⟨fun o r h => Run.exists_driven h, fun arriving n messages => ?_⟩
  have h := (Run.flowing_driven s w files arriving n).controls messages
  refine ⟨h.now, fun k hk => ?_, h.found, h.jobs, h.put, fun hword => ?_⟩
  · have hle := Nat.le_trans (h.highest.2 hk) h.bounded
    rw [h.limit] at hle
    omega
  · have hcounted : ((Run.controls _ messages).counters.get .queueHighWater).toNat = _ :=
      h.counted hword
    rw [hcounted]
    exact h.highest

/-- A run over a table whose queue has room for two jobs. -/
def narrowSetup : Setup :=
  { sampleSetup .updateTags with queueLimit := 2 }

/-- A run over three records whose queue has room for two jobs, and which is stopped before its
    fifth step: the third record has been found by then, and its job is done in the end. -/
theorem jobs_flow_in_order_threefold :
    ∃ (r : Run) (seen : List Sight), narrowSetup.queueLimit < 2 ^ 64 ∧
      r.phase = .done ∧ r.stopped ∧ seen.length = 3 ∧
      r.history.taken.reverse = seen.filterMap (Sight.job? narrowSetup sampleServices) ∧
      IsGreatest {k | k ∈ [0, 0, 0, 1, 2, 1, 2, 1, 0, 0, 0]}
        (r.counters.get .queueHighWater).toNat := by
  have hflow := (@jobs_flow_in_order narrowSetup sampleServices threefoldFiles).2
    (Run.stopBefore 4) 7 []
  have hlengths : Run.lengths narrowSetup sampleServices (Run.stopBefore 4) 7
      (.new narrowSetup threefoldFiles) = [0, 0, 0, 1, 2, 1, 2, 1, 0, 0, 0] := by decide +kernel
  have hempty : (Run.driven narrowSetup sampleServices (Run.stopBefore 4) 7
      (.new narrowSetup threefoldFiles)).queue.toList = [] := by decide +kernel
  simp only [Run.controls, List.foldl_nil, hempty, List.append_nil, hlengths] at hflow
  obtain ⟨-, -, -, hjobs, -, hgreatest⟩ := hflow
  exact ⟨_, _, by decide, by decide +kernel, by decide +kernel, by decide +kernel, hjobs,
    hgreatest (by decide)⟩

end SongLibrary.Reconcile
