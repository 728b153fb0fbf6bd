/-
  How many steps a run takes.

  Every step looks at a candidate, takes a job out of the queue, or leads on to the next
  phase.  So a run has never taken more steps than its phase and its candidates account for
  (`Paced`), whatever the world answers: every step keeps that (`Paced.step`).
-/
import SongLibrary.Proofs.Reconcile.Driven

namespace SongLibrary.Reconcile

/-- The number of steps that lead to a phase, aside from those for candidates. -/
def Phase.level : Phase → Nat
  | start => 0
  | prepare => 1
  | gather => 2
  | drain => 3
  | finish => 4
  | done => 5

namespace Run

variable {s : Setup} {w : Services} {files : FileTree} {r r' r₁ : Run} {n : Nat}

/-! ## What a slice of work does to the queue -/

theorem enqueue_size_le (c : Candidate) (existing : Option Song) :
    (r.enqueue s c existing).queue.size ≤ r.queue.size + 1 := by
  unfold enqueue
  split
  · exact Nat.le_succ _
  · split
    · exact Nat.le_succ _
    · next queue hpush => exact Nat.le_of_eq (Queue.size_of_push hpush)

theorem settle_size_le (c : Candidate) (existing : Option Song) :
    (r.settle s w c existing).queue.size ≤ r.queue.size + 1 := by
  unfold settle
  split
  · exact enqueue_size_le c none
  · exact Nat.le_succ _
  · next song _ _ =>
    obtain ⟨r₁, hcopied, heq⟩ := copyRecord_cases w (r.count .alreadyInTable) song
    rw [heq]
    cases hcopied <;> exact Nat.le_succ _
  · next song _ _ => exact enqueue_size_le (r := r.count .alreadyInTable) c (some song)

/-- A candidate that is looked at puts one job into the queue at most. -/
theorem classify_size_le (c : Candidate) :
    (r.classify s w c).1.queue.size ≤ r.queue.size + 1 := by
  rw [classify_eq]
  split
  · exact Nat.le_succ _
  · split
    · exact Nat.le_succ _
    · obtain ⟨moment, hkeeps⟩ := (r.see c).existingRecord_keeps s w c
      have hsize : ((r.see c).existingRecord s w c).1.queue.size = r.queue.size := by
        rw [hkeeps]
        rfl
      split
      · next hexisting =>
        rw [hexisting] at hsize
        exact Nat.le_trans (Nat.le_of_eq hsize) (Nat.le_succ _)
      · next r₁ existing hexisting =>
        rw [hexisting] at hsize
        exact hsize ▸ settle_size_le c existing

theorem nextCandidate_queue : (r.nextCandidate s w).1.queue = r.queue := by
  obtain ⟨_, _, hkeeps⟩ := r.nextCandidate_keeps s w
  rw [hkeeps]

/-- Taking candidates puts no more jobs into the queue than it finds candidates. -/
theorem pull_size_le (n : Nat) (r : Run) :
    (pull s w n r).1.queue.size + r.history.found.length ≤
      r.queue.size + (pull s w n r).1.history.found.length := by
  induction n generalizing r with
  | zero => exact Nat.le_refl _
  | succ n ih =>
    have hqueue := nextCandidate_queue (s := s) (w := w) (r := r)
    have hfound := nextCandidate_found (s := s) (w := w) (r := r)
    unfold pull
    split
    · exact Nat.le_refl _
    · split
      · next hnext =>
        rw [hnext] at hqueue hfound
        exact Nat.le_of_eq (by rw [hqueue, hfound])
      · next hnext =>
        rw [hnext] at hqueue hfound
        exact Nat.le_of_eq (congrArg₂ (· + ·) (congrArg Queue.size hqueue) (congrArg List.length hfound).symm)
      · next r₁ c hnext =>
        rw [hnext] at hqueue hfound
        have hsize := classify_size_le (s := s) (w := w) (r := r₁) c
        have hlength := congrArg List.length (classify_found (s := s) (w := w) (r := r₁) c)
        rw [hqueue] at hsize
        rw [List.length_cons, hfound] at hlength
        split
        · next hclassify =>
          rw [hclassify] at hsize hlength
          dsimp only at hsize hlength ⊢
          omega
        · next r₂ hclassify =>
          rw [hclassify] at hsize hlength
          have hrest := ih r₂
          dsimp only at hsize hlength
          omega

/-- Taking candidates stops at a full queue, comes to the end, or finds one. -/
theorem pull_advances {n : Nat} (h : pull s w (n + 1) r = (r', .ok ())) :
    r.queue.hasRoom = false ∧ r' = r ∨ r'.source = none ∨
      r.history.found.length < r'.history.found.length := by
  have hfound := nextCandidate_found (s := s) (w := w) (r := r)
  unfold pull at h
  split at h
  · next hroom =>
    cases h
    exact .inl ⟨by simpa using hroom, rfl⟩
  · split at h
    · cases h
    · cases h
      exact .inr (.inl rfl)
    · next r₁ c hnext =>
      have hlength := congrArg List.length (classify_found (s := s) (w := w) (r := r₁) c)
      rw [hnext] at hfound
      rw [List.length_cons, hfound] at hlength
      split at h
      · cases h
      · next r₂ hclassify =>
        have hle := pull_found_le (s := s) (w := w) n r₂
        rw [hclassify] at hlength
        rw [h] at hle
        dsimp only at hlength hle
        exact .inr (.inr (by omega))

/-- Where a run stands with its candidates and jobs. -/
structure SameQueue (r r' : Run) : Prop where
  queue : r'.queue = r.queue
  found : r'.history.found = r.history.found
  stopped : r'.stopped = r.stopped

theorem SameQueue.trans {r₂ : Run} (h : SameQueue r r₁) (h' : SameQueue r₁ r₂) : SameQueue r r₂ :=
  ⟨h'.queue.trans h.queue, h'.found.trans h.found, h'.stopped.trans h.stopped⟩

theorem start_sameQueue (s : Setup) (w : Services) (r : Run) :
    SameQueue r (r.start s w).1 ∧ (r.start s w).1.source = r.source := by
  obtain ⟨_, _, _, _, _, hkeeps⟩ := start_keeps s w r
  rw [hkeeps]
  exact ⟨⟨rfl, rfl, rfl⟩, rfl⟩

/-- A run that is stopped prepares without a source. -/
theorem prepare_sameQueue (s : Setup) (w : Services) (r : Run) :
    SameQueue r (r.prepare s w).1 ∧
      (r.stopped → (r.prepare s w).1.source = r.source) := by
  obtain ⟨_, _, _, _, _, _, hkeeps, hstop, -⟩ := prepare_keeps s w r
  rw [hkeeps]
  exact ⟨⟨rfl, rfl, rfl⟩, hstop⟩

theorem finish_sameQueue (s : Setup) (w : Services) (r : Run) :
    SameQueue r (r.finish s w).1 ∧ (r.finish s w).1.source = none ∧
      (r.finish s w).1.total = r.total := by
  obtain ⟨_, _, _, _, _, _, _, hkeeps⟩ := r.finish_keeps s w
  rw [hkeeps]
  exact ⟨⟨rfl, rfl, rfl⟩, rfl, rfl⟩

/-- Doing a job takes it out of the queue. -/
theorem performNext_size (r : Run) : (r.performNext s w).queue.size = r.queue.size - 1 := by
  unfold performNext
  split
  · next hpop =>
    rw [Queue.size_eq_length, Queue.pop?_eq_none_iff.1 hpop]
    rfl
  · next job queue hpop =>
    rw [(perform_kept s w _ job).queue, Queue.size_of_pop? hpop]
    rfl

/-- Doing a job leaves the rest of the queue as it is. -/
theorem performNext_keeps (r : Run) :
    (r.performNext s w).queue.limit = r.queue.limit ∧
      (r.performNext s w).queue.closed = r.queue.closed ∧
      (r.performNext s w).history.found = r.history.found ∧
      (r.performNext s w).stopped = r.stopped ∧ (r.performNext s w).source = r.source := by
  unfold performNext
  split
  · exact ⟨rfl, rfl, rfl, rfl, rfl⟩
  · next job queue hpop =>
    have hkept := perform_kept s w { r with queue, history.taken := job :: r.history.taken } job
    obtain ⟨hlimit, hclosed, -⟩ := Queue.pop?_keeps hpop
    refine ⟨?_, ?_, hkept.found, hkept.stopped, hkept.source⟩ <;> rw [hkept.queue]
    · exact hlimit
    · exact hclosed

/-! ## The pace -/

/-- A run has taken no more steps than its phase and its candidates account for: for each
    candidate one to look at it, and one to do its job. -/
structure Paced (n : Nat) (r : Run) : Prop where
  steps : n + r.queue.size ≤ 2 * r.history.found.length + r.phase.level
  limit : 0 < r.queue.limit
  closed : r.queue.closed → r.stopped ∧ r.source = none

theorem Paced.new (s : Setup) (files : FileTree) : Paced 0 (.new s files) :=
  ⟨Nat.le_refl 0, Nat.lt_of_lt_of_le Nat.one_pos (Nat.le_max_right s.queueLimit 1),
    fun h => by cases h⟩

theorem Paced.control (h : Paced n r) (message : Control) : Paced n (r.control message) := by
  rcases r.control_cases message with heq | heq <;> rw [heq]
  · exact h
  · exact ⟨h.steps, h.limit, fun _ => ⟨rfl, rfl⟩⟩

theorem Paced.controls (h : Paced n r) (messages : List Control) : Paced n (r.controls messages) := by
  induction messages generalizing r with
  | nil => exact h
  | cons message rest ih => exact ih (h.control message)

/-- A step that leaves the queue alone leads on to another phase. -/
theorem Paced.lead (h : Paced n r) (hsame : SameQueue r r')
    (hsource : r.stopped → r.source = none → r'.source = none)
    (hlevel : r.phase.level < r'.phase.level) : Paced (n + 1) r' := by
  refine ⟨?_, hsame.queue ▸ h.limit, fun hclosed => ?_⟩
  · have hsteps := h.steps
    rw [hsame.queue, hsame.found]
    omega
  · rw [hsame.queue] at hclosed
    obtain ⟨hstopped, hnone⟩ := h.closed hclosed
    exact ⟨hsame.stopped.trans hstopped, hsource hstopped hnone⟩

theorem Paced.fail (h : Paced n r) (hsame : SameQueue r r')
    (hsource : r.stopped → r.source = none → r'.source = none) (hphase : r.phase ≠ .done)
    (failure : Failure) : Paced (n + 1) (r'.fail failure) :=
  h.lead (hsame.trans ⟨rfl, rfl, rfl⟩) hsource (by cases hr : r.phase <;> simp_all [Phase.level, Run.fail])

theorem reportProgress_paced (h : Paced n r) : Paced n r.reportProgress := by
  obtain ⟨_, _, hkeeps⟩ := r.reportProgress_keeps
  rw [hkeeps]
  exact ⟨h.steps, h.limit, h.closed⟩

/-- What taking candidates leaves: closed queues stay so, as do limits. -/
theorem pull_closed (h : Paced n r) (m : Nat) :
    0 < (pull s w m r).1.queue.limit ∧ ((pull s w m r).1.queue.closed →
      (pull s w m r).1.stopped ∧ (pull s w m r).1.source = none) := by
  have hlooks := pull_looks (s := s) (w := w) (r := r) m
  obtain ⟨hlimit, hclosed⟩ := hlooks.queue
  refine ⟨hlimit ▸ h.limit, fun hc => ?_⟩
  rw [hclosed] at hc
  obtain ⟨hstopped, hsource⟩ := h.closed hc
  refine ⟨hlooks.sameCourse.stopped.trans hstopped, ?_⟩
  cases m with
  | zero => exact hsource
  | succ m =>
    have hroom : r.queue.hasRoom = false := by simp [Queue.hasRoom, hc]
    rw [pull, hroom]
    exact hsource

/-- Taking candidates and doing a job is a step that is accounted for, also where it fails. -/
theorem Paced.gather (hbatch : 0 < s.batch) (h : Paced n r) (hphase : r.phase = .gather) :
    (∃ r₁ failure, r.gather s w = (r₁, .error failure) ∧ Paced (n + 1) (r₁.fail failure)) ∨
      ∃ r₁, r.gather s w = (r₁, .ok ()) ∧ Paced (n + 1) r₁ := by
  have hsteps := h.steps
  rw [hphase] at hsteps
  change _ ≤ _ + 2 at hsteps
  have hsize := pull_size_le (s := s) (w := w) s.batch r
  have hle := pull_found_le (s := s) (w := w) s.batch r
  obtain ⟨hlimit, hclosed⟩ := pull_closed (s := s) (w := w) h s.batch
  rcases gather_cases s w r with ⟨r₁, failure, hpull, heq⟩ | ⟨r₁, phase, hpull, hlevel, heq⟩ <;>
    rw [hpull] at hsize hle hlimit hclosed
  · refine .inl ⟨r₁, failure, heq, ?_, hlimit, hclosed⟩
    change _ ≤ _ + 5
    dsimp only [Run.fail, Run.send] at hsize hle ⊢
    omega
  · refine .inr ⟨_, heq, reportProgress_paced ?_⟩
    obtain ⟨hlimit₂, hclosed₂, hfound₂, hstopped₂, hsource₂⟩ :=
      performNext_keeps (s := s) (w := w) { r₁ with phase }
    have hphase₂ : (performNext s w { r₁ with phase }).phase = phase := performNext_sameCourse.phase
    refine ⟨?_, hlimit₂ ▸ hlimit, ?_⟩
    · rw [performNext_size, hfound₂, hphase₂]
      obtain ⟨m, hm⟩ := Nat.exists_eq_succ_of_ne_zero (Nat.ne_of_gt hbatch)
      rw [hm] at hpull
      dsimp only at hsize hle ⊢
      have hphases : phase.level = if r₁.source = none then 3 else 2 := by
        rw [hlevel, hphase]
        split <;> rfl
      rw [hphases]
      rcases pull_advances hpull with ⟨hroom, rfl⟩ | hnone | hfewer
      · -- A queue without room has a job, or is closed, and then there is no candidate.
        split
        · omega
        · next hsome =>
          have hopen : r₁.queue.closed = false := by
            by_contra hc
            exact hsome (h.closed (by simpa using hc)).2
          have hfull : r₁.queue.limit ≤ r₁.queue.size := by
            simpa [Queue.hasRoom, hopen] using hroom
          have hpos := h.limit
          omega
      · rw [if_pos hnone]
        omega
      · split <;> omega
    · rw [hclosed₂, hstopped₂, hsource₂]
      exact hclosed

theorem Paced.drain (h : Paced n r) (hphase : r.phase = .drain) : Paced (n + 1) (r.drain s w) := by
  unfold Run.drain
  split
  · exact h.lead ⟨rfl, rfl, rfl⟩ (fun _ hnone => hnone) (by rw [hphase]; exact Nat.lt_succ_self 3)
  · next hfull =>
    apply reportProgress_paced
    obtain ⟨hlimit, hclosed, hfound, hstopped, hsource⟩ := performNext_keeps (s := s) (w := w) r
    have hsteps := h.steps
    have hpos : r.queue.size ≠ 0 := by simpa [Queue.isEmpty] using hfull
    refine ⟨?_, hlimit ▸ h.limit, ?_⟩
    · rw [performNext_size, hfound, performNext_sameCourse.phase]
      omega
    · rw [hclosed, hstopped, hsource]
      exact h.closed

/-- **Every step of a run that is not over leads on.** -/
theorem Paced.step (hbatch : 0 < s.batch) (h : Paced n r) (hphase : r.phase ≠ .done) :
    Paced (n + 1) (r.step s w).1 := by
  unfold Run.step
  split
  · next r' hact =>
    cases act_cases hact with
    | start hcase hact hnext =>
      have hsame := start_sameQueue s w r
      rw [hact] at hsame
      exact h.lead hsame.1 (fun _ hnone => hsame.2.trans hnone) (by rw [hnext, hcase]; decide)
    | prepare hcase hact hnext =>
      have hsame := prepare_sameQueue s w r
      rw [hact] at hsame
      exact h.lead hsame.1 (fun hstopped hnone => (hsame.2 hstopped).trans hnone)
        (by rw [hnext, hcase]; decide)
    | gather hcase hact _ =>
      rcases h.gather (w := w) hbatch hcase with ⟨_, _, heq, hpaced⟩ | ⟨_, heq, hpaced⟩ <;>
        rw [hact] at heq <;> cases heq
      exact hpaced
    | drain hcase _ => exact h.drain hcase
    | finish hcase hact hnext =>
      have hsame := finish_sameQueue s w r
      rw [hact] at hsame
      exact h.lead hsame.1 (fun _ _ => hsame.2.1) (by rw [hnext, hcase]; decide)
    | done hcase => exact absurd hcase hphase
  · next r' failure hact =>
    cases act_error_cases hact with
    | start _ hact =>
      have hsame := start_sameQueue s w r
      rw [hact] at hsame
      exact h.fail hsame.1 (fun _ hnone => hsame.2.trans hnone) hphase failure
    | prepare _ hact =>
      have hsame := prepare_sameQueue s w r
      rw [hact] at hsame
      exact h.fail hsame.1 (fun hstopped hnone => (hsame.2 hstopped).trans hnone) hphase failure
    | gather hcase hact =>
      rcases h.gather (w := w) hbatch hcase with ⟨_, _, heq, hpaced⟩ | ⟨_, heq, hpaced⟩ <;>
        rw [hact] at heq <;> cases heq
      exact hpaced
    | finish _ hact =>
      have hsame := finish_sameQueue s w r
      rw [hact] at hsame
      exact h.fail hsame.1 (fun _ _ => hsame.2.1) hphase failure

theorem paced_driven (hbatch : 0 < s.batch) {arriving : Nat → List Control} {n : Nat}
    (h : ∀ m < n, (driven s w arriving m (.new s files)).phase ≠ .done) :
    Paced n (driven s w arriving n (.new s files)) := by
  induction n with
  | zero => exact .new s files
  | succ n ih =>
    have hbefore := ih fun m hm => h m (Nat.lt_succ_of_lt hm)
    refine (hbefore.controls (arriving n)).step hbatch ?_
    rw [(controls_keeps _ (arriving n)).1]
    exact h n (Nat.lt_succ_self n)

end Run

end SongLibrary.Reconcile
