/-
  What a run counts adds up.

  * `Tallied` says how the numbers of a run add up while some candidates are in
    hand: found, and neither settled nor in the queue;
  * every operation that settles a candidate takes one out of hand
    (`Balanced.skip`, `Balanced.enqueue`, `Balanced.perform`, ...);
  * `reachable_conserves`: between two steps no candidate is in hand, unless an
    operation on a table failed.
-/
import SongLibrary.Proofs.Reconcile.Outcomes

namespace SongLibrary.Reconcile

namespace Counter

/-- Whether a counter is a reason to skip a candidate. -/
def isReason : Counter → Bool
  | skipNonAudio | skipOriginalBackup | skipDeleted | skipLegacyDirectory | missing | badFileName
  | noTags => true
  | _ => false

/-- The numbers with one more for a counter. -/
def oneMore (counter : Counter) (n : Counter → Nat) : Counter → Nat :=
  fun k => if k = counter then n k + 1 else n k

end Counter

open Counter (isReason isDetail oneMore)

/-! ## How the numbers add up -/

/-- The counters `c` are the numbers `n`, as words, and those add up: of the
    candidates `found` some are settled, `waiting` are in the queue, from which
    `taken` have been taken, and `pending` are in hand. -/
structure Tallied (pending : Nat) (c : Counters) (found taken waiting : Nat) (n : Counter → Nat) :
    Prop where
  words : ∀ counter, counter ≠ .queueHighWater → c.get counter = .ofNat (n counter)
  candidates : n .found = found
  found : n .found = n .processed + n .skipped + waiting + pending
  skipped : n .skipped = n .skipNonAudio + n .skipOriginalBackup + n .skipDeleted +
    n .skipLegacyDirectory + n .missing + n .badFileName + n .noTags
  queued : n .queued = taken + waiting

/-- The numbers of a run add up while `pending` candidates are in hand. -/
def Balanced (pending : Nat) (r : Run) : Prop :=
  ∃ n, Tallied pending r.counters r.history.found.length r.history.taken.length r.queue.size n

@[simp] theorem Run.count_queue (r : Run) (counter : Counter) : (r.count counter).queue = r.queue :=
  rfl

@[simp] theorem Run.count_history (r : Run) (counter : Counter) :
    (r.count counter).history = r.history :=
  rfl

@[simp] theorem Run.skip_queue (r : Run) (reason : Counter) : (r.skip reason).queue = r.queue :=
  rfl

@[simp] theorem Run.skip_history (r : Run) (reason : Counter) :
    (r.skip reason).history = r.history :=
  rfl

theorem words_increment {c : Counters} {n : Counter → Nat}
    (h : ∀ counter, counter ≠ .queueHighWater → c.get counter = .ofNat (n counter))
    (counter : Counter) :
    ∀ k, k ≠ .queueHighWater → (c.increment counter).get k = .ofNat (oneMore counter n k) := by
  intro k hk
  by_cases hkc : k = counter
  · subst hkc
    simp [Counters.increment, oneMore, h k hk, UInt64.ofNat_add]
  · simp [Counters.increment, oneMore, hkc, h k hk]

namespace Balanced

variable {pending : Nat} {r : Run}

theorem new (s : Setup) (files : FileTree) : Balanced 0 (.new s files) :=
  ⟨fun _ => 0, fun counter _ => by simp [Run.new], rfl, rfl, rfl, rfl⟩

/-! ## Counting -/

/-- A candidate that is found is in hand. -/
theorem find (h : Balanced pending r) (c : Candidate) :
    Balanced (pending + 1) ({ r with history.found := c :: r.history.found }.count .found) := by
  obtain ⟨n, hn⟩ := h
  refine ⟨oneMore .found n, words_increment hn.words .found, ?_, ?_, ?_, ?_⟩
  · simp [oneMore, hn.candidates]
  · have := hn.found
    simp [oneMore]
    omega
  · simpa [oneMore] using hn.skipped
  · simpa [oneMore] using hn.queued

theorem detail {counter : Counter} (h : Balanced pending r) (hc : counter.isDetail) :
    Balanced pending (r.count counter) := by
  obtain ⟨n, hn⟩ := h
  have hsame : ∀ k, ¬ k.isDetail → oneMore counter n k = n k := by
    intro k hk
    have hne : k ≠ counter := by
      rintro rfl
      exact hk hc
    simp [oneMore, hne]
  refine ⟨oneMore counter n, words_increment hn.words counter, ?_, ?_, ?_, ?_⟩
  · simpa [hsame, isDetail] using hn.candidates
  · simpa [hsame, isDetail] using hn.found
  · simpa [hsame, isDetail] using hn.skipped
  · simpa [hsame, isDetail] using hn.queued

/-- A candidate that is processed is settled. -/
theorem process (h : Balanced (pending + 1) r) : Balanced pending (r.count .processed) := by
  obtain ⟨n, hn⟩ := h
  refine ⟨oneMore .processed n, words_increment hn.words .processed, ?_, ?_, ?_, ?_⟩
  · simpa [oneMore] using hn.candidates
  · have := hn.found
    simp [oneMore]
    omega
  · simpa [oneMore] using hn.skipped
  · simpa [oneMore] using hn.queued

/-- A candidate that is skipped is settled. -/
theorem skip {reason : Counter} (h : Balanced (pending + 1) r) (hr : reason.isReason) :
    Balanced pending (r.skip reason) := by
  obtain ⟨n, hn⟩ := h
  refine ⟨oneMore .skipped (oneMore reason n),
    words_increment (words_increment hn.words reason) .skipped, ?_, ?_, ?_, ?_⟩
  · have := hn.candidates
    cases reason <;> simp_all [oneMore, isReason]
  · have := hn.found
    cases reason <;> simp [oneMore, isReason] at hr ⊢ <;> omega
  · have := hn.skipped
    cases reason <;> simp [oneMore, isReason] at hr ⊢ <;> omega
  · have := hn.queued
    cases reason <;> simp_all [oneMore, isReason]

/-- The high-water mark does not count. -/
theorem raise (h : Balanced pending r) (k : UInt64) :
    Balanced pending { r with counters := r.counters.raise .queueHighWater k } := by
  obtain ⟨n, hn⟩ := h
  refine ⟨n, ?_, hn.candidates, hn.found, hn.skipped, hn.queued⟩
  intro counter hc
  simpa [Counters.raise, hc] using hn.words counter hc

/-! ## The queue -/

/-- A candidate that is put into the queue is in hand no more. -/
theorem queued {q : Queue Job} (h : Balanced (pending + 1) r) (hq : q.size = r.queue.size + 1) :
    Balanced pending ({ r with queue := q }.count .queued) := by
  obtain ⟨n, hn⟩ := h
  refine ⟨oneMore .queued n, words_increment hn.words .queued, ?_, ?_, ?_, ?_⟩
  · simpa [oneMore] using hn.candidates
  · have := hn.found
    simp [oneMore]
    omega
  · simpa [oneMore] using hn.skipped
  · have := hn.queued
    simp [oneMore]
    omega

/-- A candidate that is taken out of the queue is in hand. -/
theorem take {q : Queue Job} (h : Balanced pending r) (job : Job)
    (hq : r.queue.size = q.size + 1) :
    Balanced (pending + 1)
      { r with queue := q, history.taken := job :: r.history.taken } := by
  obtain ⟨n, hn⟩ := h
  refine ⟨n, hn.words, hn.candidates, ?_, hn.skipped, ?_⟩
  · have := hn.found
    simp only
    omega
  · have := hn.queued
    simp only [List.length_cons]
    omega

/-! ## Looking at candidates -/

theorem copyRecord (w : Services) (h : Balanced (pending + 1) r) (song : Song) :
    Balanced pending (r.copyRecord w song) := by
  obtain ⟨r₁, hcopied, heq⟩ := r.copyRecord_cases w song
  rw [heq]
  refine process ?_
  cases hcopied with
  | repeated _ => exact h
  | added _ _ => exact h
  | failed => exact detail (r := { r.asked with lastCopied := some song.uri }) h rfl

/-- An open queue takes the job of a candidate that is kept. -/
theorem enqueue (s : Setup) (h : Balanced (pending + 1) r) (hopen : r.queue.closed = false)
    (c : Candidate) (existing : Option Song) : Balanced pending (r.enqueue s c existing) := by
  unfold Run.enqueue
  split
  · exact h.skip rfl
  · split
    · next hpush => simp [Queue.push, hopen] at hpush
    · next q hpush => exact (h.queued (Queue.size_of_push hpush)).raise _

theorem settle (s : Setup) (w : Services) (h : Balanced (pending + 1) r)
    (hopen : r.queue.closed = false) (c : Candidate) (existing : Option Song) :
    Balanced pending (r.settle s w c existing) := by
  have hcounted : Balanced (pending + 1) (r.count .alreadyInTable) := h.detail rfl
  unfold Run.settle
  split
  · exact h.enqueue s hopen c none
  · exact hcounted.process
  · next song _ _ => exact hcounted.copyRecord w song
  · next song _ _ => exact hcounted.enqueue s hopen c (some song)

/-- **A candidate that is looked at is settled or in the queue**, unless looking
    for its record fails. -/
theorem classify {s : Setup} {w : Services} {r' : Run} (h : Balanced pending r)
    (hopen : r.queue.closed = false) {c : Candidate}
    (hc : r.classify s w c = (r', .ok ())) : Balanced pending r' := by
  unfold Run.classify at hc
  have hfound := h.find c
  have hopen' : ({ r with history.found := c :: r.history.found }.count .found).queue.closed = false :=
    hopen
  generalize { r with history.found := c :: r.history.found }.count .found = r₁ at hc hfound hopen'
  simp only at hc
  split at hc
  · next reason _ =>
    cases hc
    exact hfound.skip (by cases reason <;> rfl)
  · split at hc
    · cases hc
      exact hfound.skip rfl
    · obtain ⟨moment, hkeeps⟩ := r₁.existingRecord_keeps s w c
      split at hc
      · cases hc
      · next r₂ existing hexisting =>
        cases hc
        rw [hexisting] at hkeeps
        subst hkeeps
        exact settle s w (r := { r₁ with moment }) hfound hopen' c existing

theorem pull {s : Setup} {w : Services} {n : Nat} {r' : Run} (h : Balanced pending r)
    (hp : Run.pull s w n r = (r', .ok ())) : Balanced pending r' := by
  induction n generalizing r with
  | zero =>
    cases hp
    exact h
  | succ n ih =>
    unfold Run.pull at hp
    split at hp
    · cases hp
      exact h
    · next hroom =>
      have hopen : r.queue.closed = false := by
        simp only [Queue.hasRoom] at hroom
        grind
      obtain ⟨source, moment, hkeeps⟩ := r.nextCandidate_keeps s w
      split at hp
      · cases hp
      · next r₁ hnext =>
        cases hp
        rw [hnext] at hkeeps
        subst hkeeps
        exact h
      · next r₁ c hnext =>
        rw [hnext] at hkeeps
        subst hkeeps
        split at hp
        · cases hp
        · next r₂ hclassify =>
          exact ih (classify (r := { r with source, moment }) h hopen hclassify) hp

/-! ## Doing jobs -/

theorem deed {s : Setup} {w : Services} {job : Job} {r' : Run} (h : Balanced pending r)
    (hd : Run.Deed s w job r r') : Balanced pending r' := by
  cases hd with
  | ask _ => exact h
  | note hc => exact h.detail hc
  | store song hstored => cases hstored <;> exact h
  | move hrenamed _ => cases hrenamed <;> exact h
  | write _ _ _ => exact h

theorem deeds {s : Setup} {w : Services} {job : Job} {r' : Run} (h : Balanced pending r)
    (hd : Run.Deeds s w job r r') : Balanced pending r' := by
  induction hd with
  | refl => exact h
  | tail _ hd ih => exact ih.deed hd

theorem perform (s : Setup) (w : Services) (h : Balanced (pending + 1) r) (job : Job) :
    Balanced pending (r.perform s w job) := by
  obtain ⟨r₁, hdeeds, hsettled⟩ := Run.perform_deeds s w r job
  generalize r.perform s w job = r₂ at hsettled
  cases hsettled with
  | processed => exact (h.deeds hdeeds).process
  | noTags => exact (h.deeds hdeeds).skip rfl

/-- **A job that is done settles its candidate**, whatever goes wrong. -/
theorem performNext (s : Setup) (w : Services) (h : Balanced pending r) :
    Balanced pending (r.performNext s w) := by
  unfold Run.performNext
  split
  · exact h
  · next job queue hpop => exact (h.take job (Queue.size_of_pop? hpop)).perform s w job

theorem reportProgress (h : Balanced pending r) : Balanced pending r.reportProgress := by
  obtain ⟨reported, sent, hkeeps⟩ := r.reportProgress_keeps
  rw [hkeeps]
  exact h

end Balanced

/-! ## Opening and closing tables -/

/-- The second state has the accounts of the first. -/
structure SameAccounts (r r' : Run) : Prop where
  queue : r'.queue = r.queue
  history : r'.history = r.history
  words : ∀ counter, counter ≠ .queueHighWater → r'.counters.get counter = r.counters.get counter

namespace SameAccounts

variable {s : Setup} {w : Services} {r r' : Run}

theorem balanced {pending : Nat} (hsame : SameAccounts r r') (h : Balanced pending r) :
    Balanced pending r' := by
  obtain ⟨n, hn⟩ := h
  refine ⟨n, fun counter hc => (hsame.words counter hc).trans (hn.words counter hc), ?_, ?_,
    hn.skipped, ?_⟩
  · rw [hsame.history]
    exact hn.candidates
  · rw [hsame.queue]
    exact hn.found
  · rw [hsame.history, hsame.queue]
    exact hn.queued

theorem refl (r : Run) : SameAccounts r r :=
  ⟨rfl, rfl, fun _ _ => rfl⟩

theorem trans {r₁ r₂ r₃ : Run} (h : SameAccounts r₁ r₂) (h' : SameAccounts r₂ r₃) :
    SameAccounts r₁ r₃ :=
  ⟨h'.queue.trans h.queue, h'.history.trans h.history,
    fun counter hc => (h'.words counter hc).trans (h.words counter hc)⟩

theorem of_filesOnly (h : Run.FilesOnly r r') : SameAccounts r r' := by
  obtain ⟨files, moment, rfl⟩ := h
  exact ⟨rfl, rfl, fun _ _ => rfl⟩

theorem openTarget : SameAccounts r (r.openTarget s w).1 := by
  obtain ⟨_, _, _, hkeeps⟩ := Run.openTarget_keeps (s := s) (w := w) (r := r)
  rw [hkeeps]
  exact ⟨rfl, rfl, fun _ _ => rfl⟩

theorem openPrimary : SameAccounts r (r.openPrimary s w).1 := by
  have hopened := of_filesOnly (Run.openTable_filesOnly (r := r) (w := w) s.databasePath)
  unfold Run.openPrimary
  split
  · next h =>
    rw [h] at hopened
    exact hopened
  · next h =>
    rw [h] at hopened
    exact ⟨hopened.queue, hopened.history, hopened.words⟩

theorem start : SameAccounts r (r.start s w).1 := by
  unfold Run.start
  split
  · exact Run.of_andThen openTarget fun r₁ h₁ => h₁.trans openPrimary
  · exact openPrimary

theorem chooseNextId : SameAccounts r (r.chooseNextId s w).1 := by
  unfold Run.chooseNextId
  split
  · split
    · exact ⟨rfl, rfl, fun _ _ => rfl⟩
    · split <;> exact ⟨rfl, rfl, fun _ _ => rfl⟩
  · exact refl r

theorem openSource : SameAccounts r (r.openSource s w).1 := by
  unfold Run.openSource
  split
  · exact refl r
  · split
    · exact ⟨rfl, rfl, fun _ _ => rfl⟩
    · split
      · exact ⟨rfl, rfl, fun _ _ => rfl⟩
      · split <;> exact ⟨rfl, rfl, fun _ _ => rfl⟩

theorem prepare : SameAccounts r (r.prepare s w).1 := by
  refine Run.of_andThen (P := SameAccounts r) chooseNextId ?_
  intro r₁ h₁
  refine Run.of_andThen (P := SameAccounts r) (h₁.trans openSource) ?_
  intro r₂ h₂
  exact ⟨h₂.queue, h₂.history, h₂.words⟩

theorem closeTarget : SameAccounts r (r.closeTarget w).1 := by
  obtain ⟨target, files, moment, hkeeps⟩ := Run.closeTarget_keeps (w := w) (r := r)
  rw [hkeeps]
  exact ⟨rfl, rfl, fun _ _ => rfl⟩

theorem closePrimary : SameAccounts r (r.closePrimary w).1 := by
  obtain ⟨primary, files, moment, hkeeps⟩ := Run.closePrimary_keeps (w := w) (r := r)
  rw [hkeeps]
  exact ⟨rfl, rfl, fun _ _ => rfl⟩

theorem report (discarded : Bool) : SameAccounts r (r.report discarded) := by
  obtain ⟨sent, hkeeps⟩ := r.report_keeps discarded
  rw [hkeeps]
  refine ⟨rfl, rfl, ?_⟩
  intro counter hc
  simp [Counters.raise, hc]

theorem finish : SameAccounts r (r.finish s w).1 := by
  have hforget : SameAccounts r { r with source := none } := ⟨rfl, rfl, fun _ _ => rfl⟩
  refine Run.of_andThen (P := SameAccounts r) (hforget.trans closeTarget) ?_
  intro r₁ h₁
  refine Run.of_andThen (P := SameAccounts r) (h₁.trans closePrimary) ?_
  intro r₂ h₂
  split
  · refine Run.of_andThen (P := SameAccounts r) ?_ fun r₃ h₃ => h₃.trans (report false)
    exact h₂.trans (of_filesOnly Run.replaceTable_filesOnly)
  · exact h₂.trans (report _)

end SameAccounts

/-! ## Steps -/

/-- Whether there is no job in the queue in a phase. -/
def Phase.isIdle : Phase → Bool
  | start | prepare | finish | done => true
  | gather | drain => false

/-- What holds of a run between two steps, unless an operation on a table failed. -/
structure Conserved (r : Run) : Prop where
  balanced : Balanced 0 r
  idle : r.phase.isIdle → r.queue.size = 0

namespace Conserved

variable {s : Setup} {w : Services} {r r' : Run}

theorem new (s : Setup) (files : FileTree) : Conserved (.new s files) :=
  ⟨.new s files, fun _ => rfl⟩

theorem control (h : Conserved r) (message : Control) : Conserved (r.control message) := by
  rcases r.control_cases message with heq | heq <;> rw [heq]
  · exact h
  · exact ⟨h.balanced, h.idle⟩

/-- Where the queue is empty, what keeps the accounts keeps it empty. -/
theorem of_sameAccounts (h : Conserved r) (hidle : r.phase.isIdle) (hsame : SameAccounts r r') :
    Conserved r' := by
  refine ⟨hsame.balanced h.balanced, ?_⟩
  intro _
  rw [hsame.queue]
  exact h.idle hidle

theorem gather (h : Conserved r) (hphase : r.phase = .gather)
    (hg : r.gather s w = (r', .ok ())) : Conserved r' := by
  unfold Run.gather at hg
  split at hg
  · cases hg
  · next r₁ hpull =>
    cases hg
    have hlooked := (Run.pull_looks (s := s) (w := w) (r := r) s.batch).sameCourse
    rw [hpull] at hlooked
    have h₁ : Balanced 0 r₁ := h.balanced.pull hpull
    have h₂ : Balanced 0 (if r₁.source.isNone then { r₁ with phase := .drain } else r₁) ∧
        ¬ (if r₁.source.isNone then { r₁ with phase := .drain } else r₁).phase.isIdle := by
      split
      · exact ⟨h₁, Bool.false_ne_true⟩
      · refine ⟨h₁, ?_⟩
        rw [hlooked.phase, hphase]
        decide
    generalize (if r₁.source.isNone then { r₁ with phase := .drain } else r₁) = r₂ at h₂ ⊢
    refine ⟨(h₂.1.performNext s w).reportProgress, ?_⟩
    intro hidle
    obtain ⟨reported, sent, hkeeps⟩ := (r₂.performNext s w).reportProgress_keeps
    rw [hkeeps] at hidle
    have hdone := Run.performNext_sameCourse (s := s) (w := w) (r := r₂)
    rw [show ({ r₂.performNext s w with reported, sent } : Run).phase = r₂.phase from
      hdone.phase] at hidle
    exact absurd hidle h₂.2

theorem drain (h : Conserved r) (hphase : r.phase = .drain) : Conserved (r.drain s w) := by
  unfold Run.drain
  split
  · next hempty => exact ⟨h.balanced, fun _ => by simpa [Queue.isEmpty] using hempty⟩
  · refine ⟨(h.balanced.performNext s w).reportProgress, ?_⟩
    intro hidle
    obtain ⟨reported, sent, hkeeps⟩ := (r.performNext s w).reportProgress_keeps
    have hdone := Run.performNext_sameCourse (s := s) (w := w) (r := r)
    rw [hkeeps, show ({ r.performNext s w with reported, sent } : Run).phase = r.phase from
      hdone.phase, hphase] at hidle
    exact absurd hidle (by decide)

theorem act (h : Conserved r) (ha : r.act s w = (r', .ok ())) : Conserved r' := by
  cases Run.act_cases ha with
  | start hphase ha _ =>
    have hsame := SameAccounts.start (s := s) (w := w) (r := r)
    rw [ha] at hsame
    exact h.of_sameAccounts (by rw [hphase]; rfl) hsame
  | prepare hphase ha _ =>
    have hsame := SameAccounts.prepare (s := s) (w := w) (r := r)
    rw [ha] at hsame
    exact h.of_sameAccounts (by rw [hphase]; rfl) hsame
  | gather hphase ha _ => exact h.gather hphase ha
  | drain hphase _ => exact h.drain hphase
  | finish hphase ha _ =>
    have hsame := SameAccounts.finish (s := s) (w := w) (r := r)
    rw [ha] at hsame
    exact h.of_sameAccounts (by rw [hphase]; rfl) hsame
  | done _ => exact h

/-- A failure leaves the accounts in order, if it is not that of a table. -/
theorem act_error {failure : Failure} (h : Conserved r) (ha : r.act s w = (r', .error failure))
    (hf : ¬ failure.isOfTable) : Conserved (r'.fail failure) := by
  have hfail : SameAccounts r' (r'.fail failure) := ⟨rfl, rfl, fun _ _ => rfl⟩
  cases Run.act_error_cases ha with
  | start hphase ha =>
    have hsame := SameAccounts.start (s := s) (w := w) (r := r)
    rw [ha] at hsame
    exact h.of_sameAccounts (by rw [hphase]; rfl) (hsame.trans hfail)
  | prepare hphase ha =>
    have hsame := SameAccounts.prepare (s := s) (w := w) (r := r)
    rw [ha] at hsame
    exact h.of_sameAccounts (by rw [hphase]; rfl) (hsame.trans hfail)
  | gather _ ha =>
    unfold Run.gather at ha
    split at ha
    · next hpull =>
      cases ha
      rw [Run.pull_error s w hpull] at hf
      exact absurd rfl hf
    · cases ha
  | finish hphase ha =>
    have hsame := SameAccounts.finish (s := s) (w := w) (r := r)
    rw [ha] at hsame
    exact h.of_sameAccounts (by rw [hphase]; rfl) (hsame.trans hfail)

/-- The invariant of a run, by induction on how its state is reached. -/
theorem of_reachable {files : FileTree} {o : Option Failure} (h : Reachable s w files o r)
    (ho : ∀ failure ∈ o, ¬ failure.isOfTable) : Conserved r := by
  induction h with
  | new => exact .new s files
  | control message _ ih => exact (ih ho).control message
  | step _ hs ih => exact (ih ho).act (Run.act_of_step_ok hs).1
  | fail h hs ih =>
    obtain rfl := Run.no_failure_before h hs
    obtain ⟨r₁, hact, rfl⟩ := Run.act_of_step_error hs
    exact (ih (by simp)).act_error hact (ho _ rfl)

end Conserved

/-- **Candidates are conserved.**  In every state of a run in which no operation
    on a table has made it fail, the counters are numbers that add up: what was
    found is processed, skipped or in the queue, what was skipped was skipped for
    one reason, and what was put into the queue has been taken or is there still.
    At the end the queue is empty, so each candidate has been settled once. -/
theorem reachable_conserves {s : Setup} {w : Services} {files : FileTree} {o : Option Failure}
    {r : Run} (h : Reachable s w files o r) (ho : ∀ failure ∈ o, ¬ failure.isOfTable) :
    ∃ n : Counter → Nat,
      (∀ counter, counter ≠ .queueHighWater → r.counters.get counter = .ofNat (n counter)) ∧
      n .found = r.history.found.length ∧
      n .found = n .processed + n .skipped + r.queue.toList.length ∧
      n .skipped = n .skipNonAudio + n .skipOriginalBackup + n .skipDeleted +
        n .skipLegacyDirectory + n .missing + n .badFileName + n .noTags ∧
      n .queued = r.history.taken.length + r.queue.toList.length ∧
      (r.phase = .done → n .found = n .processed + n .skipped) := by
  have hc := Conserved.of_reachable h ho
  obtain ⟨n, hn⟩ := hc.balanced
  have hfound := hn.found
  have hqueued := hn.queued
  rw [Queue.size_eq_length] at hfound hqueued
  refine ⟨n, hn.words, hn.candidates, hfound, hn.skipped, hqueued, ?_⟩
  intro hdone
  have hempty : r.queue.toList.length = 0 := by
    rw [← Queue.size_eq_length]
    exact hc.idle (by rw [hdone]; rfl)
  omega

/-- A run that reads a library of one song has taken the song's job. -/
theorem reachable_conserves_sample :
    ∃ (r : Run) (n : Counter → Nat),
      Reachable (sampleSetup .rebuild) sampleServices sampleFiles none r ∧
      r.phase = .done ∧ r.history.taken.length = 1 ∧ n .queued = 1 ∧
      n .found = n .processed + n .skipped := by
  have hr : Reachable (sampleSetup .rebuild) sampleServices sampleFiles none
      (Run.steps (sampleSetup .rebuild) sampleServices 5 (.new (sampleSetup .rebuild) sampleFiles)) :=
    Run.reachable_steps .new (by decide +kernel)
  obtain ⟨n, -, -, -, -, hqueued, hdone⟩ := reachable_conserves hr (by simp)
  refine ⟨_, n, hr, by decide +kernel, by decide +kernel, ?_, hdone (by decide +kernel)⟩
  rw [hqueued]
  decide +kernel

end SongLibrary.Reconcile
