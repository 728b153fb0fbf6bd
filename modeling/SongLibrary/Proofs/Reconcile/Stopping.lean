/-
  A run that is stopped is a whole run over the candidates that it has taken.

  * `Run.Winding` holds of a run to which no candidate is to come: it does the jobs in its
    queue and ends (`Winding.step`, `Winding.finish`), and what it comes to is settled;
  * so a run that has been stopped and one whose candidates end come to the same
    (`Winding.completes`), wherever the run is stopped (`Progressing.completes`);
  * `stop_completes_prefix` is the main statement.
-/
import SongLibrary.Proofs.Reconcile.Distinct
import SongLibrary.Proofs.Reconcile.Feeding

namespace SongLibrary.Reconcile

namespace Run

variable {s : Setup} {w : Services} {files : FileTree} {r r' r₁ r₂ : Run}

/-! ## Doing the jobs in the queue -/

variable (s w) in
/-- What a run comes to that does the jobs in its queue. -/
def outcome (r : Run) : Run :=
  r.performAll s w r.queue.toList

theorem Alike.outcome {δ : String → String} {gap : Int} (hw : w.Steady) (h : Alike δ gap False r r')
    (hqueue : r'.queue.toList = r.queue.toList)
    (hclock : ∀ job ∈ r.queue.toList, s.mode = .rebuild ∨ job.existing = none → w.Blurs δ gap) :
    Alike δ gap False (r.outcome s w) (r'.outcome s w) := by
  unfold Run.outcome
  rw [hqueue]
  exact Ahead.performAll hw h _ hclock

theorem blurs_zero (w : Services) (δ : String → String) : w.Blurs δ 0 := by
  intro n m hnm
  obtain rfl : m = n := by omega
  rfl

/-- Doing a job in the queue does not change what the queue comes to. -/
theorem outcome_performNext (hw : w.Steady) (δ : String → String) (r : Run) :
    Alike δ 0 False (r.outcome s w) ((r.performNext s w).outcome s w) := by
  cases hpop : r.queue.pop? with
  | none =>
    simp only [performNext, hpop]
    exact .refl δ _ _
  | some taken =>
    obtain ⟨job, queue⟩ := taken
    have hstart : Alike δ 0 False r { r with queue, history.taken := job :: r.history.taken } :=
      .same rfl rfl rfl rfl rfl (by simp)
    have hdone := hstart.perform (s := s) hw job fun _ => blurs_zero w δ
    simp only [performNext, hpop]
    unfold outcome
    rw [(perform_kept s w _ _).queue, Queue.toList_of_pop? hpop]
    exact hdone.performAll hw _ fun _ _ _ => blurs_zero w δ

/-! ## When no candidate is to come -/

variable (s w) in
/-- No candidate is to come: the queue is closed, or so many have been taken as there
    are. -/
inductive Dry (next : Feed) (r : Run) : Prop where
  | halted (hclosed : r.queue.closed = true) (hsource : r.source = none)
  | cut (hnext : next = upTo s w r.history.found.length) (hopen : r.queue.closed = false)
      (hlimit : 0 < r.queue.limit)

/-- A run has the jobs that it had earlier in its queue, or has done them. -/
structure Owes (r b : Run) : Prop where
  found : b.history.found = r.history.found
  counts : ∀ counter ∈ [Counter.found, .queued], b.counters.get counter = r.counters.get counter
  jobs : b.history.taken.reverse ++ b.queue.toList = r.history.taken.reverse ++ r.queue.toList

variable (s w) in
/-- A run to which no candidate is to come, which does the jobs that it had in its queue. -/
structure Winding (next : Feed) (r b : Run) : Prop extends Owes r b where
  dry : Dry s w next b
  phase : b.phase ∈ [.gather, .drain, .finish]
  done : b.phase = .finish → b.queue.toList = []
  records : ∀ visit, b.source = some (.table visit) → ∀ job ∈ b.queue.toList, job.existing ≠ none
  outcome : ∃ gap, Alike (fun date => date) gap False (r.outcome s w) (b.outcome s w)
  primary : b.primary.isSome ∧ b.primary.map OpenTable.location = r.primary.map OpenTable.location
  target : b.target = none ∧ r.target = none
  highWater : b.queue.highWater = r.queue.highWater
  highest : b.counters.get .queueHighWater = r.counters.get .queueHighWater

/-- How much a run has to do before it closes its tables. -/
def toDo (r : Run) : Nat :=
  r.queue.toList.length + match r.phase with
    | .gather => 2
    | .drain => 1
    | _ => 0

/-- The files once the table of the library is closed. -/
def closedFiles (r : Run) : FileTree :=
  match r.primary with
  | none => r.files
  | some primary => r.savedFiles primary

variable (s w) in
/-- A run that has done the jobs that it had, and has closed its tables. -/
structure Ended (r b : Run) : Prop extends Owes r b where
  phase : b.phase = .done
  queue : b.queue.toList = []
  files : b.files = (r.outcome s w).closedFiles
  counters : b.counters =
    (r.outcome s w).counters.raise .queueHighWater (.ofNat r.queue.highWater)

/-- Where no operation fails, there is a next candidate or none. -/
theorem nextCandidate_ok (hw : w.Sound) (hprimary : r.primary.isSome) :
    ∃ source moment c, r.nextCandidate s w = ({ r with source, moment }, .ok c) ∧
      (moment = r.moment ∨ ∃ visit, r.source = some (.table visit)) := by
  unfold nextCandidate
  split
  · exact ⟨r.source, r.moment, none, rfl, .inl rfl⟩
  · exact ⟨r.source, r.moment, none, rfl, .inl rfl⟩
  · next path paths _ => exact ⟨some (.files paths), r.moment, _, rfl, .inl rfl⟩
  · next visit hsource =>
    rw [hw.tableFails, Bool.and_false, if_neg Bool.false_ne_true]
    split
    · next hnone => simp [hnone] at hprimary
    · dsimp only
      by_cases hpage : visit.needsPage <;> simp only [hpage, if_true, Bool.false_eq_true, if_false]
      · split
        · next visit' _ => exact ⟨some (.table visit'), r.moment + 1, none, rfl, .inr ⟨visit, hsource⟩⟩
        · next visit' _ => exact ⟨some (.table visit'), r.moment + 1, _, rfl, .inr ⟨visit, hsource⟩⟩
      · split
        · next visit' _ => exact ⟨some (.table visit'), r.moment, none, rfl, .inl rfl⟩
        · next visit' _ => exact ⟨some (.table visit'), r.moment, _, rfl, .inl rfl⟩

/-- Where no candidate is to come, none is taken: the source is found empty, unless there
    are jobs to be done before that. -/
theorem Dry.pullFrom {next : Feed} {b : Run} (hw : w.Sound) (h : Dry s w next b)
    (hprimary : b.primary.isSome) {n : Nat} (hn : 0 < n) :
    ∃ source moment, Run.pullFrom s w next n b = ({ b with source, moment }, .ok ()) ∧
      (source = none ∨ source = b.source ∧ b.queue.toList ≠ []) ∧
      (moment = b.moment ∨ ∃ visit, b.source = some (.table visit)) := by
  obtain ⟨n, rfl⟩ := Nat.exists_eq_succ_of_ne_zero (Nat.pos_iff_ne_zero.1 hn)
  unfold Run.pullFrom
  cases h with
  | halted hclosed hsource =>
    have hroom : b.queue.hasRoom = false := by simp [Queue.hasRoom, hclosed]
    rw [hroom]
    exact ⟨none, b.moment, by rw [← hsource]; rfl, .inl rfl, .inl rfl⟩
  | cut hnext hopen hlimit =>
    by_cases hroom : b.queue.hasRoom
    · obtain ⟨source, moment, c, heq, hmoment⟩ := nextCandidate_ok (s := s) hw hprimary
      rw [hroom, hnext]
      simp only [upTo, heq]
      cases c with
      | none => exact ⟨none, moment, rfl, .inl rfl, hmoment⟩
      | some c =>
        simp only [Nat.lt_irrefl, if_false]
        exact ⟨none, b.moment, rfl, .inl rfl, .inl rfl⟩
    · rw [Bool.not_eq_true] at hroom
      rw [hroom]
      refine ⟨b.source, b.moment, rfl, .inr ⟨rfl, fun hempty => ?_⟩, .inl rfl⟩
      have hsize : b.queue.size = 0 := by rw [Queue.size_eq_length, hempty]; rfl
      simp [Queue.hasRoom, hopen, hsize, hlimit] at hroom

namespace Winding

variable {next : Feed} {b b' : Run}

/-- The source may be found empty. -/
theorem shift (hw : w.Steady) (hd : s.mode.isDestructive = false) (h : Winding s w next r b)
    (source : Option Source) (moment : Nat) (phase : Phase)
    (hsource : source = none ∨ source = b.source)
    (hmoment : moment = b.moment ∨ ∃ visit, b.source = some (.table visit))
    (hphase : phase ∈ [.gather, .drain, .finish]) (hdone : phase = .finish → b.queue.toList = []) :
    Winding s w next r { b with source, moment, phase } := by
  refine ⟨⟨h.found, h.counts, h.jobs⟩, ?_, hphase, hdone, ?_, ?_, h.primary, h.target, h.highWater,
    h.highest⟩
  · cases h.dry with
    | halted hclosed hnone => exact .halted hclosed (hsource.elim id fun hsame => hsame.trans hnone)
    | cut hnext hopen hlimit => exact .cut hnext hopen hlimit
  · intro visit hvisit
    rcases hsource with hnone | hsame
    · cases hnone.symm.trans hvisit
    · exact h.records visit (hsame.symm.trans hvisit)
  · obtain ⟨gap, halike⟩ := h.outcome
    have hstart : Alike (fun date => date) ((moment : Int) - b.moment) False b
        { b with source, moment, phase } :=
      .same rfl rfl rfl rfl rfl (by dsimp only; omega)
    refine ⟨_, halike.trans (hstart.outcome hw rfl fun job hjob hnew => ?_)⟩
    rcases hmoment with hsame | ⟨visit, hvisit⟩
    · rw [hsame, Int.sub_self]
      exact blurs_zero w _
    · -- The table has given records.
      rcases hnew with hmode | hnone
      · rw [hmode] at hd
        cases hd
      · exact absurd hnone (h.records visit hvisit job hjob)

/-- A job is done. -/
theorem performNext (hw : w.Steady) (h : Winding s w next r b) (hphase : b.phase ≠ .finish) :
    Winding s w next r (b.performNext s w) ∧
      (b.performNext s w).queue.toList.length = b.queue.toList.length - 1 := by
  have hcomes := b.outcome_performNext (s := s) hw fun date => date
  cases hpop : b.queue.pop? with
  | none =>
    simp only [Run.performNext, hpop]
    exact ⟨h, by rw [Queue.pop?_eq_none_iff.1 hpop]; rfl⟩
  | some taken =>
    obtain ⟨job, queue⟩ := taken
    obtain ⟨hlimit, hclosed, hhigh⟩ := Queue.pop?_keeps hpop
    have hlist := Queue.toList_of_pop? hpop
    simp only [Run.performNext, hpop] at hcomes ⊢
    have hkept := perform_kept s w { b with queue, history.taken := job :: b.history.taken } job
    generalize perform s w _ job = b' at hcomes hkept
    have hqueue : b'.queue = queue := hkept.queue
    have hsame : b'.phase = b.phase := hkept.phase
    refine ⟨⟨⟨hkept.found.trans h.found, ?_, ?_⟩, ?_, hsame ▸ h.phase, ?_, ?_, ?_, ?_, ?_, ?_, ?_⟩, ?_⟩
    · intro counter hc
      refine (hkept.counts counter ?_).trans (h.counts counter hc)
      simp only [List.mem_cons, List.not_mem_nil, or_false] at hc ⊢
      exact hc.imp_right .inl
    · rw [hkept.taken, hqueue, ← h.jobs, hlist]
      simp
    · cases h.dry with
      | halted hclosed' hsource =>
        exact .halted (by rw [hqueue, hclosed, hclosed']) (hkept.source.trans hsource)
      | cut hnext hopen hlimit' =>
        exact .cut (by rw [hkept.found]; exact hnext) (by rw [hqueue, hclosed, hopen])
          (by rw [hqueue, hlimit]; exact hlimit')
    · exact fun hfinish => absurd (hsame.symm.trans hfinish) hphase
    · intro visit hvisit job' hjob'
      refine h.records visit (hkept.source.symm.trans hvisit) job' ?_
      rw [hlist]
      exact List.mem_cons_of_mem _ (hqueue ▸ hjob')
    · obtain ⟨gap, halike⟩ := h.outcome
      exact ⟨_, halike.trans hcomes⟩
    · refine ⟨?_, hkept.primary.trans h.primary.2⟩
      simpa using (congrArg Option.isSome hkept.primary).trans (by simpa using h.primary.1)
    · exact ⟨by simpa [h.target.1] using hkept.target, h.target.2⟩
    · rw [hqueue, hhigh, h.highWater]
    · exact (hkept.counts _ (by simp)).trans h.highest
    · rw [hqueue, hlist]
      simp

/-- How far a run has come may be noted. -/
theorem note (hw : w.Steady) (h : Winding s w next r b) (reported : Float) (sent : List Message) :
    Winding s w next r { b with reported, sent } := by
  refine ⟨⟨h.found, h.counts, h.jobs⟩, ?_, h.phase, h.done, h.records, ?_, h.primary, h.target,
    h.highWater, h.highest⟩
  · cases h.dry with
    | halted hclosed hnone => exact .halted hclosed hnone
    | cut hnext hopen hlimit => exact .cut hnext hopen hlimit
  · obtain ⟨gap, halike⟩ := h.outcome
    have hstart : Alike (fun date => date) 0 False b { b with reported, sent } :=
      .same rfl rfl rfl rfl rfl (by simp)
    exact ⟨_, halike.trans (hstart.outcome hw rfl fun _ _ _ => blurs_zero w _)⟩

/-- A job is done, and noted. -/
theorem work (hw : w.Steady) (h : Winding s w next r b) (hphase : b.phase ≠ .finish) :
    Winding s w next r (b.performNext s w).reportProgress ∧
      (b.performNext s w).reportProgress.phase = b.phase ∧
      (b.performNext s w).reportProgress.stopped = b.stopped ∧
      (b.performNext s w).reportProgress.queue.toList.length = b.queue.toList.length - 1 := by
  obtain ⟨hdone, hless⟩ := h.performNext hw hphase
  have hcourse := performNext_sameCourse (s := s) (w := w) (r := b)
  obtain ⟨reported, sent, hkeeps⟩ := (b.performNext s w).reportProgress_keeps
  rw [hkeeps]
  exact ⟨hdone.note hw reported sent, hcourse.phase, hcourse.stopped, hless⟩

theorem gatherFrom (hw : w.Steady) (hd : s.mode.isDestructive = false) (hbatch : 0 < s.batch)
    (h : Winding s w next r b) (hphase : b.phase = .gather) :
    ∃ b', b.gatherFrom s w next = (b', .ok ()) ∧ Winding s w next r b' ∧ b'.phase ≠ .done ∧
      b'.stopped = b.stopped ∧ b'.toDo < b.toDo := by
  obtain ⟨source, moment, hpull, hsource, hmoment⟩ := h.dry.pullFrom hw.toSound h.primary.1 hbatch
  have hnext : ∃ phase ∈ [Phase.gather, .drain],
      (if source.isNone then { b with source, moment, phase := .drain }
        else { b with source, moment }) = { b with source, moment, phase } ∧
      (phase = .gather → b.queue.toList ≠ []) := by
    split
    · exact ⟨.drain, by simp, rfl, fun heq => by cases heq⟩
    · next hsome =>
      refine ⟨.gather, by simp, by rw [← hphase], fun _ => ?_⟩
      rcases hsource with hnone | ⟨-, hjobs⟩
      · simp [hnone] at hsome
      · exact hjobs
  obtain ⟨phase, hmem, heq, hjobs⟩ := hnext
  have hne : phase ≠ .finish := by
    rintro rfl
    simp at hmem
  have hshift := h.shift hw hd source moment phase (hsource.imp_right And.left) hmoment
    (List.dropLast_subset [Phase.gather, .drain, .finish] hmem) (absurd · hne)
  obtain ⟨hdone, hsame, hstopped, hless⟩ := hshift.work hw hne
  refine ⟨_, ?_, hdone, ?_, hstopped, ?_⟩
  · unfold Run.gatherFrom
    rw [hpull]
    dsimp only
    rw [heq]
  · rw [hsame]
    rintro (rfl : phase = .done)
    simp at hmem
  · have hless : (({ b with source, moment, phase } : Run).performNext s w).reportProgress.queue.toList.length =
        b.queue.toList.length - 1 := hless
    have hsame : (({ b with source, moment, phase } : Run).performNext s w).reportProgress.phase = phase :=
      hsame
    unfold toDo
    rw [hless, hsame, hphase]
    simp only [List.mem_cons, List.not_mem_nil, or_false] at hmem
    rcases hmem with rfl | rfl
    · have hpos := List.length_pos_iff.2 (hjobs rfl)
      dsimp only
      omega
    · dsimp only
      omega

theorem drain (hw : w.Steady) (hd : s.mode.isDestructive = false) (h : Winding s w next r b)
    (hphase : b.phase = .drain) :
    Winding s w next r (b.drain s w) ∧ (b.drain s w).phase ≠ .done ∧
      (b.drain s w).stopped = b.stopped ∧ (b.drain s w).toDo < b.toDo := by
  unfold Run.drain
  split
  · next hempty =>
    have hnone : b.queue.toList = [] := by
      rw [Queue.isEmpty, Queue.size_eq_length] at hempty
      simpa using hempty
    have hshift := h.shift hw hd b.source b.moment .finish (.inr rfl) (.inl rfl) (by simp)
      fun _ => hnone
    refine ⟨hshift, by simp, rfl, ?_⟩
    simp [toDo, hphase]
  · next hjobs =>
    have hpos : 0 < b.queue.toList.length := by
      rw [Queue.isEmpty, Queue.size_eq_length] at hjobs
      exact Nat.pos_of_ne_zero (by simpa using hjobs)
    obtain ⟨hdone, hsame, hstopped, hless⟩ := h.work hw (by simp [hphase])
    refine ⟨hdone, by simp [hsame, hphase], hstopped, ?_⟩
    unfold toDo
    rw [hless, hsame, hphase]
    dsimp only
    omega

/-- **A run to which no candidate is to come does its jobs**: each step leaves less to
    do. -/
theorem step (hw : w.Steady) (hd : s.mode.isDestructive = false) (hbatch : 0 < s.batch)
    (h : Winding s w next r b) (hphase : b.phase ≠ .finish) :
    ∃ b', b.stepFrom s w next = (b', .ok .continue) ∧ Winding s w next r b' ∧
      b'.stopped = b.stopped ∧ b'.toDo < b.toDo := by
  have hmem := h.phase
  simp only [List.mem_cons, List.not_mem_nil, or_false] at hmem
  obtain ⟨b', hact, hdone, hne, hstopped, hless⟩ : ∃ b', b.actFrom s w next = (b', .ok ()) ∧
      Winding s w next r b' ∧ b'.phase ≠ .done ∧ b'.stopped = b.stopped ∧ b'.toDo < b.toDo := by
    unfold actFrom
    rcases hmem with hgather | hdrain | hfinish
    · rw [if_pos hgather]
      exact h.gatherFrom hw hd hbatch hgather
    · rw [if_neg (by simp [hdrain])]
      exact ⟨_, by simp only [act, hdrain], h.drain hw hd hdrain⟩
    · exact absurd hfinish hphase
  refine ⟨b', ?_, hdone, hstopped, hless⟩
  unfold stepFrom
  rw [hact]
  simp only [progress, if_neg hne]

/-- **A run that has done its jobs closes its tables**, and what it comes to is settled. -/
theorem finish (hw : w.Steady) (h : Winding s w next r b) (hphase : b.phase = .finish) :
    ∃ b', b.stepFrom s w next = (b', .ok .done) ∧ Ended s w r b' ∧ b'.stopped = b.stopped := by
  have hempty := h.done hphase
  obtain ⟨primary, hprimary⟩ := Option.isSome_iff_exists.1 h.primary.1
  obtain ⟨moment, hfinish⟩ := finish_saves (s := s) (r := b) hw.toSound h.target.1 hprimary
  obtain ⟨sent, hkeeps⟩ := report_keeps (r := { b with
    source := none, primary := none, files := b.savedFiles primary, moment }) false
  rw [hkeeps] at hfinish
  -- With no job left, the run is what its queue comes to.
  obtain ⟨gap, halike⟩ := h.outcome
  have hself : b.outcome s w = b := by rw [Run.outcome, hempty]; rfl
  rw [hself] at halike
  have hkept : Kept r (r.outcome s w) := performAll_kept r r.queue.toList
  have htarget : (r.outcome s w).target = none := by simpa [h.target.2] using hkept.target
  have hstep : b.stepFrom s w next = ((b.finish s w).1, .ok .done) := by
    unfold stepFrom actFrom
    rw [if_neg (by simp [hphase]), act, hphase, hfinish]
    rfl
  rw [hfinish] at hstep
  refine ⟨_, hstep, ⟨⟨h.found, ?_, h.jobs⟩, rfl, hempty, ?_, ?_⟩, rfl⟩
  · intro counter hc
    rw [← h.counts counter hc]
    have hne : counter ≠ .queueHighWater := by
      rintro rfl
      simp at hc
    simp [Counters.raise, hne]
  · obtain ⟨primary', hprimary', hlocation⟩ : ∃ primary', (r.outcome s w).primary = some primary' ∧
        primary'.location = primary.location := by
      have hsame := hkept.primary.trans h.primary.2.symm
      rw [hprimary] at hsame
      obtain ⟨primary', hsome, hlocation⟩ := Option.map_eq_some_iff.1 hsame
      exact ⟨primary', hsome, hlocation⟩
    have htable := halike.table
    simp only [written, htarget, h.target.1, hprimary, hprimary', Option.none_or, Option.map_some,
      SongTable.redate_self, Option.some.injEq] at htable
    simp only [closedFiles, hprimary', savedFiles, hlocation, htable, halike.files]
  · refine Counters.ext_get fun counter => ?_
    simp only [Counters.raise, Counters.get_set, h.highWater]
    by_cases hc : counter = .queueHighWater
    · rw [if_pos hc, if_pos hc, h.highest, hkept.counts .queueHighWater (by simp)]
    · rw [if_neg hc, if_neg hc, halike.counts hc]

end Winding

theorem stepsFrom_add (next : Feed) (n m : Nat) (r : Run) :
    stepsFrom s w next (n + m) r = stepsFrom s w next m (stepsFrom s w next n r) := by
  induction m with
  | zero => rfl
  | succ m ih => rw [Nat.add_succ, stepsFrom, ih, stepsFrom]

theorem stepsFrom_one (next : Feed) (r : Run) :
    stepsFrom s w next 1 r = (r.stepFrom s w next).1 := rfl

/-- A run to which no candidate is to come ends. -/
theorem Winding.ends {next : Feed} {b : Run} (hw : w.Steady) (hd : s.mode.isDestructive = false)
    (hbatch : 0 < s.batch) (h : Winding s w next r b) :
    ∃ n, Ended s w r (stepsFrom s w next n b) ∧ (stepsFrom s w next n b).stopped = b.stopped := by
  induction hn : b.toDo using Nat.strongRecOn generalizing b with
  | ind left ih =>
    by_cases hphase : b.phase = .finish
    · obtain ⟨b', hstep, hended, hstopped⟩ := h.finish hw hphase
      exact ⟨1, by rw [stepsFrom_one, hstep]; exact hended, by rw [stepsFrom_one, hstep]; exact hstopped⟩
    · obtain ⟨b', hstep, hnext, hstopped, hless⟩ := h.step hw hd hbatch hphase
      obtain ⟨n, hended, hsame⟩ := ih b'.toDo (hn ▸ hless) hnext rfl
      refine ⟨1 + n, ?_⟩
      rw [stepsFrom_add, stepsFrom_one, hstep]
      exact ⟨hended, hsame.trans hstopped⟩

/-! ## A run that is stopped -/

variable (s w) in
/-- The states that a run can come to from another, with messages that arrive. -/
abbrev Later : Run → Run → Prop :=
  Relation.ReflTransGen fun a b => b = (a.step s w).1 ∨ ∃ message, b = a.control message

variable (s w) in
/-- A run from a state ends as given.  Until then it has the jobs that it had in another
    state in its queue, or has done them, and no other. -/
structure Completes (r a e : Run) : Prop where
  ends : ∃ n, (steps s w n a).phase = .done
  owes : ∀ b, Later s w a b → Owes r b
  done : ∀ b, Later s w a b → b.phase = .done →
    b.queue.toList = [] ∧ b.files = e.files ∧ b.counters = e.counters

theorem Owes.refl (r : Run) : Owes r r :=
  ⟨rfl, fun _ _ => rfl, rfl⟩

theorem Owes.trans {r₁ r₂ r₃ : Run} (h : Owes r₁ r₂) (h' : Owes r₂ r₃) : Owes r₁ r₃ :=
  ⟨h'.found.trans h.found, fun counter hc => (h'.counts counter hc).trans (h.counts counter hc),
    h'.jobs.trans h.jobs⟩

theorem stepsFrom_nextCandidate (n : Nat) (r : Run) :
    stepsFrom s w (nextCandidate s w) n r = steps s w n r := by
  induction n with
  | zero => rfl
  | succ n ih => rw [stepsFrom, steps, ih, stepFrom_nextCandidate]

/-- A message is nothing to a run that has been stopped. -/
theorem control_of_stopped (h : r.stopped = true) (message : Control) :
    r.control message = r := by
  unfold control requestStop
  rw [if_pos h, ite_self]

theorem requestStop_eq (h : r.stopped = false) :
    r.requestStop = { r with stopped := true, queue := r.queue.close, source := none } := by
  rw [requestStop, if_neg (by simp [h])]

/-- A run that is stopped comes to the same as one that finds no more candidates. -/
theorem Winding.completes {a e : Run} (hw : w.Steady) (hd : s.mode.isDestructive = false)
    (hbatch : 0 < s.batch) (hstop : a.stopped = true) (h : Winding s w (nextCandidate s w) r a)
    (he : Ended s w r e) : Completes s w r a e := by
  have hlater : ∀ b, Later s w a b → b.stopped = true ∧
      (Winding s w (nextCandidate s w) r b ∨ Ended s w r b) := by
    intro b hb
    induction hb with
    | refl => exact ⟨hstop, .inl h⟩
    | @tail b b' _ hnext ih =>
      obtain ⟨hstopped, hb⟩ := ih
      rcases hnext with rfl | ⟨message, rfl⟩
      · rcases hb with hwinding | hended
        · rw [← stepFrom_nextCandidate]
          by_cases hphase : b.phase = .finish
          · obtain ⟨b', hstep, hended, hsame⟩ := hwinding.finish hw hphase
            rw [hstep]
            exact ⟨hsame.trans hstopped, .inr hended⟩
          · obtain ⟨b', hstep, hwinding, hsame, -⟩ := hwinding.step hw hd hbatch hphase
            rw [hstep]
            exact ⟨hsame.trans hstopped, .inl hwinding⟩
        · rw [Run.step, act_of_done hended.phase]
          exact ⟨hstopped, .inr hended⟩
      · rw [control_of_stopped hstopped]
        exact ⟨hstopped, hb⟩
  refine ⟨?_, fun b hb => ?_, fun b hb hphase => ?_⟩
  · obtain ⟨n, hended, -⟩ := h.ends hw hd hbatch
    rw [stepsFrom_nextCandidate] at hended
    exact ⟨n, hended.phase⟩
  · exact (hlater b hb).2.elim (·.toOwes) (·.toOwes)
  · rcases (hlater b hb).2 with hwinding | hended
    · have hmem := hwinding.phase
      simp [hphase] at hmem
    · exact ⟨hended.queue, hended.files.trans he.files.symm, hended.counters.trans he.counters.symm⟩

/-- A run that has been stopped may have a step to go. -/
theorem Completes.of_step {a a₁ r₁ e : Run} (h : Completes s w r₁ a₁ e) (hstop : a.stopped = true)
    (hphase : a.phase ≠ .done) (hstep : (a.step s w).1 = a₁) (hr : Owes r a) (hr₁ : Owes r r₁) :
    Completes s w r a e := by
  have hlater : ∀ b, Later s w a b → b = a ∨ Later s w a₁ b := by
    intro b hb
    induction hb with
    | refl => exact .inl rfl
    | @tail b b' _ hnext ih =>
      rcases ih with rfl | hb
      · rcases hnext with rfl | ⟨message, rfl⟩
        · exact .inr (hstep ▸ .refl)
        · exact .inl (control_of_stopped hstop message)
      · exact .inr (hb.tail hnext)
  refine ⟨?_, fun b hb => ?_, fun b hb hdone => ?_⟩
  · obtain ⟨n, hn⟩ := h.ends
    refine ⟨1 + n, ?_⟩
    rw [← stepsFrom_nextCandidate, stepsFrom_add, stepsFrom_one, stepFrom_nextCandidate, hstep,
      stepsFrom_nextCandidate]
    exact hn
  · rcases hlater b hb with rfl | hb
    · exact hr
    · exact hr₁.trans (h.owes b hb)
  · rcases hlater b hb with rfl | hb
    · exact absurd hdone hphase
    · exact h.done b hb hdone

/-! ## Wherever the run is stopped -/

theorem openTable_requestStop (hw : w.Sound) (hstop : r.stopped = false) (path : Path) :
    r.requestStop.openTable w path = ((r.openTable w path).1.requestStop, (r.openTable w path).2) := by
  have hfiles : r.requestStop.files = r.files := by rw [requestStop_eq hstop]
  unfold openTable
  rw [hfiles, hw.tableFails, hw.tableFails, if_neg Bool.false_ne_true, if_neg Bool.false_ne_true]
  rcases r.files.openTable path with ⟨files, _ | table⟩
  · dsimp only
    rw [requestStop_eq (r := { r.asked with files }) hstop, requestStop_eq hstop]
    rfl
  · dsimp only
    rw [hw.tableFails, hw.tableFails, if_neg Bool.false_ne_true, if_neg Bool.false_ne_true]
    dsimp only
    rw [requestStop_eq (r := Run.asked { r.asked with files }) hstop, requestStop_eq hstop]
    rfl

/-- Opening the tables is the same for a run that has been stopped. -/
theorem start_requestStop (hw : w.Sound) (hd : s.mode.isDestructive = false)
    (hstop : r.stopped = false) :
    r.requestStop.start s w = ((r.start s w).1.requestStop, (r.start s w).2) := by
  have hkept : (r.openTable w s.databasePath).1.stopped = false := by
    obtain ⟨_, _, hkeeps⟩ := openTable_filesOnly (w := w) (r := r) s.databasePath
    rw [hkeeps, hstop]
  simp only [start, hd, Bool.false_eq_true, if_false, openPrimary, openTable_requestStop hw hstop]
  rcases hopen : r.openTable w s.databasePath with ⟨r₁, failure | primary⟩
  · rfl
  · rw [hopen] at hkept
    replace hkept : r₁.stopped = false := hkept
    dsimp only
    rw [requestStop_eq hkept,
      requestStop_eq (r := { r₁ with primary := some primary, phase := .prepare }) hkept]

/-- Preparing leaves out what a run that has been stopped does not need: where candidates
    come from. -/
theorem prepare_requestStop (hw : w.Sound) (hd : s.mode.isDestructive = false)
    (hstop : r.stopped = false) (hprimary : r.primary.isSome) :
    ∃ source total moment,
      r.prepare s w = ({ r with
        source := some source, total, moment, sent := r.sent ++ [.progress 0], phase := .gather },
        .ok ()) ∧
      r.requestStop.prepare s w = ({ r with
        stopped := true, queue := r.queue.close, source := none
        sent := r.sent ++ [.progress 0], phase := .gather }, .ok ()) := by
  have hchoose : ∀ r : Run, r.chooseNextId s w = (r, .ok ()) := by
    intro r
    unfold chooseNextId
    split
    · next hmode =>
      rw [hmode] at hd
      cases hd
    · rfl
  obtain ⟨primary, hprimary⟩ := Option.isSome_iff_exists.1 hprimary
  -- Where the run is not stopped, opening the source succeeds.
  obtain ⟨source, total, moment, hopen⟩ : ∃ source total moment,
      r.openSource s w = ({ r with source := some source, total, moment }, .ok ()) := by
    unfold openSource
    rw [if_neg (by simp [hstop])]
    split
    · exact ⟨_, _, r.moment, rfl⟩
    · rw [hw.tableFails, if_neg Bool.false_ne_true]
      split
      · next hnone => simp [hprimary] at hnone
      · exact ⟨_, _, _, rfl⟩
  refine ⟨source, total, moment, ?_, ?_⟩
  · unfold prepare
    rw [hchoose]
    dsimp only
    rw [hopen]
    rfl
  · rw [requestStop_eq hstop]
    unfold prepare
    rw [hchoose]
    rfl

/-- A run that has been stopped is winding down, and so is one with no more candidates. -/
theorem Furnished.winding (hw : w.Steady) (h : Furnished r) (total moment : Nat)
    (hphase : r.phase ∈ [.gather, .drain, .finish])
    (hdone : r.phase = .finish → r.queue.toList = [])
    (hmoment : moment = r.moment ∨ r.queue.toList = []) :
    Winding s w (upTo s w r.history.found.length) r r ∧
      Winding s w (nextCandidate s w) r
        { r with stopped := true, queue := r.queue.close, source := none, total, moment } := by
  refine ⟨⟨.refl r, .cut rfl h.opened h.limit, hphase, hdone, ?_, ⟨0, .refl _ _ _⟩, ⟨h.primary, rfl⟩,
    ⟨h.target, h.target⟩, rfl, rfl⟩, ⟨⟨rfl, fun _ _ => rfl, rfl⟩, .halted rfl rfl, hphase, hdone,
    fun _ hvisit => (by cases hvisit), ?_, ⟨h.primary, rfl⟩, ⟨h.target, h.target⟩, rfl, rfl⟩⟩
  · intro visit hvisit
    exact (h.records.resolve_right fun hno => hno visit hvisit).2
  · have hstart : Alike (fun date => date) ((moment : Int) - r.moment) False r
        { r with stopped := true, queue := r.queue.close, source := none, total, moment } :=
      .same rfl rfl rfl rfl rfl (by dsimp only; omega)
    refine ⟨_, hstart.outcome hw rfl fun job hjob _ => ?_⟩
    rcases hmoment with hsame | hempty
    · rw [hsame, Int.sub_self]
      exact blurs_zero w _
    · rw [hempty] at hjob
      cases hjob

/-- A run that is stopped once it has prepared. -/
theorem Furnished.completes (hw : w.Steady) (hd : s.mode.isDestructive = false)
    (hbatch : 0 < s.batch) (h : Furnished r) (total moment : Nat)
    (hstop : r.stopped = false) (hphase : r.phase ∈ [.gather, .drain, .finish])
    (hdone : r.phase = .finish → r.queue.toList = [])
    (hmoment : moment = r.moment ∨ r.queue.toList = []) :
    ∃ n e, stepsFrom s w (upTo s w r.history.found.length) n r = e ∧ e.phase = .done ∧
      e.stopped = false ∧ Completes s w r
        { r with stopped := true, queue := r.queue.close, source := none, total, moment } e := by
  obtain ⟨hrest, hhalted⟩ := h.winding hw total moment hphase hdone hmoment
  obtain ⟨n, hended, hsame⟩ := hrest.ends hw hd hbatch
  exact ⟨n, _, rfl, hended.phase, hsame.trans hstop, hhalted.completes hw hd hbatch rfl hended⟩

theorem Owes.requestStop (h : r.stopped = false) : Owes r r.requestStop := by
  rw [requestStop_eq h]
  exact ⟨rfl, fun _ _ => rfl, rfl⟩

/-- A run that is stopped before it prepares. -/
theorem opened_completes (hw : w.Steady) (hd : s.mode.isDestructive = false) (hbatch : 0 < s.batch)
    (hstart : (Run.new s files).start s w = (r, .ok ())) :
    ∃ n e, stepsFrom s w (upTo s w r.history.found.length) n r = e ∧ e.phase = .done ∧
      e.stopped = false ∧ Completes s w r r.requestStop e := by
  have hphase := start_phase hstart
  obtain ⟨hstop, hprimary, hqueue⟩ : r.stopped = false ∧ r.primary.isSome ∧ r.queue.toList = [] := by
    obtain ⟨table, moment, -, rfl⟩ := start_opens hd hstart
    exact ⟨rfl, rfl, rfl⟩
  obtain ⟨source, total, moment, hprepare, hprepare'⟩ :=
    prepare_requestStop hw.toSound hd hstop hprimary
  have hfurnished := (prepare_working hstart hprepare).furnished hd
  obtain ⟨n, e, hn, hdone, hgoing, hcompletes⟩ :=
    hfurnished.completes hw hd hbatch r.total r.moment hstop (by simp) (by simp) (.inr hqueue)
  refine ⟨1 + n, e, ?_, hdone, hgoing, ?_⟩
  · rw [stepsFrom_add, stepsFrom_one, stepFrom, actFrom, if_neg (by simp [hphase]), act, hphase,
      hprepare]
    exact hn
  · refine hcompletes.of_step ?_ ?_ ?_ (.requestStop hstop) ⟨rfl, fun _ _ => rfl, rfl⟩
    · rw [requestStop_eq hstop]
    · rw [requestStop_eq hstop]
      simp [hphase]
    · have hsame : r.requestStop.phase = .prepare := by rw [requestStop_eq hstop, ← hphase]
      rw [step, act, hsame, hprepare']

/-- A run that is over stays so. -/
theorem completes_of_done {a e : Run} (hstop : a.stopped = true) (hphase : a.phase = .done)
    (hr : Owes r a) (hqueue : a.queue.toList = []) (hfiles : a.files = e.files)
    (hcounters : a.counters = e.counters) : Completes s w r a e := by
  have hlater : ∀ b, Later s w a b → b = a := by
    intro b hb
    induction hb with
    | refl => rfl
    | tail _ hnext ih =>
      subst ih
      rcases hnext with rfl | ⟨message, rfl⟩
      · rw [step, act_of_done hphase]
      · exact control_of_stopped hstop message
  refine ⟨⟨0, hphase⟩, fun b hb => ?_, fun b hb _ => ?_⟩
  · rw [hlater b hb]
    exact hr
  · rw [hlater b hb]
    exact ⟨hqueue, hfiles, hcounters⟩

/-- A run that is stopped before it opens its tables. -/
theorem new_completes (hw : w.Steady) (hd : s.mode.isDestructive = false) (hbatch : 0 < s.batch) :
    ∃ n e, stepsFrom s w (upTo s w 0) n (.new s files) = e ∧ e.phase = .done ∧ e.stopped = false ∧
      Completes s w (.new s files) (Run.new s files).requestStop e := by
  have hstep : ((Run.new s files).stepFrom s w (upTo s w 0)).1 = ((Run.new s files).step s w).1 := rfl
  have hstopped := start_stopped (s := s) (w := w) (r := .new s files)
  have hsame := SameAccounts.start (s := s) (w := w) (r := .new s files)
  have hstart := start_requestStop (s := s) (r := .new s files) hw.toSound hd rfl
  have hphase : (Run.new s files).requestStop.phase = .start := rfl
  have hphase' : (Run.new s files).requestStop.phase ≠ .done := by
    rw [hphase]
    decide
  -- Where the table cannot be opened both runs end; otherwise they go on from there.
  rcases hopen : (Run.new s files).start s w with ⟨r₁, failure | _⟩ <;>
    rw [hopen] at hstart hsame hstopped <;> dsimp only at hstart hsame hstopped
  · have hstep' : ((Run.new s files).requestStop.step s w).1 = r₁.requestStop.fail failure := by
      rw [step, act, hphase]
      dsimp only
      rw [hstart]
    have hstep₁ : ((Run.new s files).step s w).1 = r₁.fail failure := by
      rw [step, act, show (Run.new s files).phase = .start from rfl]
      dsimp only
      rw [hopen]
    refine ⟨1, r₁.fail failure, hstep.trans hstep₁, rfl, hstopped, ?_⟩
    rw [requestStop_eq hstopped] at hstep'
    have hempty : r₁.queue.toList = [] := by
      rw [hsame.queue]
      rfl
    have hover : Completes s w (r₁.fail failure)
        (Run.fail { r₁ with stopped := true, queue := r₁.queue.close, source := none } failure)
        (r₁.fail failure) :=
      completes_of_done rfl rfl ⟨rfl, fun _ _ => rfl, rfl⟩ hempty rfl rfl
    refine hover.of_step rfl hphase' hstep' (.requestStop rfl) ⟨?_, ?_, ?_⟩
    · exact congrArg History.found hsame.history
    · intro counter hc
      exact hsame.words counter (by rintro rfl; simp at hc)
    · change r₁.history.taken.reverse ++ r₁.queue.toList = _
      rw [hsame.queue, hsame.history]
  · have hstep' : ((Run.new s files).requestStop.step s w).1 = r₁.requestStop := by
      rw [step, act, hphase]
      dsimp only
      rw [hstart]
    have hstep₁ : ((Run.new s files).step s w).1 = r₁ := by
      rw [step, act, show (Run.new s files).phase = .start from rfl]
      dsimp only
      rw [hopen]
    obtain ⟨n, e, hn, hdone, hgoing, hcompletes⟩ := opened_completes hw hd hbatch hopen
    have hfound : r₁.history.found = [] := congrArg History.found hsame.history
    rw [hfound] at hn
    refine ⟨1 + n, e, ?_, hdone, hgoing, hcompletes.of_step rfl hphase' hstep' (.requestStop rfl)
      ⟨hfound, ?_, ?_⟩⟩
    · rw [stepsFrom_add, stepsFrom_one, hstep, hstep₁]
      exact hn
    · intro counter hc
      exact hsame.words counter (by rintro rfl; simp at hc)
    · rw [hsame.queue, hsame.history]

/-- Wherever a run is stopped, it goes on to the end that it would have come to without
    more candidates. -/
theorem Progressing.completes (hw : w.Steady) (hd : s.mode.isDestructive = false)
    (hbatch : 0 < s.batch) (hstop : r.stopped = false) (h : Progressing s w files r)
    (hidle : r.phase = .done → r.queue.toList = []) :
    ∃ n e, stepsFrom s w (upTo s w r.history.found.length) n r = e ∧ e.phase = .done ∧
      e.stopped = false ∧ Completes s w r r.requestStop e := by
  cases h with
  | fresh hnew =>
    subst hnew
    exact new_completes hw hd hbatch
  | opened _ hstart => exact opened_completes hw hd hbatch hstart
  | working hphase hworking =>
    rw [requestStop_eq hstop]
    exact (hworking.furnished hd).completes hw hd hbatch _ _ hstop hphase hworking.done (.inl rfl)
  | finished hphase =>
    refine ⟨0, r, rfl, hphase, hstop, completes_of_done ?_ ?_ (.requestStop hstop) ?_ ?_ ?_⟩
    all_goals rw [requestStop_eq hstop]
    · exact hphase
    · exact hidle hphase

end Run

/-- **A run that is stopped is a whole run over the candidates that it has taken.**  Where
    no new table is written, a run that is stopped between two steps finds no more
    candidates, does every job in its queue, and ends with the files and the counters of a
    run whose candidates end there, and which is not stopped. -/
theorem stop_completes_prefix {s : Setup} {w : Services} {files : FileTree} {r : Run}
    {message : Control} (hw : w.Steady) (hd : s.mode.isDestructive = false) (hbatch : 0 < s.batch)
    (h : Reachable s w files none r) (hstop : r.stopped = false) (hm : message.stops = true) :
    r.counters.get .found = .ofNat r.history.found.length ∧
      ∃ n e, Run.stepsFrom s w (Run.upTo s w r.history.found.length) n (.new s files) = e ∧
        e.phase = .done ∧ e.stopped = false ∧ Run.Completes s w r (r.control message) e := by
  obtain ⟨numbers, hwords, hfound, -, -, -, -⟩ := reachable_conserves h (by simp)
  refine ⟨by rw [hwords .found (by decide), hfound], ?_⟩
  have hidle : r.phase = .done → r.queue.toList = [] := by
    intro hphase
    have hempty := (Conserved.of_reachable h (by simp)).idle (by rw [hphase]; rfl)
    rw [Queue.size_eq_length] at hempty
    exact List.length_eq_zero_iff.1 hempty
  obtain ⟨n, hn⟩ := Run.steps_upTo h hstop (Nat.le_refl r.history.found.length)
  obtain ⟨m, e, hm', hdone, hgoing, hcompletes⟩ :=
    (Run.progressing_of_reachable h hstop).completes hw hd hbatch hstop hidle
  refine ⟨n + m, e, ?_, hdone, hgoing, ?_⟩
  · rw [Run.stepsFrom_add, hn, hm']
  · rwa [Run.control, if_pos hm]

/-- A library with three records of one file. -/
def threefoldFiles : FileTree :=
  oneFile ⟨[(titled "a.mp3").row 1, (titled "a.mp3").row 2, (titled "a.mp3").row 3], by decide⟩

/-- Reading tags again, two candidates at a time. -/
def pairwiseSetup : Setup :=
  { sampleSetup .updateTags with batch := 2 }

/-- A run that is stopped with two songs found and one job in its queue. -/
theorem stop_completes_prefix_threefold :
    ∃ r e : Run, ∃ n, Reachable pairwiseSetup sampleServices threefoldFiles none r ∧
      r.history.found.length = 2 ∧ r.queue.toList.length = 1 ∧
      Run.stepsFrom pairwiseSetup sampleServices (Run.upTo pairwiseSetup sampleServices 2) n
        (.new pairwiseSetup threefoldFiles) = e ∧
      Run.Completes pairwiseSetup sampleServices r (r.control .stopRequest) e := by
  have h : Reachable pairwiseSetup sampleServices threefoldFiles none
      (Run.steps pairwiseSetup sampleServices 3 (.new pairwiseSetup threefoldFiles)) :=
    Run.reachable_steps .new (by decide +kernel)
  have hfound : (Run.steps pairwiseSetup sampleServices 3
      (.new pairwiseSetup threefoldFiles)).history.found.length = 2 := by decide +kernel
  obtain ⟨-, n, e, he, -, -, hcompletes⟩ := stop_completes_prefix sampleServices_steady rfl
    (by decide) h (by decide +kernel) (rfl : Control.stops .stopRequest = true)
  rw [hfound] at he
  exact ⟨_, e, n, h, hfound, by decide +kernel, he, hcompletes⟩

end SongLibrary.Reconcile
