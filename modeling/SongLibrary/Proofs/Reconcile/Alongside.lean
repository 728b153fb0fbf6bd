/-
  Two runs side by side.

  A rebuild and a run that adds new files, whose verdicts on candidates are the same, have the
  same candidates to come and the same jobs in their queues after the same number of steps
  (`Run.Level`, `InStep.step`).  So their queues have been as long when they are to close
  their tables (`InStep.level_of_finish`).
-/
import SongLibrary.Proofs.Reconcile.Mirroring
import SongLibrary.Proofs.Reconcile.Queueing

namespace SongLibrary.Reconcile

variable {s : Setup} {w : Services} {r r' r₁ r₁' r₂ r₂' : Run} {c : Candidate}

namespace Run

/-! ## Candidates and jobs to come -/

/-- Two runs with the same candidates and jobs to come. -/
structure Level (r r' : Run) : Prop where
  phase : r'.phase = r.phase
  source : r'.source = r.source
  queue : r'.queue = r.queue
  longest : r'.longest = r.longest

namespace Level

/-- The same job is put into both queues. -/
theorem puts {job? : Option Job} (h : Level r r') (hp : Puts job? r r₂) (hp' : Puts job? r' r₂')
    (hphase : r₂'.phase = r₂.phase) (hsource : r₂'.source = r₂.source) : Level r₂ r₂' := by
  cases job? with
  | none =>
    exact ⟨hphase, hsource, hp'.1.trans (h.queue.trans hp.1.symm),
      hp'.2.trans (h.longest.trans hp.2.symm)⟩
  | some job =>
    have hqueue : r₂'.queue = r₂.queue := by
      have hpushed := hp'.1
      rw [h.queue, hp.1] at hpushed
      exact (Option.some.inj hpushed).symm
    exact ⟨hphase, hsource, hqueue, by rw [hp'.2, hp.2, h.longest, hqueue]⟩

/-- The same job is taken out of both queues. -/
theorem performNext (h : Level r r') :
    Level (r.performNext s w) (r'.performNext s.adding w) := by
  unfold Run.performNext
  rw [h.queue]
  cases hpop : r.queue.pop? with
  | none => exact h
  | some next =>
    obtain ⟨job, queue⟩ := next
    have hkept := perform_kept s w { r with queue, history.taken := job :: r.history.taken } job
    have hkept' := perform_kept s.adding w
      { r' with queue, history.taken := job :: r'.history.taken } job
    exact ⟨hkept'.phase.trans (h.phase.trans hkept.phase.symm),
      hkept'.source.trans (h.source.trans hkept.source.symm), hkept'.queue.trans hkept.queue.symm,
      (hkept'.counts _ (by simp)).trans (h.longest.trans (hkept.counts _ (by simp)).symm)⟩

theorem reportProgress (h : Level r r') : Level r.reportProgress r'.reportProgress := by
  obtain ⟨_, _, hkeeps⟩ := r.reportProgress_keeps
  obtain ⟨_, _, hkeeps'⟩ := r'.reportProgress_keeps
  rw [hkeeps, hkeeps']
  exact ⟨h.phase, h.source, h.queue, h.longest⟩

end Level

end Run

/-- A rebuild and a run that adds new files, from when they have prepared: the verdicts of both
    on their candidates are known beforehand, and the same. -/
structure Alongside (s : Setup) (w : Services) (r₁ r₁' : Run) : Prop where
  sound : w.Sound
  rebuild : s.mode = .rebuild
  primary : r₁.primary.isSome
  primary' : r₁'.primary.isSome
  foreseen : ∃ sees J J', Foreseen s w sees J ∧ Foreseen s.adding w sees J' ∧
    (∀ r, Run.Slices s w r₁ r → ∃ rest, J rest r.books) ∧
    ∀ r', Run.Slices s.adding w r₁' r' → ∃ rest, J' rest r'.books
  visits : ∀ r, Run.Slices s w r₁ r → ∀ visit, r.source ≠ some (.table visit)

namespace Alongside

open Run

/-- A candidate that is looked at puts the job into the queue that is known beforehand. -/
theorem puts {sees : Candidate → Verdict} {J : List Candidate → Books → Prop}
    {rest : List Candidate} {q : Run} (hw : w.Sound) (hmode : s.mode.allowsMoves)
    (hF : Foreseen s w sees J) (hJ : J rest r.books) (hopen : r.queue.closed = false)
    (hnext : r.nextCandidate s w = (q, .ok (some c)))
    (hclassify : q.classify s w c = (r₂, .ok ())) :
    Puts (sees c).job q r₂ ∧ r₂.phase = q.phase ∧ r₂.source = q.source := by
  obtain ⟨source, hbooks, htakes⟩ := nextCandidate_books hnext
  obtain ⟨_, -, ⟨primary, hprimary, hverdict⟩, -⟩ := hF.look hJ htakes
  obtain ⟨source', moment, hkeeps⟩ := r.nextCandidate_keeps s w
  rw [hnext] at hkeeps
  obtain rfl : q = _ := hkeeps
  have hputs := classify_puts (s := s) (w := w) (r := { r with source := source', moment }) hopen c
  rw [hclassify, Sight.job?_eq (x := ⟨{ r with source := source', moment }, c⟩) hw hprimary] at hputs
  have hjudged := classify_judged (r := { r with source := source', moment }) hw hprimary hopen
    hclassify
  rw [show s.verdict c (r.files.pathExists c.path) (s.recordIn c primary.table) = sees c from
    hverdict] at hputs
  obtain ⟨_, _, _, _, -, -, -, heq⟩ := hjudged
  rw [Setup.copy_verdict (by rcases Mode.rebuild_or_checkNew hmode with h | h <;> simp [h])] at heq
  exact ⟨hputs, by rw [heq], by rw [heq]⟩

/-- Both take candidates as long as the other does. -/
theorem pull (ha : Alongside s w r₁ r₁') (n : Nat) (h : Level r r') (hslices : Slices s w r₁ r)
    (hslices' : Slices s.adding w r₁' r') (hpull : Run.pull s w n r = (r₂, .ok ()))
    (hpull' : Run.pull s.adding w n r' = (r₂', .ok ())) : Level r₂ r₂' := by
  induction n generalizing r r' with
  | zero =>
    cases hpull
    cases hpull'
    exact h
  | succ n ih =>
    unfold Run.pull at hpull hpull'
    rw [h.queue] at hpull'
    by_cases hroom : r.queue.hasRoom
    · rw [if_neg (by simp [hroom])] at hpull hpull'
      have hopen := closed_of_hasRoom hroom
      have hopen' : r'.queue.closed = false := h.queue ▸ hopen
      -- Where there is no candidate left for one, there is none for the other.
      have hends : r.nextCandidate s w = (r, .ok none) →
          r'.nextCandidate s.adding w = (r', .ok none) → Level r₂ r₂' := by
        intro hnext hnext'
        rw [hnext] at hpull
        rw [hnext'] at hpull'
        cases hpull
        cases hpull'
        exact ⟨h.phase, rfl, h.queue, h.longest⟩
      rcases hsource : r.source with _ | ⟨_ | ⟨path, paths⟩⟩ | visit
      · exact hends (by simp [nextCandidate, hsource]) (by simp [nextCandidate, h.source, hsource])
      · exact hends (by simp [nextCandidate, hsource]) (by simp [nextCandidate, h.source, hsource])
      · have hnext : r.nextCandidate s w = ({ r with source := some (.files paths) },
            .ok (some ⟨path, keyOf s.musicDir path, none⟩)) := by
          simp [nextCandidate, hsource]
        have hnext' : r'.nextCandidate s.adding w = ({ r' with source := some (.files paths) },
            .ok (some ⟨path, keyOf s.musicDir path, none⟩)) := by
          simp [nextCandidate, h.source, hsource]
        rw [hnext] at hpull
        rw [hnext'] at hpull'
        dsimp only at hpull hpull'
        split at hpull
        · cases hpull
        · next q hclassify =>
          split at hpull'
          · cases hpull'
          · next q' hclassify' =>
            obtain ⟨sees, J, J', hF, hF', hJ, hJ'⟩ := ha.foreseen
            obtain ⟨rest, hJ⟩ := hJ r hslices
            obtain ⟨rest', hJ'⟩ := hJ' r' hslices'
            obtain ⟨hputs, hphase, hsource⟩ :=
              puts ha.sound (by rw [ha.rebuild]; rfl) hF hJ hopen hnext hclassify
            obtain ⟨hputs', hphase', hsource'⟩ :=
              puts (s := s.adding) ha.sound (by rfl) hF' hJ' hopen' hnext' hclassify'
            have hlevel : Level { r with source := some (.files paths) }
                { r' with source := some (.files paths) } := ⟨h.phase, rfl, h.queue, h.longest⟩
            refine ih (hlevel.puts hputs hputs' ?_ ?_) (hslices.tail (.look hopen hnext hclassify))
              (hslices'.tail (.look hopen' hnext' hclassify')) hpull hpull'
            · rw [hphase, hphase', hlevel.phase]
            · rw [hsource, hsource']
      · exact absurd hsource (ha.visits r hslices visit)
    · rw [if_pos (by simp [hroom])] at hpull hpull'
      cases hpull
      cases hpull'
      exact h

theorem gather (ha : Alongside s w r₁ r₁') (h : Level r r') (hslices : Slices s w r₁ r)
    (hslices' : Slices s.adding w r₁' r') (hgather : r.gather s w = (r₂, .ok ()))
    (hgather' : r'.gather s.adding w = (r₂', .ok ())) : Level r₂ r₂' := by
  unfold Run.gather at hgather hgather'
  split at hgather
  · cases hgather
  · next q hpull =>
    split at hgather'
    · cases hgather'
    · next q' hpull' =>
      cases hgather
      cases hgather'
      have hpulled := ha.pull s.batch h hslices hslices' hpull hpull'
      refine Level.reportProgress (Level.performNext ?_)
      rw [hpulled.source]
      split
      · exact ⟨rfl, rfl, hpulled.queue, hpulled.longest⟩
      · exact hpulled

theorem drain (h : Level r r') : Level (r.drain s w) (r'.drain s.adding w) := by
  unfold Run.drain
  rw [h.queue]
  split
  · exact ⟨rfl, h.source, rfl, h.longest⟩
  · exact h.performNext.reportProgress

end Alongside

/-! ## Step by step -/

namespace Run

variable {files : FileTree}

theorem steps_step (r : Run) (n : Nat) : (r.step s w).1.steps s w n = r.steps s w (n + 1) := by
  induction n with
  | zero => rfl
  | succ n ih =>
    rw [steps, ih]
    rfl

/-- A run that is not stopped has done some steps. -/
theorem exists_steps {o : Option Failure} (h : Reachable s w files o r)
    (hstop : r.stopped = false) : ∃ n, (Run.new s files).steps s w n = r := by
  induction h with
  | new => exact ⟨0, rfl⟩
  | @control _ r message _ ih =>
    rcases r.control_cases message with heq | heq <;> rw [heq] at hstop ⊢
    · exact ih hstop
    · cases hstop
  | @step _ r _ _ _ hs ih =>
    obtain ⟨n, hn⟩ := ih (by rw [← stopped_step s w r, hs, hstop])
    exact ⟨n + 1, by rw [steps, hn, hs]⟩
  | @fail _ r _ _ _ hs ih =>
    obtain ⟨n, hn⟩ := ih (by rw [← stopped_step s w r, hs, hstop])
    exact ⟨n + 1, by rw [steps, hn, hs]⟩

/-- A run that is to close its tables has done some steps since it prepared. -/
theorem exists_steps_of_finish {r₀ : Run} {o : Option Failure} (h : Reachable s w files o r)
    (hstop : r.stopped = false) (hphase : r.phase = .finish)
    (hstart : (Run.new s files).start s w = (r₀, .ok ()))
    (hprepare : r₀.prepare s w = (r₁, .ok ())) : ∃ n, r₁.steps s w n = r := by
  obtain ⟨n, rfl⟩ := exists_steps h hstop
  have hfirst : ((Run.new s files).step s w).1 = r₀ := by
    rw [step, act, show (Run.new s files).phase = .start from rfl]
    simp only [hstart]
  have hsecond : (r₀.step s w).1 = r₁ := by
    rw [step, act, start_phase hstart]
    simp only [hprepare]
  rcases n with _ | _ | n
  · cases hphase
  · rw [steps, steps, hfirst, start_phase hstart] at hphase
    cases hphase
  · exact ⟨n, by rw [← steps_step, ← steps_step, hfirst, hsecond]⟩

/-- A run that is over, or is to close its tables, is over afterwards. -/
theorem done_of_lt {n m : Nat} (h : (r.steps s w n).phase ∈ [.finish, .done]) (hlt : n < m) :
    (r.steps s w m).phase = .done := by
  have hnext : ∀ {r : Run}, r.phase ∈ [.finish, .done] → (r.step s w).1.phase = .done := by
    intro r h
    unfold step
    split
    · next r₂ hact =>
      simp only [List.mem_cons, List.not_mem_nil, or_false] at h
      rcases h with h | h
      · simp only [act, h] at hact
        exact finish_phase hact
      · rw [act_of_done h] at hact
        cases hact
        exact h
    · rfl
  induction m, hlt using Nat.le_induction with
  | base => exact hnext h
  | succ m _ ih => exact hnext (by simp [ih])

end Run

/-- How both are after the same number of steps. -/
inductive InStep (s : Setup) (w : Services) (r₁ r₁' r r' : Run) : Prop where
  | working (hphase : r.phase ∈ [.gather, .drain, .finish]) (hlevel : Run.Level r r')
      (hslices : Run.Slices s w r₁ r) (hslices' : Run.Slices s.adding w r₁' r')
  | ended (hphase : r.phase = .done) (hphase' : r'.phase = .done)

namespace InStep

open Run

/-- What both do in a step. -/
theorem step (ha : Alongside s w r₁ r₁') (h : InStep s w r₁ r₁' r r') :
    InStep s w r₁ r₁' (r.step s w).1 (r'.step s.adding w).1 := by
  have hstepped : ∀ {s : Setup} {r r₂ : Run}, r.act s w = (r₂, .ok ()) → (r.step s w).1 = r₂ := by
    intro s r r₂ hact
    simp [Run.step, hact]
  cases h with
  | working hphase hlevel hslices hslices' =>
    have hsame := hlevel.phase
    cases hcase : r.phase with
    | start => simp [hcase] at hphase
    | prepare => simp [hcase] at hphase
    | gather =>
      have hgathers : ∀ {s : Setup} {r₁ r : Run}, r₁.primary.isSome → Slices s w r₁ r →
          r.phase = .gather → ∃ r₂, r.gather s w = (r₂, .ok ()) ∧ (r.step s w).1 = r₂ := by
        intro s r₁ r hprimary hslices hphase
        have hok := gather_ok (s := s) ha.sound (hslices.sameTables.primary_isSome.trans hprimary)
        obtain ⟨r₂, hgather⟩ : ∃ r₂, r.gather s w = (r₂, .ok ()) := ⟨_, Prod.ext rfl hok⟩
        exact ⟨r₂, hgather, hstepped (by rw [act, hphase]; exact hgather)⟩
      obtain ⟨r₂, hgather, hstep⟩ := hgathers ha.primary hslices hcase
      obtain ⟨r₂', hgather', hstep'⟩ := hgathers ha.primary' hslices' (hsame.trans hcase)
      rw [hstep, hstep']
      refine .working ?_ (ha.gather hlevel hslices hslices' hgather hgather')
        (hslices.trans (gather_slices hgather).1) (hslices'.trans (gather_slices hgather').1)
      rcases gather_phase hcase hgather with hnext | hnext <;> simp [hnext]
    | drain =>
      rw [hstepped (s := s) (r := r) (by rw [act, hcase]),
        hstepped (s := s.adding) (r := r') (by rw [act, hsame, hcase])]
      refine .working ?_ (Alongside.drain hlevel) (hslices.trans (drain_slices r).1)
        (hslices'.trans (drain_slices r').1)
      rcases drain_phase (s := s) (w := w) hcase with hnext | hnext <;> simp [hnext]
    | finish =>
      exact .ended (done_of_lt (n := 0) (m := 1) (by simp [Run.steps, hcase]) Nat.one_pos)
        (done_of_lt (n := 0) (m := 1) (by simp [Run.steps, hsame, hcase]) Nat.one_pos)
    | done => simp [hcase] at hphase
  | ended hphase hphase' =>
    rw [hstepped (act_of_done hphase), hstepped (act_of_done hphase')]
    exact .ended hphase hphase'

/-- **Both stay in step.** -/
theorem steps (ha : Alongside s w r₁ r₁') (h : InStep s w r₁ r₁' r r') (n : Nat) :
    InStep s w r₁ r₁' (r.steps s w n) (r'.steps s.adding w n) := by
  induction n with
  | zero => exact h
  | succ n ih => exact ih.step ha

/-- **Both have the same queue when they are to close their tables.** -/
theorem level_of_finish (ha : Alongside s w r₁ r₁') (hbegin : Level r₁ r₁')
    (hphase₁ : r₁.phase = .gather) {n m : Nat} (hphase : (r₁.steps s w n).phase = .finish)
    (hphase' : (r₁'.steps s.adding w m).phase = .finish) :
    Level (r₁.steps s w n) (r₁'.steps s.adding w m) := by
  have hinStep : ∀ n, InStep s w r₁ r₁' (r₁.steps s w n) (r₁'.steps s.adding w n) :=
    steps ha (.working (by simp [hphase₁]) hbegin .refl .refl)
  -- The one that came to this first would be over by now.
  have hsame : n = m := by
    rcases Nat.lt_trichotomy n m with hlt | heq | hlt
    · have hfirst : (r₁'.steps s.adding w n).phase ∈ [.finish, .done] := by
        cases hinStep n with
        | working _ hlevel _ _ => simp [hlevel.phase, hphase]
        | ended _ hdone => simp [hdone]
      cases (done_of_lt hfirst hlt).symm.trans hphase'
    · exact heq
    · have hfirst : (r₁.steps s w m).phase ∈ [.finish, .done] := by
        cases hinStep m with
        | working _ hlevel _ _ => simp [← hlevel.phase, hphase']
        | ended hdone _ => simp [hdone]
      cases (done_of_lt hfirst hlt).symm.trans hphase
  subst hsame
  cases hinStep n with
  | working _ hlevel _ _ => exact hlevel
  | ended hdone _ => cases hdone.symm.trans hphase

end InStep

end SongLibrary.Reconcile
