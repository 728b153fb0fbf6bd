/-
  Runs that messages reach between steps.

  * `Run.driven` is the state after some steps, where messages arrive before each of them;
    every such state can be reached (`exists_reachable_driven`), and a run that is over
    stays so (`driven_of_done`);
  * `Run.Quiet` is said of what sends no message (`pull_quiet`, `performNext_quiet`);
  * between opening and closing, a run has the tables open that its mode asks for
    (`opened_of_reachable`).
-/
import SongLibrary.Proofs.Reconcile.Concluding

namespace SongLibrary.Reconcile.Run

variable {s : Setup} {w : Services} {files : FileTree} {r r' r₁ : Run}

/-! ## Messages that arrive -/

variable (s w) in
/-- The state after `n` steps, where the messages `arriving k` come before step `k`. -/
def driven (arriving : Nat → List Control) : Nat → Run → Run
  | 0, r => r
  | n + 1, r => (((driven arriving n r).controls (arriving n)).step s w).1

/-- One message arrives, before step `k`: it asks the run to stop. -/
def stopBefore (k : Nat) (n : Nat) : List Control :=
  if n = k then [.stopRequest] else []

theorem stopped_requestStop (r : Run) : r.requestStop.stopped = true := by
  unfold requestStop
  split
  · assumption
  · rfl

theorem requestStop_of_stopped (h : r.stopped = true) : r.requestStop = r := by
  rw [requestStop, if_pos h]

/-- Messages make a run stop if one of them does. -/
theorem controls_eq (r : Run) (messages : List Control) :
    r.controls messages = if messages.any Control.stops then r.requestStop else r := by
  induction messages generalizing r with
  | nil => rfl
  | cons message rest ih =>
    have hrest := ih (r.control message)
    rw [controls] at hrest ⊢
    rw [List.foldl_cons, hrest, List.any_cons, control]
    by_cases hstop : message.stops
    · simp only [hstop, if_true, Bool.true_or, requestStop_of_stopped (stopped_requestStop r), ite_self]
    · simp only [hstop, Bool.false_eq_true, if_false, Bool.false_or]

theorem stopped_controls (r : Run) (messages : List Control) :
    (r.controls messages).stopped = (r.stopped || messages.any Control.stops) := by
  rw [controls_eq]
  split
  · next h => rw [stopped_requestStop, h, Bool.or_true]
  · next h => rw [Bool.eq_false_iff.2 h, Bool.or_false]

/-- A run that stops takes no candidates, and goes on where it is. -/
theorem controls_keeps (r : Run) (messages : List Control) :
    (r.controls messages).phase = r.phase ∧ (r.controls messages).sent = r.sent ∧
      (r.controls messages).counters = r.counters ∧ (r.controls messages).total = r.total := by
  rw [controls_eq]
  split
  · unfold requestStop
    split <;> exact ⟨rfl, rfl, rfl, rfl⟩
  · exact ⟨rfl, rfl, rfl, rfl⟩

theorem reachable_controls {o : Option Failure} (h : Reachable s w files o r)
    (messages : List Control) : Reachable s w files o (r.controls messages) := by
  induction messages generalizing r with
  | nil => exact h
  | cons message rest ih => exact ih (h.control message)

theorem exists_reachable_step {o : Option Failure} (h : Reachable s w files o r) :
    ∃ o, Reachable s w files o (r.step s w).1 := by
  rcases hs : r.step s w with ⟨r', failure | p⟩
  · exact ⟨_, h.fail hs⟩
  · exact ⟨_, h.step hs⟩

variable (s w files) in
/-- **Every state that a driven run comes to can be reached.** -/
theorem exists_reachable_driven (arriving : Nat → List Control) (n : Nat) :
    ∃ o, Reachable s w files o (driven s w arriving n (.new s files)) := by
  induction n with
  | zero => exact ⟨none, .new⟩
  | succ n ih =>
    obtain ⟨o, h⟩ := ih
    exact exists_reachable_step (reachable_controls h _)

theorem step_of_done (h : r.phase = .done) : r.step s w = (r, .ok .done) := by
  simp only [step, act_of_done h, progress, h, if_true]

/-- A run that is over stays so, and says nothing more. -/
theorem driven_of_done {arriving : Nat → List Control} {n : Nat}
    (h : (driven s w arriving n r).phase = .done) (m : Nat) :
    (driven s w arriving (n + m) r).phase = .done ∧
      (driven s w arriving (n + m) r).sent = (driven s w arriving n r).sent := by
  induction m with
  | zero => exact ⟨h, rfl⟩
  | succ m ih =>
    obtain ⟨hphase, hsent, -⟩ :=
      controls_keeps (driven s w arriving (n + m) r) (arriving (n + m))
    rw [← Nat.add_assoc, driven, step_of_done (hphase.trans ih.1)]
    exact ⟨hphase.trans ih.1, hsent.trans ih.2⟩

/-- A run that is not over has not failed. -/
theorem reachable_driven {arriving : Nat → List Control} {n : Nat}
    (h : (driven s w arriving n (.new s files)).phase ≠ .done) :
    Reachable s w files none (driven s w arriving n (.new s files)) := by
  obtain ⟨o, hreach⟩ := exists_reachable_driven s w files arriving n
  cases o with
  | none => exact hreach
  | some _ => exact absurd (done_of_reachable hreach rfl) h

/-! ## What sends no message -/

/-- The second state has come from the first without a message. -/
structure Quiet (r r' : Run) : Prop where
  sent : r'.sent = r.sent
  total : r'.total = r.total

namespace Quiet

theorem refl (r : Run) : Quiet r r :=
  ⟨rfl, rfl⟩

theorem trans {r₂ : Run} (h : Quiet r r₁) (h' : Quiet r₁ r₂) : Quiet r r₂ :=
  ⟨h'.sent.trans h.sent, h'.total.trans h.total⟩

end Quiet

theorem Look.quiet (h : Look s r r') : Quiet r r' := by
  cases h with
  | copy _ hcopied _ => cases hcopied <;> exact ⟨rfl, rfl⟩
  | _ => exact ⟨rfl, rfl⟩

theorem Looks.quiet (h : Looks s r r') : Quiet r r' := by
  induction h with
  | refl => exact .refl r
  | tail _ hlook ih => exact ih.trans hlook.quiet

theorem pull_quiet (n : Nat) (r : Run) : Quiet r (pull s w n r).1 :=
  (pull_looks n).quiet

theorem Deed.quiet {job : Job} (h : Deed s w job r r') : Quiet r r' := by
  cases h with
  | store _ hstored => cases hstored <;> exact ⟨rfl, rfl⟩
  | move hrenamed _ => cases hrenamed <;> exact ⟨rfl, rfl⟩
  | _ => exact ⟨rfl, rfl⟩

theorem perform_quiet (r : Run) (job : Job) : Quiet r (r.perform s w job) := by
  obtain ⟨r₁, hdeeds, hsettled⟩ := perform_deeds s w r job
  have hquiet : Quiet r r₁ := by
    clear hsettled
    induction hdeeds with
    | refl => exact .refl r
    | tail _ hdeed ih => exact ih.trans hdeed.quiet
  generalize r.perform s w job = r' at hsettled
  cases hsettled <;> exact ⟨hquiet.sent, hquiet.total⟩

theorem performNext_quiet (r : Run) : Quiet r (r.performNext s w) := by
  unfold performNext
  split
  · exact .refl r
  · next job queue _ =>
    have hquiet := perform_quiet (s := s) (w := w)
      { r with queue, history.taken := job :: r.history.taken } job
    exact ⟨hquiet.sent, hquiet.total⟩

/-! ## Tables that are open -/

theorem performNext_sameTables (r : Run) : SameTables r (r.performNext s w) := by
  unfold performNext
  split
  · exact .refl r
  · next job queue _ =>
    have hkept := perform_kept s w { r with queue, history.taken := job :: r.history.taken } job
    exact ⟨hkept.primary, hkept.target, hkept.library⟩

theorem reportProgress_sameTables (r : Run) : SameTables r r.reportProgress := by
  obtain ⟨_, _, hkeeps⟩ := r.reportProgress_keeps
  rw [hkeeps]
  exact ⟨rfl, rfl, fun _ => rfl⟩

/-- Gathering fails where taking candidates does; otherwise a job is done, and the run goes on
    to the next phase if no candidate is left. -/
theorem gather_cases (s : Setup) (w : Services) (r : Run) :
    (∃ r₁ failure, pull s w s.batch r = (r₁, .error failure) ∧
        r.gather s w = (r₁, .error failure)) ∨
      ∃ r₁ phase, pull s w s.batch r = (r₁, .ok ()) ∧
        phase = (if r₁.source = none then .drain else r.phase) ∧
        r.gather s w = (({ r₁ with phase }.performNext s w).reportProgress, .ok ()) := by
  have hcourse := (pull_looks (s := s) (w := w) (r := r) s.batch).sameCourse
  unfold gather
  rcases hpulled : pull s w s.batch r with ⟨r₁, failure | _⟩
  · exact .inl ⟨r₁, failure, rfl, rfl⟩
  · refine .inr ⟨r₁, _, rfl, rfl, ?_⟩
    rw [hpulled] at hcourse
    dsimp only
    by_cases hsource : r₁.source = none
    · rw [if_pos (by simp [hsource]), if_pos hsource]
    · rw [if_neg (by simpa using hsource), if_neg hsource, ← show r₁.phase = r.phase from hcourse.phase]

theorem gather_sameTables (r : Run) : SameTables r (r.gather s w).1 := by
  have hpull := (pull_looks (s := s) (w := w) (r := r) s.batch).sameTables
  rcases gather_cases s w r with ⟨r₁, failure, hpulled, heq⟩ | ⟨r₁, phase, hpulled, -, heq⟩ <;>
    rw [heq] <;> rw [hpulled] at hpull
  · exact hpull
  · have hnoted : SameTables r₁ { r₁ with phase } := ⟨rfl, rfl, fun _ => rfl⟩
    exact (hpull.trans hnoted).trans
      ((performNext_sameTables _).trans (reportProgress_sameTables _))

theorem drain_sameTables (r : Run) : SameTables r (r.drain s w) := by
  unfold drain
  split
  · exact ⟨rfl, rfl, fun _ => rfl⟩
  · exact (performNext_sameTables r).trans (reportProgress_sameTables _)

/-- The tables are open that the mode asks for. -/
structure TablesOpen (s : Setup) (r : Run) : Prop where
  primary : r.primary.isSome
  target : r.target.isSome = s.mode.isDestructive

theorem SameTables.opened (h : SameTables r r') (ho : TablesOpen s r) : TablesOpen s r' :=
  ⟨h.primary_isSome.trans ho.primary, h.target_isSome.trans ho.target⟩

theorem openPrimary_opened (ht : r.target.isSome = s.mode.isDestructive)
    (h : r.openPrimary s w = (r', .ok ())) : TablesOpen s r' := by
  unfold openPrimary at h
  split at h
  · cases h
  · next r₁ table hopen =>
    obtain ⟨_, _, hkeeps⟩ := openTable_filesOnly (w := w) (r := r) s.databasePath
    rw [hopen] at hkeeps
    cases h
    subst hkeeps
    exact ⟨rfl, ht⟩

/-- Opening the tables opens those that the mode asks for. -/
theorem start_opened (ht : r.target = none) (h : r.start s w = (r', .ok ())) : TablesOpen s r' := by
  unfold start at h
  split at h
  · next hd =>
    split at h
    · cases h
    · next r₁ htarget =>
      refine openPrimary_opened ?_ h
      unfold openTarget at htarget
      rw [hd]
      iterate 3
        split at htarget
        · cases htarget
      cases htarget
      rfl
  · next hd => exact openPrimary_opened (by rw [ht]; simpa using hd) h

theorem chooseNextId_keeps (s : Setup) (w : Services) (r : Run) :
    ∃ nextId moment, (r.chooseNextId s w).1 = { r with nextId, moment } := by
  unfold chooseNextId
  split
  · split
    · exact ⟨r.nextId, r.moment + 1, rfl⟩
    · split
      · exact ⟨r.nextId, r.moment + 1, rfl⟩
      · exact ⟨_, r.moment + 1, rfl⟩
  · exact ⟨r.nextId, r.moment, rfl⟩

/-- A run that is stopped does not find out where candidates come from. -/
theorem openSource_keeps (s : Setup) (w : Services) (r : Run) :
    ∃ source total moment, (r.openSource s w).1 = { r with source, total, moment } ∧
      (r.stopped → source = r.source) := by
  unfold openSource
  split
  · exact ⟨r.source, r.total, r.moment, rfl, fun _ => rfl⟩
  · next hstop =>
    split
    · exact ⟨_, _, r.moment, rfl, fun h => absurd h hstop⟩
    · split
      · exact ⟨r.source, r.total, r.moment + 1, rfl, fun _ => rfl⟩
      · split
        · exact ⟨r.source, r.total, r.moment + 1, rfl, fun _ => rfl⟩
        · exact ⟨_, _, r.moment + 1, rfl, fun h => absurd h hstop⟩

/-- Preparing changes these, and where it succeeds it says that nothing is done. -/
theorem prepare_keeps (s : Setup) (w : Services) (r : Run) :
    ∃ nextId source total moment phase sent,
      (r.prepare s w).1 = { r with nextId, source, total, moment, phase, sent } ∧
        (r.stopped → source = r.source) ∧
        sent = match (r.prepare s w).2 with
          | .ok () => r.sent ++ [.progress 0]
          | .error _ => r.sent := by
  obtain ⟨nextId, moment, hchoose⟩ := chooseNextId_keeps s w r
  unfold prepare
  split
  · next heq =>
    rw [heq] at hchoose
    exact ⟨nextId, r.source, r.total, moment, r.phase, _, hchoose, fun _ => rfl, rfl⟩
  · next r₁ heq =>
    rw [heq] at hchoose
    obtain ⟨source, total, moment', hopen, hstop⟩ := openSource_keeps s w r₁
    rw [show r₁ = _ from hchoose] at hopen hstop
    split
    · next heq' =>
      rw [show r₁ = _ from hchoose] at heq'
      rw [heq'] at hopen
      exact ⟨nextId, source, total, moment', r.phase, _, hopen, hstop, rfl⟩
    · next r₂ heq' =>
      rw [show r₁ = _ from hchoose] at heq'
      rw [heq'] at hopen
      refine ⟨nextId, source, total, moment', .gather, _, ?_, hstop, rfl⟩
      dsimp only at hopen ⊢
      rw [hopen]
      rfl

theorem prepare_sameTables (r : Run) : SameTables r (r.prepare s w).1 := by
  obtain ⟨_, _, _, _, _, _, hkeeps, -, -⟩ := prepare_keeps s w r
  rw [hkeeps]
  exact ⟨rfl, rfl, fun _ => rfl⟩

/-- **Between opening and closing, the tables are open that the mode asks for.** -/
theorem opened_of_reachable {o : Option Failure} (h : Reachable s w files o r) :
    (r.phase = .start → r.target = none) ∧
      (r.phase ∈ [.prepare, .gather, .drain, .finish] → TablesOpen s r) := by
  induction h with
  | new => exact ⟨fun _ => rfl, fun hphase => by simp [Run.new] at hphase⟩
  | @control _ r message _ ih =>
    rcases r.control_cases message with heq | heq <;> rw [heq]
    · exact ih
    · exact ⟨ih.1, fun hphase => ⟨(ih.2 hphase).primary, (ih.2 hphase).target⟩⟩
  | @step _ r r' p _ hs ih =>
    have hact := (act_of_step_ok hs).1
    -- No step leads back to the start, and none closes a table before the end.
    have hnext : r'.phase ≠ .start ∧ (r'.phase = .done ∨ TablesOpen s r') := by
      cases act_cases hact with
      | start hphase hact hnext =>
        exact ⟨by rw [hnext]; decide, .inr (start_opened (ih.1 hphase) hact)⟩
      | prepare hphase hact hnext =>
        have hsame := prepare_sameTables (s := s) (w := w) r
        rw [hact] at hsame
        exact ⟨by rw [hnext]; decide, .inr (hsame.opened (ih.2 (by simp [hphase])))⟩
      | gather hphase hact hnext =>
        have hsame := gather_sameTables (s := s) (w := w) r
        rw [hact] at hsame
        refine ⟨?_, .inr (hsame.opened (ih.2 (by simp [hphase])))⟩
        rcases hnext with hnext | hnext <;> rw [hnext] <;> decide
      | drain hphase hnext =>
        refine ⟨?_, .inr ((drain_sameTables r).opened (ih.2 (by simp [hphase])))⟩
        rcases hnext with hnext | hnext <;> rw [hnext] <;> decide
      | finish _ _ hnext => exact ⟨by rw [hnext]; decide, .inl hnext⟩
      | done hphase => exact ⟨by rw [hphase]; decide, .inl hphase⟩
    refine ⟨fun hstart => absurd hstart hnext.1, fun hphase => hnext.2.resolve_left fun hdone => ?_⟩
    simp [hdone] at hphase
  | fail _ hs _ =>
    obtain ⟨r₁, -, rfl⟩ := act_of_step_error hs
    exact ⟨fun hstart => (by cases hstart), fun hphase => (by simp [Run.fail] at hphase)⟩

end SongLibrary.Reconcile.Run
