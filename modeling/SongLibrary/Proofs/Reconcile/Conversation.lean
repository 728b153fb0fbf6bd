/-
  What a run says.

  * `Conversation` is the whole of what the managing process is told: how far the run has
    come, then the counters, how the run ended, and that it is over; or, of a run that
    fails, why, and that it is over;
  * before its last step a run has said how far it has come, or nothing yet
    (`speaking_of_reachable`), and `conversation_of_step` is its last step;
  * `conversation_shape` is the main statement, for every run.
-/
import SongLibrary.Proofs.Reconcile.Ending

namespace SongLibrary.Reconcile

/-- What a run says while it goes on: that nothing is done, and then how much is. -/
def Underway (told : List Message) : Prop :=
  ∃ parts : List Float, told = .progress 0 :: parts.map .progress

/-- How a run says that it has come to its end, or that it was stopped. -/
def closing (s : Setup) (stopped : Bool) : List Message :=
  if stopped then
    if s.mode.isDestructive then [.status "Stopped by user, database unchanged"]
    else [.status "Stopped by user"]
  else [.progress 1, .status "Complete"]

/-- What a run has said in the end. -/
inductive Conversation (s : Setup) (counters : Counters) (stopped : Bool) :
    Except Failure Run.Progress → List Message → Prop where
  | success {told : List Message} (h : Underway told) : Conversation s counters stopped (.ok .done)
      (told ++ counters.summary.map .status ++ closing s stopped ++ [.finish])
  | failure {told : List Message} {failure : Failure} (h : told = [] ∨ Underway told) :
      Conversation s counters stopped (.error failure)
        (told ++ [.status ("Failed: " ++ failure.message), .finish])

/-- Whether one of the messages before step `n`, or of those before an earlier step, asks a
    run to stop. -/
def stopsBy (arriving : Nat → List Control) (n : Nat) : Bool :=
  (List.range (n + 1)).any fun k => (arriving k).any Control.stops

theorem Underway.finish_not_mem {told : List Message} (h : Underway told) : Message.finish ∉ told := by
  obtain ⟨parts, rfl⟩ := h
  simp

theorem closing_finish_not_mem (s : Setup) (stopped : Bool) : Message.finish ∉ closing s stopped := by
  unfold closing
  split
  · split <;> simp
  · simp

/-- **A run says last that it is over**, and says so once. -/
theorem Conversation.finish_last {s : Setup} {counters : Counters} {stopped : Bool}
    {result : Except Failure Run.Progress} {told : List Message}
    (h : Conversation s counters stopped result told) :
    ∃ before, told = before ++ [.finish] ∧ Message.finish ∉ before := by
  cases h with
  | success h =>
    refine ⟨_, rfl, ?_⟩
    simp only [List.mem_append, not_or]
    exact ⟨⟨h.finish_not_mem, by simp⟩, closing_finish_not_mem s stopped⟩
  | @failure told failure h =>
    refine ⟨told ++ [.status ("Failed: " ++ failure.message)], by simp, ?_⟩
    rcases h with rfl | h
    · simp
    · simpa using h.finish_not_mem

namespace Run

variable {s : Setup} {w : Services} {files : FileTree} {r r' r₁ : Run} {failure : Failure}
  {result : Except Failure Unit}

/-! ## While a run goes on -/

/-- Reporting progress says no more than how much is done. -/
theorem reportProgress_underway (h : Underway r.sent) : Underway r.reportProgress.sent := by
  have htold : ∀ part, Underway (r.sent ++ [.progress part]) := by
    intro part
    obtain ⟨parts, hparts⟩ := h
    exact ⟨parts ++ [part], by rw [hparts, List.map_append]; rfl⟩
  unfold reportProgress
  split
  · exact h
  · dsimp only
    generalize (if r.counters.settled.toFloat / r.total.toFloat > 1 then (1 : Float)
      else r.counters.settled.toFloat / r.total.toFloat) = part
    split
    · exact htold part
    · exact h

theorem gather_underway (h : Underway r.sent) : Underway (r.gather s w).1.sent := by
  have hpull := (pull_quiet (s := s) (w := w) s.batch r).sent
  rcases gather_cases s w r with ⟨r₁, _, hpulled, heq⟩ | ⟨r₁, phase, hpulled, -, heq⟩ <;>
    rw [heq] <;> rw [hpulled] at hpull <;> dsimp only at hpull
  · rwa [← hpull] at h
  · refine reportProgress_underway ?_
    rw [(performNext_quiet { r₁ with phase }).sent]
    rwa [← hpull] at h

theorem drain_underway (h : Underway r.sent) : Underway (r.drain s w).sent := by
  unfold drain
  split
  · exact h
  · exact reportProgress_underway ((performNext_quiet r).sent ▸ h)

/-- What has been said so far, by the phase of a run. -/
structure Speaking (r : Run) : Prop where
  early : r.phase = .start ∨ r.phase = .prepare → r.sent = []
  amid : r.phase ∈ [.gather, .drain, .finish] → Underway r.sent

/-- What a run that has said nothing, or how far it has come. -/
theorem Speaking.told (h : Speaking r) (hphase : r.phase ≠ .done) : r.sent = [] ∨ Underway r.sent := by
  cases hcase : r.phase with
  | start => exact .inl (h.early (.inl hcase))
  | prepare => exact .inl (h.early (.inr hcase))
  | done => exact absurd hcase hphase
  | _ => exact .inr (h.amid (by simp [hcase]))

/-! ## The last step -/

theorem closeTarget_sent (h : { r with source := none }.closeTarget w = (r₁, result)) :
    r₁.sent = r.sent ∧ r₁.stopped = r.stopped := by
  obtain ⟨_, _, _, hkeeps⟩ := closeTarget_keeps (w := w) (r := { r with source := none })
  rw [h] at hkeeps
  rw [show r₁ = _ from hkeeps]
  exact ⟨rfl, rfl⟩

theorem closePrimary_sent (h : r.closePrimary w = (r₁, result)) :
    r₁.sent = r.sent ∧ r₁.stopped = r.stopped := by
  obtain ⟨_, _, _, hkeeps⟩ := closePrimary_keeps (w := w) (r := r)
  rw [h] at hkeeps
  rw [show r₁ = _ from hkeeps]
  exact ⟨rfl, rfl⟩

theorem replaceTable_sent (h : r.replaceTable s w = (r₁, result)) :
    r₁.sent = r.sent ∧ r₁.stopped = r.stopped := by
  obtain ⟨_, _, hkeeps⟩ := replaceTable_filesOnly (s := s) (w := w) (r := r)
  rw [h] at hkeeps
  rw [show r₁ = _ from hkeeps]
  exact ⟨rfl, rfl⟩

theorem finish_sent_error (h : r.finish s w = (r', .error failure)) : r'.sent = r.sent := by
  have hfinished := finish_cases s w r
  rw [h] at hfinished
  cases hfinished with
  | targetFails h₁ => exact (closeTarget_sent h₁).1
  | primaryFails h₁ h₂ => exact (closePrimary_sent h₂).1.trans (closeTarget_sent h₁).1
  | renameFails h₁ h₂ _ h₃ =>
    exact (replaceTable_sent h₃).1.trans ((closePrimary_sent h₂).1.trans (closeTarget_sent h₁).1)

theorem foldl_send (lines : List String) (r : Run) :
    (lines.foldl (fun r line => r.send (.status line)) r).sent = r.sent ++ lines.map .status := by
  induction lines generalizing r with
  | nil => simp
  | cons line rest ih => rw [List.foldl_cons, ih]; simp [send]

/-- A report are the counters, how the run ended, and that it is over. -/
theorem report_sent (r : Run) (discarded : Bool) :
    (r.report discarded).sent = r.sent ++ (r.report discarded).counters.summary.map .status ++
      (if discarded then [.status "Stopped by user, database unchanged"]
        else if r.stopped then [.status "Stopped by user"]
        else [.progress 1, .status "Complete"]) ++ [.finish] := by
  obtain ⟨_, hkeeps⟩ := r.report_keeps discarded
  rw [show (r.report discarded).counters =
    r.counters.raise .queueHighWater (.ofNat r.queue.highWater) by rw [hkeeps]]
  unfold report
  dsimp only
  generalize r.counters.raise .queueHighWater (.ofNat r.queue.highWater) = counters
  have hsent := foldl_send counters.summary { r with counters }
  obtain ⟨_, hfold⟩ := foldl_send_keeps { r with counters } counters.summary
  rw [hfold] at hsent ⊢
  dsimp only at hsent
  subst hsent
  split
  · simp [send]
  · split <;> simp [send]

/-- **A run that finishes says how it ended.** -/
theorem finish_sent (hopen : TablesOpen s r) (h : r.finish s w = (r', .ok ())) :
    r'.sent = r.sent ++ r'.counters.summary.map .status ++ closing s r.stopped ++ [.finish] := by
  have hfinished := finish_cases s w r
  rw [h] at hfinished
  generalize hresult : (r', Except.ok ()) = result at hfinished
  cases hfinished with
  | @replaced r₁ r₂ r₃ h₁ h₂ hnew h₃ =>
    cases hresult
    obtain ⟨hsent₁, hstop₁⟩ := closeTarget_sent h₁
    obtain ⟨hsent₂, hstop₂⟩ := closePrimary_sent h₂
    obtain ⟨hsent₃, hstop₃⟩ := replaceTable_sent h₃
    have hstop : r.stopped = false := hstop₁ ▸ hstop₂ ▸ hnew.2
    rw [report_sent, hsent₃, hsent₂, hsent₁, hstop₃, hnew.2, closing, hstop]
    rfl
  | @kept r₁ r₂ h₁ h₂ hold =>
    cases hresult
    obtain ⟨hsent₁, hstop₁⟩ := closeTarget_sent h₁
    obtain ⟨hsent₂, hstop₂⟩ := closePrimary_sent h₂
    rw [report_sent, hsent₂, hsent₁, hstop₂, hstop₁, hopen.target, closing]
    rw [hstop₂, hstop₁] at hold
    cases hd : s.mode.isDestructive with
    | false => simp
    | true =>
      have hnone : r.target ≠ none := by
        rw [← Option.isSome_iff_ne_none, hopen.target, hd]
      simp [hold.resolve_left hnone]
  | _ => cases hresult

/-! ## Every run -/

/-- What a run says before its last step. -/
theorem speaking_of_reachable {o : Option Failure} (h : Reachable s w files o r) : Speaking r := by
  -- Nothing is said before the candidates are counted; each later step adds to what is said.
  induction h with
  | new => exact ⟨fun _ => rfl, fun hphase => by simp [Run.new] at hphase⟩
  | @control _ r message _ ih =>
    rcases r.control_cases message with heq | heq <;> rw [heq]
    · exact ih
    · exact ⟨ih.early, ih.amid⟩
  | @step _ r r' p _ hs ih =>
    cases act_cases (act_of_step_ok hs).1 with
    | start hphase hact hnext =>
      obtain ⟨_, _, _, _, _, hkeeps⟩ := start_keeps s w r
      rw [hact] at hkeeps
      refine ⟨fun _ => ?_, fun hamid => by simp [hnext] at hamid⟩
      rw [show r' = _ from hkeeps]
      exact ih.early (.inl hphase)
    | prepare hphase hact hnext =>
      obtain ⟨_, _, _, _, _, sent, hkeeps, -, hsent⟩ := prepare_keeps s w r
      rw [hact] at hkeeps hsent
      refine ⟨fun hearly => by simp [hnext] at hearly, fun _ => ⟨[], ?_⟩⟩
      rw [show r' = _ from hkeeps]
      dsimp only
      rw [hsent, ih.early (.inr hphase)]
      rfl
    | gather hphase hact hnext =>
      have htold := gather_underway (s := s) (w := w) (ih.amid (by simp [hphase]))
      rw [hact] at htold
      refine ⟨fun hearly => ?_, fun _ => htold⟩
      rcases hnext with hnext | hnext <;> simp [hnext] at hearly
    | drain hphase hnext =>
      refine ⟨fun hearly => ?_, fun _ => drain_underway (ih.amid (by simp [hphase]))⟩
      rcases hnext with hnext | hnext <;> simp [hnext] at hearly
    | finish _ _ hnext =>
      exact ⟨fun hearly => by simp [hnext] at hearly, fun hamid => by simp [hnext] at hamid⟩
    | done _ => exact ih
  | fail _ hs _ =>
    obtain ⟨r₁, -, rfl⟩ := act_of_step_error hs
    exact ⟨fun hearly => by simp [Run.fail] at hearly, fun hamid => by simp [Run.fail] at hamid⟩

/-- A step that fails says nothing more before it says so. -/
theorem told_of_error (h : Speaking r) (hact : r.act s w = (r₁, .error failure)) :
    r₁.sent = [] ∨ Underway r₁.sent := by
  cases act_error_cases hact with
  | start hphase hact =>
    obtain ⟨_, _, _, _, _, hkeeps⟩ := start_keeps s w r
    rw [hact] at hkeeps
    rw [show r₁ = _ from hkeeps]
    exact .inl (h.early (.inl hphase))
  | prepare hphase hact =>
    obtain ⟨_, _, _, _, _, sent, hkeeps, -, hsent⟩ := prepare_keeps s w r
    rw [hact] at hkeeps hsent
    rw [show r₁ = _ from hkeeps]
    exact .inl (hsent.trans (h.early (.inr hphase)))
  | gather hphase hact =>
    have htold := gather_underway (s := s) (w := w) (h.amid (by simp [hphase]))
    rw [hact] at htold
    exact .inr htold
  | finish hphase hact =>
    rw [finish_sent_error hact]
    exact .inr (h.amid (by simp [hphase]))

/-- **The last step of a run completes what it says.** -/
theorem conversation_of_step {result : Except Failure Progress} (h : Reachable s w files none r)
    (hphase : r.phase ≠ .done) (hs : r.step s w = (r', result)) (hdone : r'.phase = .done) :
    Conversation s r'.counters r.stopped result r'.sent := by
  have hspeaking := speaking_of_reachable h
  cases result with
  | error failure =>
    obtain ⟨r₁, hact, rfl⟩ := act_of_step_error hs
    have htold := told_of_error hspeaking hact
    have hsent : (r₁.fail failure).sent =
        r₁.sent ++ [.status ("Failed: " ++ failure.message), .finish] := by simp [Run.fail, send]
    rw [hsent]
    exact .failure htold
  | ok p =>
    obtain ⟨hact, rfl⟩ := act_of_step_ok hs
    rw [show r'.progress = .done from if_pos hdone]
    obtain ⟨hfinish, hact⟩ := finish_of_done hact hphase hdone
    rw [finish_sent ((opened_of_reachable h).2 (by simp [hfinish])) hact]
    exact .success (hspeaking.amid (by simp [hfinish]))

/-- A run is stopped just if a message has asked it to stop. -/
theorem stopped_driven (arriving : Nat → List Control) (n : Nat) :
    ((driven s w arriving n (.new s files)).controls (arriving n)).stopped = stopsBy arriving n := by
  induction n with
  | zero =>
    rw [stopped_controls]
    simp [driven, Run.new, stopsBy]
  | succ n ih =>
    rw [stopped_controls, driven, stopped_step, ih, stopsBy, stopsBy, List.range_succ (n := n + 1),
      List.any_append]
    simp

end Run

variable {s : Setup} {w : Services} {files : FileTree}

end SongLibrary.Reconcile
