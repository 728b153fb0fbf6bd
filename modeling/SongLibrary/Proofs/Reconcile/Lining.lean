/-
  The songs of a table are found one after the other.

  Where candidates come from a table, their ids are those that a visit comes to, in order, and
  jobs are for some of them, in the same order (`Run.Lined`).  Doing a job changes what the
  table has of a song, but no id (`Supplied.performNext_table`), so this holds however far the
  jobs are behind the candidates.

  * `Run.Lined.look`, `Run.Lined.performNext`: what taking a candidate and doing a job keep;
  * `Run.Lining.step` is the same for a step, and `Run.lining_of_reachable` for every state of
    a run;
  * `no_song_twice` is the main statement.
-/
import SongLibrary.Proofs.Reconcile.Supply

namespace SongLibrary.Reconcile

namespace Run

variable {s : Setup} {w : Services} {files : FileTree} {r r' r₁ : Run} {ids : List Int64}
  {order : SongTable.Order}

/-! ## Ids -/

/-- The ids of the candidates found, in order. -/
def foundIds (r : Run) : List (Option Int64) :=
  r.history.found.reverse.map fun c => c.record.bind Song.id

/-- The ids of the songs still to come. -/
def aheadIds (r : Run) : List (Option Int64) :=
  match r.source with
  | some (.table visit) => (visit.rest ((r.primary.map OpenTable.table).getD .empty)).map Song.id
  | _ => []

/-- The ids of the songs that there have been jobs for, in order. -/
def jobIds (r : Run) : List (Option Int64) :=
  (r.history.taken.reverse ++ r.queue.toList).map fun job => job.existing.bind Song.id

/-- The candidates found and those to come have the given ids, unless the run was stopped, and
    jobs are for candidates found, in their order. -/
structure Lined (ids : List Int64) (r : Run) : Prop where
  found : r.foundIds ++ r.aheadIds <+: ids.map some
  all : r.stopped = false → r.foundIds ++ r.aheadIds = ids.map some
  jobs : r.jobIds.Sublist r.foundIds
  sized : ∀ visit, r.source = some (.table visit) → 0 < visit.pageSize

theorem aheadIds_none (h : r.source = none) : r.aheadIds = [] := by
  rw [aheadIds, h]

theorem aheadIds_visit {visit : SongTable.Visit} {primary : OpenTable}
    (hsource : r.source = some (.table visit)) (hprimary : r.primary = some primary) :
    r.aheadIds = (visit.rest primary.table).map Song.id := by
  rw [aheadIds, hsource, hprimary]
  rfl

theorem jobIds_of_sameAccounts (h : SameAccounts r r') : r'.jobIds = r.jobIds := by
  rw [Run.jobIds, h.history, h.queue, Run.jobIds]

theorem jobIds_congr (htaken : r'.history.taken = r.history.taken)
    (hqueue : r'.queue.toList = r.queue.toList) : r'.jobIds = r.jobIds := by
  rw [jobIds, htaken, hqueue, jobIds]

theorem Looks.taken (h : Looks s r r') : r'.history.taken = r.history.taken := by
  induction h with
  | refl => rfl
  | tail _ hlook ih =>
    rw [← ih]
    cases hlook with
    | copy _ hcopied _ => cases hcopied <;> rfl
    | _ => rfl

/-- Doing a job leaves the jobs that there have been. -/
theorem jobIds_performNext (r : Run) : (r.performNext s w).jobIds = r.jobIds := by
  obtain ⟨hqueue, htaken⟩ := performNext_queue (s := s) (w := w) r
  rw [jobIds, hqueue, htaken, jobIds]
  cases r.queue.toList <;> simp

namespace Lined

/-- What matters are the candidates and the jobs. -/
theorem congr (h : Lined ids r) (hfound : r'.history.found = r.history.found)
    (hsource : r'.source = r.source) (hahead : r'.aheadIds = r.aheadIds)
    (hjobs : r'.jobIds = r.jobIds) (hstopped : r'.stopped = r.stopped) : Lined ids r' := by
  have hids : r'.foundIds = r.foundIds := by rw [foundIds, hfound, foundIds]
  exact ⟨by rw [hids, hahead]; exact h.found, by rw [hids, hahead, hstopped]; exact h.all,
    by rw [hids, hjobs]; exact h.jobs, hsource ▸ h.sized⟩

theorem control (h : Lined ids r) (message : Control) : Lined ids (r.control message) := by
  rcases r.control_cases message with heq | heq <;> rw [heq]
  · exact h
  · have hjobs : { r with stopped := true, queue := r.queue.close, source := none }.jobIds = r.jobIds :=
      jobIds_congr rfl (Queue.toList_close r.queue)
    refine ⟨?_, fun hno => (by cases hno), ?_, fun _ hno => (by cases hno)⟩
    · rw [aheadIds_none rfl, List.append_nil]
      exact (List.prefix_append _ _).trans h.found
    · rw [hjobs]
      exact h.jobs

/-- The jobs are for some of the songs, in their order. -/
theorem jobs_sublist (h : Lined ids r) : r.jobIds.Sublist (ids.map some) :=
  h.jobs.trans ((List.prefix_append _ _).trans h.found).sublist

/-! ### Candidates -/

/-- The next candidate is the first of the songs to come, and its job comes after the others. -/
theorem look (h : Lined ids r) (hs : Supplied s r) (horigin : s.mode.origin = .table order)
    {c : Candidate} (hnext : r.nextCandidate s w = (r₁, .ok (some c))) :
    Lined ids (r₁.classify s w c).1 := by
  obtain ⟨source, hbooks, htakes⟩ := nextCandidate_books hnext
  obtain ⟨_, _, hkeeps⟩ := r.nextCandidate_keeps s w
  rw [hnext] at hkeeps
  dsimp only at hkeeps
  have hlooks := classify_looks (s := s) (w := w) (r := r₁) c
  have hfound := classify_found (s := s) (w := w) (r := r₁) c
  obtain ⟨hsource, hprimary, job?, hqueue, hjobs⟩ := classify_jobs s w r₁ c
  have htaken := hlooks.taken
  have hstopped := hlooks.sameCourse.stopped
  generalize (r₁.classify s w c).1 = r₂ at *
  have hhistory₁ : r₁.history = r.history := by rw [hkeeps]
  rw [hhistory₁] at hfound htaken
  rw [show r₁.stopped = r.stopped by rw [hkeeps]] at hstopped
  rw [show r₁.source = some source from congrArg Books.source hbooks] at hsource
  rw [show r₁.primary = r.primary from congrArg Books.primary hbooks] at hprimary
  rw [show r₁.queue.toList = r.queue.toList from congrArg Books.jobs hbooks] at hqueue
  -- The candidate leaves the songs to come, and its job, if any, comes behind the others.
  have hids : r₂.foundIds = r.foundIds ++ [c.record.bind Song.id] := by
    rw [foundIds, hfound, List.reverse_cons, List.map_append]
    rfl
  have hnew : r₂.jobIds = r.jobIds ++ job?.toList.map fun job => job.existing.bind Song.id := by
    rw [jobIds, htaken, hqueue, ← List.append_assoc, List.map_append]
    rfl
  cases htakes with
  | file hold =>
    have hfiles := hs.origin _ hold
    rw [horigin] at hfiles
    cases hfiles
  | @visited visit visit' primary song hold hopen hvisit =>
    obtain ⟨hrest, -, hsize⟩ := SongTable.Visit.rest_of_next hvisit
    have hahead : r.aheadIds = song.id :: r₂.aheadIds := by
      rw [aheadIds_visit hold hopen, hrest, List.map_cons, aheadIds_visit hsource (hprimary.trans hopen)]
    have hsame : r₂.foundIds ++ r₂.aheadIds = r.foundIds ++ r.aheadIds := by
      rw [hids, hahead, List.append_assoc]
      rfl
    refine ⟨hsame ▸ h.found, fun hgoing => hsame ▸ h.all (hstopped ▸ hgoing), ?_, ?_⟩
    · rw [hnew, hids]
      refine h.jobs.append ?_
      cases job? with
      | none => exact List.nil_sublist _
      | some job =>
        have hmode : s.mode ≠ .rebuild := fun hrebuild => by
          rw [hrebuild] at horigin
          cases horigin
        have hown := hjobs job rfl song rfl hmode
        simp [hown]
    · intro visit hvisit
      rw [hsource] at hvisit
      cases hvisit
      exact hsize.symm ▸ h.sized _ hold

/-- Where there is no next candidate, no song is to come. -/
theorem exhaust (h : Lined ids r) (hs : Supplied s r) (horigin : s.mode.origin = .table order)
    (hnext : r.nextCandidate s w = (r₁, .ok none)) : Lined ids { r₁ with source := none } := by
  obtain ⟨_, _, hkeeps⟩ := r.nextCandidate_keeps s w
  rw [hnext] at hkeeps
  dsimp only at hkeeps
  have hahead : r.aheadIds = [] := by
    have hend := nextCandidate_end hnext
    generalize hbooks : r.books = b at hend
    have hbsource : r.source = b.source := congrArg Books.source hbooks
    have hbprimary : r.primary = b.primary := congrArg Books.primary hbooks
    cases hend with
    | none hsource => exact aheadIds_none (hbsource.trans hsource)
    | files hsource =>
      have hfiles := hs.origin _ (hbsource.trans hsource)
      rw [horigin] at hfiles
      cases hfiles
    | table hsource hprimary hlast =>
      rw [aheadIds_visit (hbsource.trans hsource) (hbprimary.trans hprimary),
        SongTable.Visit.rest_of_end (h.sized _ (hbsource.trans hsource)) hlast]
      rfl
  have hfound := h.found
  have hall := h.all
  rw [hahead] at hfound hall
  rw [hkeeps]
  exact ⟨hfound, hall, h.jobs, fun _ hno => (by cases hno)⟩

/-- Taking candidates finds them in order. -/
theorem pull (h : Lined ids r) (hs : Supplied s r) (horigin : s.mode.origin = .table order) (n : Nat) :
    Lined ids (Run.pull s w n r).1 := by
  induction n generalizing r with
  | zero => exact h
  | succ n ih =>
    unfold Run.pull
    split
    · exact h
    · split
      · next r₁ _ hnext =>
        have hsource := nextCandidate_error_source hnext
        obtain ⟨_, _, hkeeps⟩ := r.nextCandidate_keeps s w
        rw [hnext] at hkeeps
        dsimp only at hkeeps ⊢
        have hprimary : r₁.primary = r.primary := by rw [hkeeps]
        refine h.congr (by rw [hkeeps]) hsource ?_ (by rw [hkeeps]; rfl) (by rw [hkeeps])
        rw [aheadIds, hsource, hprimary, aheadIds]
      · next hnext => exact h.exhaust hs horigin hnext
      · next r₁ c hnext =>
        obtain ⟨hs₁, hroom, hrecord⟩ := hs.next hnext
        have h₂ := h.look hs horigin hnext
        have hs₂ := hs₁.classify (w := w) hroom hrecord
        split
        · next hclassify =>
          rw [hclassify] at h₂
          exact h₂
        · next hclassify =>
          rw [hclassify] at h₂ hs₂
          exact ih h₂ hs₂

/-! ### Jobs -/

/-- **Doing a job leaves the songs to come as they are**, as far as ids go. -/
theorem performNext (h : Lined ids r) (hs : Supplied s r) (hopen : TablesOpen s r) :
    Lined ids (r.performNext s w) := by
  obtain ⟨hids, hlibrary⟩ := hs.performNext_table (w := w) hopen
  obtain ⟨-, -, hfound, hstopped, hsource⟩ := performNext_keeps (s := s) (w := w) r
  refine h.congr hfound hsource ?_ (jobIds_performNext r) hstopped
  unfold aheadIds
  rw [hsource]
  cases hold : r.source with
  | none => rfl
  | some source =>
    cases source with
    | files paths => rfl
    | table visit => exact hs.rest_ids hold hlibrary hids

theorem reportProgress (h : Lined ids r) : Lined ids r.reportProgress := by
  obtain ⟨_, _, hkeeps⟩ := r.reportProgress_keeps
  rw [hkeeps]
  exact h.congr rfl rfl rfl rfl rfl

/-! ### Steps -/

theorem gather (h : Lined ids r) (hs : Supplied s r) (horigin : s.mode.origin = .table order)
    (hopen : TablesOpen s r) : Lined ids (r.gather s w).1 := by
  have hpull := h.pull (w := w) hs horigin s.batch
  have hsupplied := hs.pull (w := w) s.batch
  have hsame := (pull_looks (s := s) (w := w) (r := r) s.batch).sameTables
  rcases gather_cases s w r with ⟨r₁, failure, hpulled, heq⟩ | ⟨r₁, phase, hpulled, -, heq⟩ <;>
    rw [heq] <;> rw [hpulled] at hpull hsame hsupplied
  · exact hpull
  · have hopen₁ := hsame.opened hopen
    have hnoted : Lined ids { r₁ with phase } := hpull.congr rfl rfl rfl rfl rfl
    exact (hnoted.performNext (hsupplied.congr rfl rfl rfl rfl rfl)
      ⟨hopen₁.primary, hopen₁.target⟩).reportProgress

theorem drain (h : Lined ids r) (hs : Supplied s r) (hopen : TablesOpen s r) :
    Lined ids (r.drain s w) := by
  unfold Run.drain
  split
  · exact h.congr rfl rfl rfl rfl rfl
  · exact (h.performNext hs hopen).reportProgress

end Lined

/-- Where a run finds its candidates that is not stopped: in the table that it has opened. -/
theorem prepare_visit {primary : OpenTable} (horigin : s.mode.origin = .table order)
    (hprimary : r.primary = some primary) (hgoing : r.stopped = false)
    (h : r.prepare s w = (r', .ok ())) :
    r'.source = some (.table (primary.table.visit order pageSize)) ∧ r'.primary = some primary := by
  obtain ⟨nextId, moment, hchoose⟩ := chooseNextId_keeps s w r
  unfold prepare at h
  split at h
  · cases h
  · next r₁ h₁ =>
    rw [h₁] at hchoose
    obtain rfl : r₁ = { r with nextId, moment } := hchoose
    split at h
    · cases h
    · next r₂ h₂ =>
      cases h
      unfold openSource at h₂
      rw [if_neg (by simp [hgoing]), horigin] at h₂
      dsimp only at h₂
      split at h₂
      · cases h₂
      · rw [hprimary] at h₂
        cases h₂
        exact ⟨rfl, rfl⟩

/-- **In the beginning, all songs of a visit are to come.** -/
theorem Lined.prepare {primary : OpenTable} (horigin : s.mode.origin = .table order)
    (hprimary : r.primary = some primary) (hfound : r.history.found = [])
    (htaken : r.history.taken = []) (hqueue : r.queue.toList = []) (hsource : r.source = none)
    (h : r.prepare s w = (r', .ok ())) :
    Lined ((primary.table.seen order).map Row.id) r' := by
  have hsame := SameAccounts.prepare (s := s) (w := w) (r := r)
  obtain ⟨hsameQueue, hstop⟩ := prepare_sameQueue s w r
  rw [h] at hsame hsameQueue hstop
  dsimp only at hsame hsameQueue hstop
  have hids : r'.foundIds = [] := by rw [foundIds, hsame.history, hfound]; rfl
  have hjobs : r'.jobIds = [] := by rw [jobIds, hsame.history, hsame.queue, htaken, hqueue]; rfl
  have hjobs' : r'.jobIds.Sublist r'.foundIds := by rw [hjobs]; exact List.nil_sublist _
  -- A run that is stopped has no visit, and nothing is to come.
  cases hstopped : r.stopped with
  | true =>
    have hnone : r'.source = none := (hstop hstopped).trans hsource
    refine ⟨?_, fun hgoing => ?_, hjobs', fun _ hsome => ?_⟩
    · rw [hids, aheadIds_none hnone]
      exact List.nil_prefix
    · rw [hsameQueue.stopped, hstopped] at hgoing
      cases hgoing
    · rw [hnone] at hsome
      cases hsome
  | false =>
    obtain ⟨hvisit, hopen⟩ := prepare_visit horigin hprimary hstopped h
    have hahead : r'.aheadIds = ((primary.table.seen order).map Row.id).map some := by
      rw [aheadIds_visit hvisit hopen, SongTable.Visit.rest_visit, List.map_map, List.map_map]
      rfl
    refine ⟨?_, fun _ => ?_, hjobs', fun visit hsome => ?_⟩
    · rw [hids, hahead]
      exact List.prefix_refl _
    · rw [hids, hahead]
      rfl
    · rw [hvisit] at hsome
      cases hsome
      exact Nat.lt_of_lt_of_le Nat.one_pos (Nat.le_max_right ..)

/-- Once no candidate is to come, closing the tables changes nothing about them. -/
theorem Lined.finish (h : Lined ids r) (hsource : r.source = none) : Lined ids (r.finish s w).1 := by
  have hsame := SameAccounts.finish (s := s) (w := w) (r := r)
  obtain ⟨hsameQueue, hnone, -⟩ := finish_sameQueue s w r
  refine h.congr hsameQueue.found (hnone.trans hsource.symm) ?_ (jobIds_of_sameAccounts hsame)
    hsameQueue.stopped
  rw [aheadIds_none hnone, aheadIds_none hsource]

/-! ## Every state of a run -/

/-- What is known of the songs of a table that a run comes to, by the phase of the run. -/
structure Lining (order : SongTable.Order) (known : SongTable → Prop) (o : Option Failure) (r : Run) :
    Prop where
  early : r.phase = .start ∨ r.phase = .prepare → r.history.taken = []
  late : o = none → r.phase ≠ .start → r.phase ≠ .prepare →
    (∃ table, known table ∧ Lined ((table.seen order).map Row.id) r) ∧
      (r.phase ≠ .gather → r.source = none)
  jobs : ∃ table : SongTable, r.jobIds.Sublist (((table.seen order).map Row.id).map some)

variable {known : SongTable → Prop} {o : Option Failure}

theorem Lining.of_lined {table : SongTable} (hknown : known table)
    (h : Lined ((table.seen order).map Row.id) r) (hphase : r.phase ≠ .start ∧ r.phase ≠ .prepare)
    (hended : r.phase ≠ .gather → r.source = none) : Lining order known o r :=
  ⟨fun hearly => (hearly.elim hphase.1 hphase.2).elim, fun _ _ _ => ⟨⟨table, hknown, h⟩, hended⟩,
    ⟨table, h.jobs_sublist⟩⟩

/-- The same holds when a message arrives. -/
theorem Lining.control (h : Lining order known o r) (message : Control) :
    Lining order known o (r.control message) := by
  have hcontrol : (r.control message).phase = r.phase ∧
      (r.control message).history = r.history ∧ (r.control message).queue.toList = r.queue.toList ∧
      (r.source = none → (r.control message).source = none) := by
    rcases r.control_cases message with heq | heq <;> rw [heq]
    · exact ⟨rfl, rfl, rfl, id⟩
    · exact ⟨rfl, rfl, Queue.toList_close r.queue, fun _ => rfl⟩
  obtain ⟨hphase, hhistory, hqueue, hsource⟩ := hcontrol
  refine ⟨?_, fun ho hstart hprepare => ?_, ?_⟩
  · rw [hphase, hhistory]
    exact h.early
  · rw [hphase] at hstart hprepare ⊢
    obtain ⟨⟨table, hknown, hlined⟩, hended⟩ := h.late ho hstart hprepare
    exact ⟨⟨table, hknown, hlined.control message⟩, fun hne => hsource (hended hne)⟩
  · rw [jobIds_congr (by rw [hhistory]) hqueue]
    exact h.jobs

/-- The same holds after a step. -/
theorem Lining.step (horigin : s.mode.origin = .table order)
    (hknown : r.phase = .prepare → ∀ primary ∈ r.primary, known primary.table)
    (hreach : Reachable s w files none r) (h : Lining order known none r)
    (hact : r.act s w = (r', .ok ())) : Lining order known none r' := by
  have hcounted := counted_of_reachable hreach
  have hopened := (opened_of_reachable hreach).2
  cases act_cases hact with
  | start hphase hact hnext =>
    have hsame : SameAccounts r r' := by
      have hstart := SameAccounts.start (s := s) (w := w) (r := r)
      rwa [hact] at hstart
    refine ⟨fun _ => ?_, fun _ _ hno => absurd hnext hno, ?_⟩
    · rw [hsame.history]
      exact h.early (.inl hphase)
    · rw [jobIds_of_sameAccounts hsame]
      exact h.jobs
  | prepare hphase hact hnext =>
    obtain ⟨hfound, hqueue, hsource⟩ := hcounted.early (.inr hphase)
    obtain ⟨primary, hprimary⟩ :=
      Option.isSome_iff_exists.1 (hopened (by simp [hphase])).primary
    exact .of_lined (hknown hphase primary hprimary)
      (.prepare horigin hprimary hfound (h.early (.inr hphase)) hqueue hsource hact)
      (by simp [hnext]) (by simp [hnext])
  | gather hphase hact hnext =>
    obtain ⟨⟨table, htable, hlined⟩, -⟩ := h.late rfl (by simp [hphase]) (by simp [hphase])
    have hkept := hlined.gather (w := w) (hcounted.amid (by simp [hphase])) horigin
      (hopened (by simp [hphase]))
    have hended := (gather_slices hact).2
    rw [hact] at hkept
    rw [hphase] at hended
    refine .of_lined htable hkept ?_ hended
    rcases hnext with hnext | hnext <;> simp [hnext]
  | drain hphase hnext =>
    obtain ⟨⟨table, htable, hlined⟩, hended⟩ := h.late rfl (by simp [hphase]) (by simp [hphase])
    refine .of_lined htable
      (hlined.drain (hcounted.amid (by simp [hphase])) (hopened (by simp [hphase]))) ?_ fun _ => ?_
    · rcases hnext with hnext | hnext <;> simp [hnext]
    · rw [(drain_slices r).2.1]
      exact hended (by simp [hphase])
  | finish hphase hact hnext =>
    obtain ⟨⟨table, htable, hlined⟩, hended⟩ := h.late rfl (by simp [hphase]) (by simp [hphase])
    have hkept := hlined.finish (s := s) (w := w) (hended (by simp [hphase]))
    have hnone := (finish_sameQueue s w r).2.1
    rw [hact] at hkept hnone
    exact .of_lined htable hkept (by simp [hnext]) fun _ => hnone
  | done _ => exact h

/-- What a step that fails leaves of the jobs: taking candidates may have added some. -/
theorem Lining.jobs_of_error {failure : Failure} (horigin : s.mode.origin = .table order)
    (hreach : Reachable s w files none r) (h : Lining order known none r)
    (hact : r.act s w = (r', .error failure)) :
    ∃ table : SongTable, r'.jobIds.Sublist (((table.seen order).map Row.id).map some) := by
  have hsame : SameAccounts r r' → ∃ table : SongTable,
      r'.jobIds.Sublist (((table.seen order).map Row.id).map some) := fun hsame => by
    rw [jobIds_of_sameAccounts hsame]
    exact h.jobs
  cases act_error_cases hact with
  | start _ hact =>
    have hstart := SameAccounts.start (s := s) (w := w) (r := r)
    rw [hact] at hstart
    exact hsame hstart
  | prepare _ hact =>
    have hprepare := SameAccounts.prepare (s := s) (w := w) (r := r)
    rw [hact] at hprepare
    exact hsame hprepare
  | gather hphase hact =>
    obtain ⟨⟨table, -, hlined⟩, -⟩ := h.late rfl (by simp [hphase]) (by simp [hphase])
    have hnext := hlined.gather (w := w) ((counted_of_reachable hreach).amid (by simp [hphase]))
      horigin ((opened_of_reachable hreach).2 (by simp [hphase]))
    rw [hact] at hnext
    exact ⟨table, hnext.jobs_sublist⟩
  | finish _ hact =>
    have hfinish := SameAccounts.finish (s := s) (w := w) (r := r)
    rw [hact] at hfinish
    exact hsame hfinish

/-- **The songs of a table are found one after the other**, however a run goes, and there are
    jobs for them in the same order. -/
theorem lining_of_reachable (known : SongTable → Prop) (horigin : s.mode.origin = .table order)
    (hknown : ∀ {r : Run}, Reachable s w files none r → r.phase = .prepare →
      ∀ primary ∈ r.primary, known primary.table)
    (h : Reachable s w files o r) : Lining order known o r := by
  induction h with
  | new =>
    exact ⟨fun _ => rfl, fun _ hphase => absurd rfl hphase, ⟨.empty, List.nil_sublist _⟩⟩
  | control message _ ih => exact ih.control message
  | @step o r r' p hreach hs ih =>
    have hact := (act_of_step_ok hs).1
    cases o with
    | none => exact ih.step horigin (hknown hreach) hreach hact
    | some _ =>
      rw [act_of_done (done_of_reachable hreach rfl)] at hact
      cases hact
      exact ih
  | @fail o r r' failure hreach hs ih =>
    obtain rfl := no_failure_before hreach hs
    obtain ⟨r₁, hact, rfl⟩ := act_of_step_error hs
    obtain ⟨table, hjobs⟩ := ih.jobs_of_error horigin hreach hact
    exact ⟨fun hearly => by simp [Run.fail] at hearly, fun hnone => (by cases hnone), table, hjobs⟩

end Run

/-- **No song is handled twice.**  A visit comes to the rows of a table strictly in order and
    ends; by id it does so also where other columns of the table change between any two pulls;
    and a run over a table by id has jobs for songs with strictly increasing ids. -/
theorem no_song_twice :
    (∀ (t : SongTable) (order : SongTable.Order) (pageSize : Nat), ∃ rows : List Row,
      rows ⊆ t.rows ∧
      (rows.Pairwise fun a b => match order with
        | .byId => a.id < b.id
        | .byLocation => a.uri < b.uri ∨ a.uri = b.uri ∧ a.id < b.id) ∧
      ∀ n, (t.visit order pageSize).pulls (List.replicate n t) =
        (rows.map (fun row : Row => some row.song) ++ List.replicate n none).take n) ∧
    (∀ (t : SongTable) (pageSize : Nat) (tables : List SongTable),
      (∀ t' ∈ tables, t'.rows.map Row.id = t.rows.map Row.id) → ∃ ids : List Int64,
        ids ⊆ t.rows.map Row.id ∧ ids.Pairwise (· < ·) ∧
        ((t.visit .byId pageSize).pulls tables).map (·.map Song.id) =
          (ids.map (fun id => some (some id)) ++ List.replicate tables.length none).take
            tables.length) ∧
    ∀ (s : Setup) (w : Services) (files : FileTree) (o : Option Failure) (r : Run),
      s.mode ∈ [.updateTags, .updateItunes, .writeTags, .reorganize] → Reachable s w files o r →
        ∃ ids : List Int64, ids.Pairwise (· < ·) ∧
          (r.history.taken.reverse ++ r.queue.toList).map (fun job => job.existing.bind Song.id) =
            ids.map some := by
  refine ⟨fun t order pageSize => ?_, fun t pageSize tables hids => ?_, fun s w files o r hmode h => ?_⟩
  · refine ⟨t.seen order, t.seen_subset order, (t.pairwise_seen order).imp fun hab => ?_,
      SongTable.Visit.pulls_replicate t order pageSize⟩
    cases order with
    | byId => exact SongTable.comesBefore_byId.1 hab
    | byLocation => exact SongTable.comesBefore_byLocation.1 hab
  · refine ⟨(t.seen .byId).map Row.id, List.map_subset _ (t.seen_subset .byId), t.sorted_ids_seen, ?_⟩
    rw [SongTable.Visit.ids_pulls t pageSize hids, List.map_map]
    rfl
  · have horigin : s.mode.origin = .table .byId := by
      simp only [List.mem_cons, List.not_mem_nil, or_false] at hmode
      rcases hmode with heq | heq | heq | heq <;> rw [heq] <;> rfl
    obtain ⟨table, hjobs⟩ := (Run.lining_of_reachable (fun _ => True) horigin
      (fun _ _ _ _ => trivial) h).jobs
    obtain ⟨ids, hids, heq⟩ := List.sublist_map_iff.1 hjobs
    exact ⟨ids, table.sorted_ids_seen.sublist hids, heq⟩

/-- A run over three records of one file has a job for each of them. -/
theorem no_song_twice_threefold :
    ∃ r : Run, Reachable (sampleSetup .updateTags) sampleServices threefoldFiles none r ∧
      r.history.taken.length = 2 ∧ r.queue.toList.length = 1 ∧
      ∃ ids : List Int64, ids.length = 3 ∧ ids.Pairwise (· < ·) ∧
        (r.history.taken.reverse ++ r.queue.toList).map (fun job => job.existing.bind Song.id) =
          ids.map some := by
  have h : Reachable (sampleSetup .updateTags) sampleServices threefoldFiles none
      (Run.steps (sampleSetup .updateTags) sampleServices 4
        (.new (sampleSetup .updateTags) threefoldFiles)) := Run.reachable_steps .new (by decide +kernel)
  obtain ⟨ids, hsorted, hids⟩ := no_song_twice.2.2 _ _ _ _ _ (by decide) h
  have htaken : (Run.steps (sampleSetup .updateTags) sampleServices 4
      (.new (sampleSetup .updateTags) threefoldFiles)).history.taken.length = 2 := by decide +kernel
  have hqueue : (Run.steps (sampleSetup .updateTags) sampleServices 4
      (.new (sampleSetup .updateTags) threefoldFiles)).queue.toList.length = 1 := by decide +kernel
  refine ⟨_, h, htaken, hqueue, ids, ?_, hsorted, hids⟩
  have hlength := congrArg List.length hids
  rw [List.length_map, List.length_append, List.length_reverse, htaken, hqueue, List.length_map]
    at hlength
  exact hlength.symm

end SongLibrary.Reconcile
