/-
  Every run ends, and only a table can make it fail.

  * `exists_end`: a run is over after two steps for each candidate that it finds, and five
    more, and it finds no more candidates than it has counted;
  * `TableFault` lists the operations on tables that may fail in a step, with the failure
    that is reported; a step fails for no other reason (`fault_of_step`);
  * `run_ends` is the main statement.  What the world answers when tags are read or written,
    when the track list is asked, when a file is moved or a record stored is nothing to it.
-/
import Mathlib.Data.Nat.Find
import SongLibrary.Proofs.Reconcile.Supply

namespace SongLibrary.Reconcile

namespace Run

variable {s : Setup} {w : Services} {files : FileTree} {r r' r₁ : Run} {n : Nat}

/-! ## The end -/

/-- What was counted in the beginning stays counted. -/
theorem step_total (hphase : r.phase ≠ .start ∧ r.phase ≠ .prepare) :
    (r.step s w).1.total = r.total := by
  have hact : (r.act s w).1.total = r.total := by
    unfold act
    split
    · next hstart => exact absurd hstart hphase.1
    · next hprepare => exact absurd hprepare hphase.2
    · have hpull := (pull_quiet (s := s) (w := w) s.batch r).total
      rcases gather_cases s w r with ⟨r₁, _, hpulled, heq⟩ | ⟨r₁, phase, hpulled, -, heq⟩ <;>
        rw [heq] <;> rw [hpulled] at hpull
      · exact hpull
      · obtain ⟨_, _, hkeeps⟩ := ({ r₁ with phase }.performNext s w).reportProgress_keeps
        rw [hkeeps]
        exact (performNext_quiet _).total.trans hpull
    · unfold drain
      split
      · rfl
      · obtain ⟨_, _, hkeeps⟩ := (r.performNext s w).reportProgress_keeps
        rw [hkeeps]
        exact (performNext_quiet r).total
    · exact (finish_sameQueue s w r).2.2
    · rfl
  unfold step
  split <;> next heq => rw [heq] at hact; exact hact

/-- A run that is not over after two steps has counted its candidates. -/
theorem late_of_not_done (hbatch : 0 < s.batch) {arriving : Nat → List Control}
    (hn : 2 ≤ n) (h : ∀ m ≤ n, (driven s w arriving m (.new s files)).phase ≠ .done) :
    (driven s w arriving n (.new s files)).phase ≠ .start ∧
      (driven s w arriving n (.new s files)).phase ≠ .prepare := by
  have hsteps := (paced_driven hbatch fun m hm => h m (Nat.le_of_lt hm)).steps
  have hcounted := counted_of_reachable (reachable_driven (h n (Nat.le_refl n)))
  constructor <;> intro hphase
  · obtain ⟨hfound, -, -⟩ := hcounted.early (.inl hphase)
    rw [hphase, hfound] at hsteps
    simp only [Phase.level, List.length_nil] at hsteps
    omega
  · obtain ⟨hfound, -, -⟩ := hcounted.early (.inr hphase)
    rw [hphase, hfound] at hsteps
    simp only [Phase.level, List.length_nil] at hsteps
    omega

variable (s w) in
/-- **A run ends** after two steps for each candidate at most, and five more. -/
theorem exists_end (hbatch : 0 < s.batch) (arriving : Nat → List Control) (files : FileTree) :
    ∃ n, (driven s w arriving n (.new s files)).phase = .done ∧
      (∀ m < n, (driven s w arriving m (.new s files)).phase ≠ .done) ∧
      n ≤ 2 * (driven s w arriving n (.new s files)).history.found.length + 5 ∧
      (driven s w arriving n (.new s files)).history.found.length ≤
        (driven s w arriving n (.new s files)).total := by
  have hends : ∃ n, (driven s w arriving n (.new s files)).phase = .done := by
    by_contra hnever
    simp only [not_exists] at hnever
    -- The number counted is the same from the second step on, and bounds the steps.
    have htotal : ∀ m, (driven s w arriving (2 + m) (.new s files)).total =
        (driven s w arriving 2 (.new s files)).total := by
      intro m
      induction m with
      | zero => rfl
      | succ m ih =>
        obtain ⟨hphase, -, -, hcontrols⟩ :=
          controls_keeps (driven s w arriving (2 + m) (.new s files)) (arriving (2 + m))
        rw [← Nat.add_assoc, driven, step_total, hcontrols, ih]
        rw [hphase]
        exact late_of_not_done hbatch (Nat.le_add_right 2 m) fun k _ => hnever k
    have hpaced : Paced (2 + (2 * (driven s w arriving 2 (.new s files)).total + 5))
        (driven s w arriving (2 + (2 * (driven s w arriving 2 (.new s files)).total + 5))
          (.new s files)) := paced_driven hbatch fun m _ => hnever m
    have hsteps := hpaced.steps
    have hbound := (counted_of_reachable (reachable_driven
      (hnever (2 + (2 * (driven s w arriving 2 (.new s files)).total + 5))))).bound
    rw [htotal] at hbound
    have hlevel : ∀ phase : Phase, phase.level ≤ 5 := by intro phase; cases phase <;> decide
    have hlast := hlevel (driven s w arriving
      (2 + (2 * (driven s w arriving 2 (.new s files)).total + 5)) (.new s files)).phase
    omega
  have hfirst : ∀ m < Nat.find hends, (driven s w arriving m (.new s files)).phase ≠ .done :=
    fun m hm => Nat.find_min hends hm
  have hdone := Nat.find_spec hends
  have hsteps := (paced_driven hbatch hfirst).steps
  rw [hdone] at hsteps
  obtain ⟨o, hreach⟩ := exists_reachable_driven s w files arriving (Nat.find hends)
  exact ⟨_, hdone, hfirst, Nat.le_trans (Nat.le_add_right _ _) hsteps,
    (counted_of_reachable hreach).bound⟩

/-! ## What may fail -/

variable (s w) in
/-- An operation on a table that fails in a step, with the failure. -/
inductive TableFault (r : Run) : Failure → Prop where
  /-- What an earlier run left cannot be removed. -/
  | removeTable {r₁ : Run} {failure : Failure} (hd : s.mode.isDestructive)
      (h : r.removeFile w s.newDatabasePath = (r₁, .error failure)) : TableFault r failure
  | removeJournal {r₁ r₂ : Run} {failure : Failure} (hd : s.mode.isDestructive)
      (h₁ : r.removeFile w s.newDatabasePath = (r₁, .ok ()))
      (h : r₁.removeFile w (s.newDatabasePath.addSuffix "-journal") = (r₂, .error failure)) :
      TableFault r failure
  | openTarget {r₁ r₂ r₃ : Run} {failure : Failure} (hd : s.mode.isDestructive)
      (h₁ : r.removeFile w s.newDatabasePath = (r₁, .ok ()))
      (h₂ : r₁.removeFile w (s.newDatabasePath.addSuffix "-journal") = (r₂, .ok ()))
      (h : r₂.openTable w s.newDatabasePath = (r₃, .error failure)) : TableFault r failure
  | openPrimary {r₁ r₂ : Run} {failure : Failure}
      (h₁ : if s.mode.isDestructive then r.openTarget s w = (r₁, .ok ()) else r₁ = r)
      (h : r₁.openTable w s.databasePath = (r₂, .error failure)) : TableFault r failure
  /-- The greatest id cannot be read. -/
  | maxId {checkNew : Bool} (hmode : s.mode = .compact checkNew) (h : w.tableFails r.moment) :
      TableFault r .database
  /-- The songs cannot be counted. -/
  | countSongs {r₁ : Run} {order : SongTable.Order} (horigin : s.mode.origin = .table order)
      (h₁ : r.chooseNextId s w = (r₁, .ok ())) (h : w.tableFails r₁.moment) : TableFault r .database
  /-- A page of songs cannot be read. -/
  | readPage {r₁ : Run} {visit : SongTable.Visit} (h₁ : Looks s r r₁)
      (hsource : r₁.source = some (.table visit)) (hpage : visit.needsPage)
      (h : w.tableFails r₁.moment) : TableFault r .database
  /-- The record of a file cannot be looked up. -/
  | lookUp {r₁ : Run} {c : Candidate} (h₁ : Looks s r r₁) (hfound : r₁.history.found.head? = some c)
      (hrecord : c.record = none) (hmode : s.mode ≠ .rebuild) (h : w.tableFails r₁.moment) :
      TableFault r .database
  /-- The new table cannot be given up. -/
  | discard {r₁ : Run} {target : OpenTable} {failure : Failure} (ht : r.target = some target)
      (hstop : r.stopped)
      (h : { r with source := none, target := none }.discard w target = (r₁, .error failure)) :
      TableFault r failure
  | commitTarget {r₁ : Run} {target : OpenTable} {failure : Failure} (ht : r.target = some target)
      (hstop : r.stopped = false)
      (h : { r with source := none, target := none }.commit w target = (r₁, .error failure)) :
      TableFault r failure
  | commitPrimary {r₁ r₂ : Run} {primary : OpenTable} {failure : Failure}
      (h₁ : { r with source := none }.closeTarget w = (r₁, .ok ())) (hp : r₁.primary = some primary)
      (h : { r₁ with primary := none }.commit w primary = (r₂, .error failure)) :
      TableFault r failure
  /-- The new table cannot be put in the place of the old one. -/
  | replaceTable {r₁ r₂ r₃ : Run} {failure : Failure} (ht : r.target.isSome)
      (h₁ : { r with source := none }.closeTarget w = (r₁, .ok ()))
      (h₂ : r₁.closePrimary w = (r₂, .ok ())) (hstop : r₂.stopped = false)
      (h : r₂.replaceTable s w = (r₃, .error failure)) : TableFault r failure

variable {failure : Failure}

theorem openPrimary_error (h : r.openPrimary s w = (r', .error failure)) :
    r.openTable w s.databasePath = (r', .error failure) := by
  unfold openPrimary at h
  split at h
  · next hopen =>
    cases h
    exact hopen
  · cases h

theorem fault_of_start (h : r.start s w = (r', .error failure)) : TableFault s w r failure := by
  unfold start at h
  split at h
  · next hd =>
    split at h
    · next r₁ failure' htarget =>
      cases h
      unfold Run.openTarget at htarget
      split at htarget
      · next hremove =>
        cases htarget
        exact .removeTable hd hremove
      · next hremove =>
        split at htarget
        · next hjournal =>
          cases htarget
          exact .removeJournal hd hremove hjournal
        · next hjournal =>
          split at htarget
          · next hopen =>
            cases htarget
            exact .openTarget hd hremove hjournal hopen
          · cases htarget
    · next r₁ htarget => exact .openPrimary (by rwa [if_pos hd]) (openPrimary_error h)
  · next hd => exact .openPrimary (by rw [if_neg hd]) (openPrimary_error h)

theorem fault_of_prepare (hopen : r.primary.isSome) (h : r.prepare s w = (r', .error failure)) :
    TableFault s w r failure := by
  obtain ⟨primary, hprimary⟩ := Option.isSome_iff_exists.1 hopen
  unfold prepare at h
  split at h
  · next hchoose =>
    cases h
    unfold chooseNextId at hchoose
    split at hchoose
    · next hmode =>
      split at hchoose
      · next hfails =>
        cases hchoose
        exact .maxId hmode hfails
      · rw [hprimary] at hchoose
        cases hchoose
    · cases hchoose
  · next r₁ hchoose =>
    split at h
    · next hsource =>
      cases h
      have hprimary₁ : r₁.primary = some primary := by
        obtain ⟨_, _, hkeeps⟩ := chooseNextId_keeps s w r
        rw [hchoose] at hkeeps
        rw [show r₁ = _ from hkeeps]
        exact hprimary
      unfold openSource at hsource
      split at hsource
      · cases hsource
      · split at hsource
        · cases hsource
        · next horigin =>
          split at hsource
          · next hfails =>
            cases hsource
            exact .countSongs horigin hchoose hfails
          · rw [hprimary₁] at hsource
            cases hsource
    · cases h

/-- Where there is no next candidate to be had, a page of songs cannot be read. -/
theorem fault_of_nextCandidate {r₀ : Run} (hopen : r.primary.isSome) (hbefore : Looks s r₀ r)
    (h : r.nextCandidate s w = (r', .error failure)) : TableFault s w r₀ failure := by
  obtain ⟨primary, hprimary⟩ := Option.isSome_iff_exists.1 hopen
  unfold nextCandidate at h
  split at h
  · cases h
  · cases h
  · cases h
  · next visit hsource =>
    split at h
    · next hfails =>
      cases h
      rw [Bool.and_eq_true] at hfails
      exact .readPage hbefore hsource hfails.1 hfails.2
    · rw [hprimary] at h
      dsimp only at h
      split at h <;> cases h

/-- A candidate that cannot be looked at is one whose record cannot be looked up. -/
theorem fault_of_classify {r₀ : Run} {c : Candidate} (hopen : r.primary.isSome)
    (hbefore : Looks s r₀ r) (h : r.classify s w c = (r', .error failure)) :
    TableFault s w r₀ failure := by
  obtain ⟨primary, hprimary⟩ := Option.isSome_iff_exists.1 hopen
  rw [classify_eq] at h
  split at h
  · cases h
  · split at h
    · cases h
    · split at h
      · next hexisting =>
        cases h
        unfold existingRecord at hexisting
        split at hexisting
        · cases hexisting
        · next hmode =>
          split at hexisting
          · cases hexisting
          · next hrecord =>
            split at hexisting
            · next hfails =>
              cases hexisting
              exact .lookUp (hbefore.tail (.find c)) rfl hrecord hmode hfails
            · rw [show (r.see c).primary = _ from hprimary] at hexisting
              cases hexisting
      · cases h

/-- Candidates that cannot be taken are songs that cannot be read, or files whose records
    cannot be looked up. -/
theorem fault_of_pull {r₀ : Run} (hopen : r.primary.isSome) (hbefore : Looks s r₀ r) (n : Nat)
    (h : pull s w n r = (r', .error failure)) : TableFault s w r₀ failure := by
  induction n generalizing r with
  | zero => cases h
  | succ n ih =>
    unfold pull at h
    split at h
    · cases h
    · split at h
      · next hnext =>
        cases h
        exact fault_of_nextCandidate hopen hbefore hnext
      · cases h
      · next r₁ c hnext =>
        obtain ⟨source, moment, hkeeps⟩ := r.nextCandidate_keeps s w
        rw [hnext] at hkeeps
        obtain rfl : r₁ = _ := hkeeps
        have hbefore₁ := hbefore.tail (.next source moment)
        split at h
        · next hclassify =>
          cases h
          exact fault_of_classify (r := { r with source, moment }) hopen hbefore₁ hclassify
        · next r₂ hclassify =>
          have hlooked := classify_looks (s := s) (w := w) (r := { r with source, moment }) c
          rw [hclassify] at hlooked
          refine ih ?_ (hbefore₁.trans hlooked) h
          rw [hlooked.sameTables.primary_isSome]
          exact hopen

theorem fault_of_finish (h : r.finish s w = (r', .error failure)) : TableFault s w r failure := by
  have hfinished := finish_cases s w r
  rw [h] at hfinished
  cases hfinished with
  | targetFails h₁ =>
    unfold closeTarget at h₁
    dsimp only at h₁
    split at h₁
    · cases h₁
    · next target ht =>
      split at h₁
      · next hstop => exact .discard ht hstop h₁
      · next hstop => exact .commitTarget ht (by simpa using hstop) h₁
  | primaryFails h₁ h₂ =>
    unfold closePrimary at h₂
    split at h₂
    · cases h₂
    · next primary hp => exact .commitPrimary h₁ hp h₂
  | renameFails h₁ h₂ hnew h₃ => exact .replaceTable hnew.1 h₁ h₂ hnew.2 h₃

/-- **A step fails only where an operation on a table does.** -/
theorem fault_of_step (h : Reachable s w files none r) (hs : r.step s w = (r', .error failure)) :
    TableFault s w r failure := by
  obtain ⟨r₁, hact, -⟩ := act_of_step_error hs
  have hopened := (opened_of_reachable h).2
  cases act_error_cases hact with
  | start _ hact => exact fault_of_start hact
  | prepare hphase hact =>
    exact fault_of_prepare (hopened (by simp [hphase])).primary hact
  | gather hphase hact =>
    rcases gather_cases s w r with ⟨_, _, hpull, heq⟩ | ⟨_, _, _, -, heq⟩ <;> rw [hact] at heq <;>
      cases heq
    exact fault_of_pull (hopened (by simp [hphase])).primary .refl s.batch hpull
  | finish _ hact => exact fault_of_finish hact

end Run

variable {s : Setup} {w : Services} {files : FileTree}

/-- Every configuration takes candidates in each step. -/
theorem Setup.batch_of (config : Config) (mode : Mode) (musicDir databasePath : Path)
    (scanDir : Option Path) (platform : Platform) :
    0 < (Setup.of config mode musicDir databasePath scanDir platform).batch :=
  Nat.lt_of_lt_of_le Nat.one_pos (Nat.le_max_right _ _)

end SongLibrary.Reconcile
