/-
  The states that a run can be in.

  * `Reachable` holds of the states after any steps, where any messages arrive
    between them and the world answers as it likes;
  * `Run.FilesOnly` relates states that differ in files alone, which is what the
    operations on the files of tables do (`openTable_filesOnly`,
    `commit_filesOnly`, `removeFile_filesOnly`, ...).
-/
import SongLibrary.Reconcile.Step

namespace SongLibrary

/-- Whether an operation on a song table is what failed. -/
def Failure.isOfTable : Failure → Bool
  | database => true
  | context _ cause => cause.isOfTable
  | io _ | metadata _ _ | organization _ | protocol _ | configuration _ => false

namespace Reconcile

/-- The states of a run on some files, each with the failure that ended the run,
    if one did. -/
inductive Reachable (s : Setup) (w : Services) (files : FileTree) : Option Failure → Run → Prop where
  | new : Reachable s w files none (.new s files)
  /-- A message from the managing process arrives. -/
  | control {o : Option Failure} {r : Run} (message : Control) (h : Reachable s w files o r) :
      Reachable s w files o (r.control message)
  | step {o : Option Failure} {r r' : Run} {p : Run.Progress} (h : Reachable s w files o r)
      (hs : r.step s w = (r', .ok p)) : Reachable s w files o r'
  | fail {o : Option Failure} {r r' : Run} {failure : Failure} (h : Reachable s w files o r)
      (hs : r.step s w = (r', .error failure)) : Reachable s w files (some failure) r'

namespace Run

variable {s : Setup} {w : Services} {r : Run}

/-! ## Messages -/

/-- A message is passed over, or it makes the run stop. -/
theorem control_cases (r : Run) (message : Control) :
    r.control message = r ∨
      r.control message = { r with stopped := true, queue := r.queue.close, source := none } := by
  unfold control requestStop
  split
  · split
    · exact .inl rfl
    · exact .inr rfl
  · exact .inl rfl

/-! ## Steps -/

/-- A step that succeeds acts, and tells whether the run is over. -/
theorem act_of_step_ok {r' : Run} {p : Progress} (h : r.step s w = (r', .ok p)) :
    r.act s w = (r', .ok ()) ∧ p = r'.progress := by
  unfold step at h
  split at h
  · next r₁ hact => cases h; exact ⟨hact, rfl⟩
  · cases h

/-- A step that fails acts, and ends the run. -/
theorem act_of_step_error {r' : Run} {failure : Failure} (h : r.step s w = (r', .error failure)) :
    ∃ r₁, r.act s w = (r₁, .error failure) ∧ r' = r₁.fail failure := by
  unfold step at h
  split at h
  · cases h
  · next r₁ _ hact => cases h; exact ⟨r₁, hact, rfl⟩

/-- A run that is over stays as it is. -/
theorem act_of_done (h : r.phase = .done) : r.act s w = (r, .ok ()) := by
  simp [act, h]

/-- A run that is over does not fail. -/
theorem running_of_step_error {r' : Run} {failure : Failure}
    (h : r.step s w = (r', .error failure)) : r.phase ≠ .done := by
  intro hdone
  obtain ⟨_, hact, -⟩ := act_of_step_error h
  rw [act_of_done hdone] at hact
  cases hact

/-- A run that failed is over. -/
theorem done_of_reachable {files : FileTree} {o : Option Failure} (h : Reachable s w files o r)
    (ho : o.isSome) : r.phase = .done := by
  induction h with
  | new => cases ho
  | @control _ r message _ ih =>
    rcases r.control_cases message with heq | heq <;> rw [heq] <;> exact ih ho
  | step _ hs ih =>
    have hact := (act_of_step_ok hs).1
    rw [act_of_done (ih ho)] at hact
    cases hact
    exact ih ho
  | fail _ hs _ =>
    obtain ⟨r₁, -, rfl⟩ := act_of_step_error hs
    rfl

/-- Only a run that has not failed can fail. -/
theorem no_failure_before {files : FileTree} {o : Option Failure} {r' : Run} {failure : Failure}
    (h : Reachable s w files o r) (hs : r.step s w = (r', .error failure)) : o = none := by
  cases o with
  | none => rfl
  | some _ => exact absurd (done_of_reachable h rfl) (running_of_step_error hs)

/-- The state after some steps, where no message arrives. -/
def steps (s : Setup) (w : Services) : Nat → Run → Run
  | 0, r => r
  | n + 1, r => ((steps s w n r).step s w).1

theorem reachable_steps {files : FileTree} {o : Option Failure} {n : Nat}
    (h : Reachable s w files o r) (hok : ∀ k < n, ((r.steps s w k).step s w).2.isOk) :
    Reachable s w files o (r.steps s w n) := by
  induction n with
  | zero => exact h
  | succ n ih =>
    have hn := hok n (Nat.lt_succ_self n)
    have hreached := ih fun k hk => hok k (Nat.lt_succ_of_lt hk)
    rcases hs : (r.steps s w n).step s w with ⟨r', failure | p⟩
    · rw [hs] at hn
      cases hn
    · have hnext := hreached.step hs
      rwa [show r' = r.steps s w (n + 1) by rw [steps, hs]] at hnext

/-! ## One operation after another -/

/-- Where the first of two operations gives a property and the second keeps it,
    both together give it, also if one fails. -/
theorem of_andThen {P : Run → Prop} {first : Run × Except Failure Unit}
    {next : Run → Run × Except Failure Unit} (h : P first.1) (hnext : ∀ r, P r → P (next r).1) :
    P (match first with
      | (r, Except.error failure) => (r, Except.error failure)
      | (r, Except.ok ()) => next r).1 := by
  obtain ⟨r, failure | _⟩ := first
  · exact h
  · exact hnext r h

/-! ## Operations on the files of tables -/

/-- The second state is the first with other files, after some questions. -/
def FilesOnly (r r' : Run) : Prop :=
  ∃ files moment, r' = { r with files, moment }

theorem FilesOnly.trans {r₁ r₂ r₃ : Run} (h : FilesOnly r₁ r₂) (h' : FilesOnly r₂ r₃) :
    FilesOnly r₁ r₃ := by
  obtain ⟨files, moment, rfl⟩ := h
  obtain ⟨files', moment', rfl⟩ := h'
  exact ⟨files', moment', rfl⟩

theorem openTable_filesOnly (path : Path) : FilesOnly r (r.openTable w path).1 := by
  unfold openTable
  split
  · exact ⟨r.files, r.moment + 1, rfl⟩
  · split
    · next files _ => exact ⟨files, r.moment + 1, rfl⟩
    · next files _ _ =>
      dsimp only
      split <;> exact ⟨files, r.moment + 2, rfl⟩

/-- A table that is opened is the one that its file has. -/
theorem openTable_ok {r' : Run} {path : Path} {opened : OpenTable}
    (h : r.openTable w path = (r', .ok opened)) :
    ∃ (t : FileTree) (table : SongTable) (moment : Nat), r' = { r with files := t, moment } ∧
      r.files.openTable path = (t, some table) ∧
      opened = ⟨path, r.files.tableFile? path, table⟩ := by
  unfold openTable at h
  dsimp only at h
  split at h
  · cases h
  · split at h
    · cases h
    · next hopen =>
      split at h
      · cases h
      · cases h
        exact ⟨_, _, _, rfl, hopen, rfl⟩

theorem commit_filesOnly (t : OpenTable) : FilesOnly r (r.commit w t).1 := by
  unfold commit
  split
  · exact ⟨r.files, r.moment + 1, rfl⟩
  · split
    · exact ⟨r.files, r.moment + 1, rfl⟩
    · next l _ => exact ⟨r.files.keepTable l t.table, r.moment + 1, rfl⟩

theorem removeFile_filesOnly (path : Path) : FilesOnly r (r.removeFile w path).1 := by
  unfold removeFile
  dsimp only
  split
  · next files _ => exact ⟨files, r.moment + 1, rfl⟩
  · exact ⟨r.files, r.moment + 1, rfl⟩
  · exact ⟨r.files, r.moment + 1, rfl⟩

theorem discard_filesOnly (t : OpenTable) : FilesOnly r (r.discard w t).1 := by
  unfold discard
  split
  · exact ⟨r.files, r.moment + 1, rfl⟩
  · exact FilesOnly.trans ⟨r.files, r.moment + 1, rfl⟩ (removeFile_filesOnly t.path)

theorem replaceTable_filesOnly : FilesOnly r (r.replaceTable s w).1 := by
  unfold replaceTable
  dsimp only
  split
  · next files _ => exact ⟨files, r.moment + 1, rfl⟩
  · exact ⟨r.files, r.moment + 1, rfl⟩

theorem openTarget_keeps :
    ∃ target files moment, (r.openTarget s w).1 = { r with target, files, moment } := by
  have hsame : ∀ {r₁ : Run}, FilesOnly r r₁ →
      ∃ target files moment, r₁ = { r with target, files, moment } := by
    rintro r₁ ⟨files, moment, rfl⟩
    exact ⟨r.target, files, moment, rfl⟩
  have h₁ := removeFile_filesOnly (w := w) (r := r) s.newDatabasePath
  unfold openTarget
  split
  · next hremove₁ =>
    rw [hremove₁] at h₁
    exact hsame h₁
  · next r₁ hremove₁ =>
    rw [hremove₁] at h₁
    have h₂ := h₁.trans
      (removeFile_filesOnly (w := w) (r := r₁) (s.newDatabasePath.addSuffix "-journal"))
    split
    · next hremove₂ =>
      rw [hremove₂] at h₂
      exact hsame h₂
    · next r₂ hremove₂ =>
      rw [hremove₂] at h₂
      have h₃ := h₂.trans (openTable_filesOnly (w := w) (r := r₂) s.newDatabasePath)
      split
      · next hopen =>
        rw [hopen] at h₃
        exact hsame h₃
      · next target hopen =>
        rw [hopen] at h₃
        obtain ⟨files, moment, rfl⟩ := h₃
        exact ⟨some target, files, moment, rfl⟩

theorem closeTarget_keeps :
    ∃ target files moment, (r.closeTarget w).1 = { r with target, files, moment } := by
  unfold closeTarget
  split
  · exact ⟨r.target, r.files, r.moment, rfl⟩
  · next target _ =>
    dsimp only
    split
    · obtain ⟨files, moment, heq⟩ := discard_filesOnly (w := w) (r := { r with target := none }) target
      exact ⟨none, files, moment, heq⟩
    · obtain ⟨files, moment, heq⟩ := commit_filesOnly (w := w) (r := { r with target := none }) target
      exact ⟨none, files, moment, heq⟩

theorem closePrimary_keeps :
    ∃ primary files moment, (r.closePrimary w).1 = { r with primary, files, moment } := by
  unfold closePrimary
  split
  · exact ⟨r.primary, r.files, r.moment, rfl⟩
  · next primary _ =>
    obtain ⟨files, moment, heq⟩ := commit_filesOnly (w := w) (r := { r with primary := none }) primary
    exact ⟨none, files, moment, heq⟩

end Run

/-! ## A library of one song -/

/-- A run on the library in `/music`, where files are moved to their titles. -/
def sampleSetup (mode : Mode) : Setup :=
  .of { library := { orgPath := "%TITLE%", autoOrganize := true } } mode (.ofString "/music")
    (.ofString "/songs.db") none .linux

/-- A library of one file. -/
def sampleFiles : FileTree where
  entries :=
    [([.ofString "music"], .directory),
      ([.ofString "music", .ofString "a.mp3"], .file (.text "a song"))]

/-- Services that find a length and a title in every text. -/
def sampleServices : Services where
  readTags _ path content :=
    match content with
    | .text _ => .ok ⟨.ofList [(.duration, "180000"), (.title, "t")], false⟩
    | _ => .error (.metadata path.shown "no tags can be read")
  writeTags _ _ content _ _ _ := .ok (0, content)
  trackTags? _ _ := none
  wants _ := false
  now _ := "2020-01-01"

end Reconcile

end SongLibrary
