/-
  One message is one line.

  What a run says while it goes on, its counters and how it ended are plain text, without a
  line break (`told_of_reachable`).  A failure that ends a run is worded with the path of the
  library's table as it is (`Fatal`), so its message is more than one line where that path is.
  `messages_are_lines` is the main statement: what is written splits at the ends of lines into
  the messages, just if no failure has a line break in its wording.
-/
import SongLibrary.Proofs.Path
import SongLibrary.Proofs.Reconcile.Conversation

namespace SongLibrary

/-! ## Plain text -/

namespace Text

/-- Printable characters of ASCII only. -/
def IsPlain (text : String) : Prop :=
  ∀ c ∈ text.toList, 0x20 ≤ c.toNat ∧ c.toNat < 0x7F

instance (text : String) : Decidable (IsPlain text) :=
  decidable_of_iff (text.toList.all fun c => decide (0x20 ≤ c.toNat) && decide (c.toNat < 0x7F))
    (by simp [IsPlain])

/-- The characters that end a line. -/
def lineBreaks : List Char :=
  ['\n', '\x0B', '\x0C', '\r', '\u0085', '\u2028', '\u2029']

/-- Plain text has no line break. -/
theorem IsPlain.not_mem {text : String} (h : IsPlain text) {c : Char} (hc : c ∈ lineBreaks) :
    c ∉ text.toList := by
  intro hmem
  have hbreaks : (lineBreaks.all fun c =>
      decide (c.toNat < 0x20) || decide (0x7F ≤ c.toNat)) = true := by decide
  have hbreak : c.toNat < 0x20 ∨ 0x7F ≤ c.toNat := by
    simpa using List.all_eq_true.1 hbreaks c hc
  have hcode := h c hmem
  omega

theorem IsPlain.append {a b : String} (ha : IsPlain a) (hb : IsPlain b) : IsPlain (a ++ b) := by
  intro c hc
  rw [String.toList_append, List.mem_append] at hc
  exact hc.elim (ha c) (hb c)

theorem isPlain_toString (n : Nat) : IsPlain (toString n) := by
  intro c hc
  rw [Nat.toString_eq_ofList_toDigits, String.toList_ofList] at hc
  have hdigit := Nat.isDigit_of_mem_toDigits (by decide) (by decide) hc
  simp only [Char.isDigit, Bool.and_eq_true, decide_eq_true_eq, UInt32.le_iff_toNat_le] at hdigit
  obtain ⟨hlow, hhigh⟩ := hdigit
  have hlow' : 0x30 ≤ c.toNat := hlow
  have hhigh' : c.toNat ≤ 0x39 := hhigh
  omega

theorem isPlain_writeHundredths (x : Float) : IsPlain (writeHundredths x) := by
  unfold writeHundredths
  split
  · decide
  · refine ((IsPlain.append ?_ (isPlain_toString _)).append (by decide)).append ?_
    · split <;> decide
    · split
      · exact IsPlain.append (by decide) (isPlain_toString _)
      · exact isPlain_toString _

/-- Texts that are each ended by a mark are found again at the marks, just if none holds it. -/
theorem splitOn_ended {α : Type} [BEq α] [LawfulBEq α] {mark : α} {texts : List (List α)} :
    (texts.flatMap (· ++ [mark])).splitOn mark = texts ++ [[]] ↔ ∀ text ∈ texts, mark ∉ text := by
  constructor
  · intro hsplit text htext
    have hpart : text ∈ (texts.flatMap (· ++ [mark])).splitOn mark := by
      rw [hsplit]
      exact List.mem_append_left _ htext
    exact Path.not_mem_of_mem_splitOn hpart
  · intro hnone
    rw [← Path.splitOn_flatMap_append hnone List.not_mem_nil, List.append_nil]

end Text

theorem Path.shown_addSuffix (p : Path) (suffix : String) :
    (p.addSuffix suffix).shown = p.shown ++ suffix := by
  rw [Path.shown, Path.addSuffix, Text.shownText, List.map_append, String.ofList_append]
  exact congrArg _ (Text.shownText_symbolsOf suffix)

/-- Every fault but one that is given in words is worded plainly. -/
theorem Fault.isPlain_message (fault : Fault) :
    (∃ text, fault = .other text) ∨ Text.IsPlain fault.message := by
  cases fault with
  | other text => exact .inl ⟨text, rfl⟩
  | _ => exact .inr (by decide)

namespace Reconcile

open Text (IsPlain)

/-! ## What is said of a run -/

theorem isPlain_progress (part : Float) : IsPlain (Message.progress part).line :=
  IsPlain.append (by decide) (Text.isPlain_writeHundredths _)

theorem isPlain_finish : IsPlain Message.finish.line := by decide

theorem isPlain_status {text : String} (h : IsPlain text) : IsPlain (Message.status text).line :=
  IsPlain.append (by decide) h

theorem Counters.isPlain_summary (counters : Counters) : ∀ line ∈ counters.summary, IsPlain line := by
  intro line hline
  obtain ⟨counter, -, rfl⟩ := List.mem_map.1 hline
  refine (IsPlain.append ?_ (by decide)).append (Text.isPlain_toString _)
  cases counter <;> decide

theorem Underway.isPlain {told : List Message} (h : Underway told) :
    ∀ message ∈ told, IsPlain message.line := by
  obtain ⟨parts, rfl⟩ := h
  intro message hmessage
  rcases List.mem_cons.1 hmessage with rfl | hpart
  · exact isPlain_progress 0
  · obtain ⟨part, -, rfl⟩ := List.mem_map.1 hpart
    exact isPlain_progress part

theorem isPlain_closing (s : Setup) (stopped : Bool) :
    ∀ message ∈ closing s stopped, IsPlain message.line := by
  intro message hmessage
  unfold closing at hmessage
  split at hmessage
  · split at hmessage
    · obtain rfl := List.mem_singleton.1 hmessage
      decide
    · obtain rfl := List.mem_singleton.1 hmessage
      decide
  · rcases List.mem_cons.1 hmessage with rfl | hmessage
    · exact isPlain_progress 1
    · obtain rfl := List.mem_singleton.1 hmessage
      decide

/-- How a failure is told. -/
def told : Option Failure → List Message
  | none => []
  | some failure => [.status ("Failed: " ++ failure.message), .finish]

/-- What a run has said in the end is plain, but for a failure. -/
theorem Conversation.isPlain {s : Setup} {counters : Counters} {stopped : Bool}
    {result : Except Failure Run.Progress} {sent : List Message}
    (h : Conversation s counters stopped result sent) :
    ∃ plain, (∀ message ∈ plain, IsPlain message.line) ∧
      sent = plain ++ told (match result with | .ok _ => none | .error cause => some cause) := by
  cases h with
  | @success underway h =>
    refine ⟨_, fun message hmessage => ?_, (List.append_nil _).symm⟩
    simp only [List.mem_append, List.mem_map, List.mem_singleton] at hmessage
    rcases hmessage with ((hunderway | ⟨line, hline, rfl⟩) | hclosing) | rfl
    · exact h.isPlain message hunderway
    · exact isPlain_status (counters.isPlain_summary line hline)
    · exact isPlain_closing s stopped message hclosing
    · exact isPlain_finish
  | @failure underway failure h =>
    refine ⟨underway, ?_, rfl⟩
    rcases h with rfl | h
    · simp
    · exact h.isPlain

variable {s : Setup} {w : Services} {files : FileTree} {o : Option Failure} {r r' : Run}
  {failure : Failure}

/-- **What a run has said is plain**, but for the failure that has ended it. -/
theorem told_of_reachable (h : Reachable s w files o r) :
    ∃ plain, (∀ message ∈ plain, IsPlain message.line) ∧ r.sent = plain ++ told o := by
  induction h with
  | new => exact ⟨[], by simp, rfl⟩
  | @control _ r message _ ih =>
    rcases r.control_cases message with heq | heq <;> rw [heq] <;> exact ih
  | @step o r r' p h hs ih =>
    by_cases hdone : r.phase = .done
    · have hact := (Run.act_of_step_ok hs).1
      rw [Run.act_of_done hdone] at hact
      cases hact
      exact ih
    · obtain rfl : o = none := Option.eq_none_iff_forall_ne_some.2 fun failure hsome =>
        hdone (Run.done_of_reachable h (by rw [hsome]; rfl))
      by_cases hover : r'.phase = .done
      · exact (Run.conversation_of_step h hdone hs hover).isPlain
      · refine ⟨r'.sent, ?_, (List.append_nil _).symm⟩
        rcases (Run.speaking_of_reachable (h.step hs)).told hover with hnone | hunderway
        · simp [hnone]
        · exact hunderway.isPlain
  | @fail o r r' failure h hs _ =>
    obtain rfl := Run.no_failure_before h hs
    exact (Run.conversation_of_step h (Run.running_of_step_error hs) hs
      (Run.done_of_reachable (h.fail hs) rfl)).isPlain

/-! ## The tables of a run and their paths -/

namespace Run

/-- The tables of the second state are those of the first, with other rows. -/
structure SamePaths (r r' : Run) : Prop where
  primary : r'.primary.map OpenTable.path = r.primary.map OpenTable.path
  target : r'.target.map OpenTable.path = r.target.map OpenTable.path

theorem SamePaths.trans {r₁ r₂ r₃ : Run} (h : SamePaths r₁ r₂) (h' : SamePaths r₂ r₃) :
    SamePaths r₁ r₃ :=
  ⟨h'.primary.trans h.primary, h'.target.trans h.target⟩

theorem Deed.samePaths {job : Job} (h : Deed s w job r r') : SamePaths r r' := by
  cases h with
  | store _ hstored =>
    cases hstored with
    | failed _ _ _ => exact ⟨rfl, rfl⟩
    | added _ _ _ htarget _ => exact ⟨rfl, by rw [htarget]; rfl⟩
    | saved _ _ hprimary _ => exact ⟨by rw [hprimary]; rfl, rfl⟩
  | move hrenamed _ => cases hrenamed <;> exact ⟨rfl, rfl⟩
  | _ => exact ⟨rfl, rfl⟩

theorem performNext_samePaths (r : Run) : SamePaths r (r.performNext s w) := by
  unfold performNext
  split
  · exact ⟨rfl, rfl⟩
  · next job queue _ =>
    obtain ⟨r₁, hdeeds, hsettled⟩ :=
      perform_deeds s w { r with queue, history.taken := job :: r.history.taken } job
    have hdone : SamePaths r r₁ := by
      clear hsettled
      induction hdeeds with
      | refl => exact ⟨rfl, rfl⟩
      | tail _ hdeed ih => exact ih.trans hdeed.samePaths
    refine hdone.trans ?_
    generalize perform s w _ job = r₂ at hsettled
    cases hsettled <;> exact ⟨rfl, rfl⟩

theorem Looks.samePaths (h : Looks s r r') : SamePaths r r' := by
  induction h with
  | refl => exact ⟨rfl, rfl⟩
  | tail _ hlook ih =>
    refine ih.trans ?_
    cases hlook with
    | copy _ hcopied _ =>
      cases hcopied with
      | added htarget _ => exact ⟨rfl, by rw [htarget]; rfl⟩
      | _ => exact ⟨rfl, rfl⟩
    | _ => exact ⟨rfl, rfl⟩

theorem reportProgress_samePaths (r : Run) : SamePaths r r.reportProgress := by
  obtain ⟨_, _, hkeeps⟩ := r.reportProgress_keeps
  rw [hkeeps]
  exact ⟨rfl, rfl⟩

/-- The tables that are open are those of the setup. -/
structure Named (s : Setup) (r : Run) : Prop where
  primary : ∀ table ∈ r.primary, table.path = s.databasePath
  target : ∀ table ∈ r.target, table.path = s.newDatabasePath

theorem SamePaths.named (h : SamePaths r r') (hr : Named s r) : Named s r' := by
  constructor
  · intro table htable
    have hpath := h.primary
    rw [Option.mem_def.1 htable] at hpath
    obtain ⟨table', htable', heq⟩ := Option.map_eq_some_iff.1 hpath.symm
    exact heq ▸ hr.primary table' htable'
  · intro table htable
    have hpath := h.target
    rw [Option.mem_def.1 htable] at hpath
    obtain ⟨table', htable', heq⟩ := Option.map_eq_some_iff.1 hpath.symm
    exact heq ▸ hr.target table' htable'

theorem openPrimary_named (hr : Named s r) (h : r.openPrimary s w = (r', .ok ())) :
    Named s r' := by
  unfold openPrimary at h
  split at h
  · cases h
  · next r₁ table hopen =>
    obtain ⟨t, rows, moment, rfl, -, rfl⟩ := openTable_ok hopen
    cases h
    refine ⟨fun table htable => ?_, hr.target⟩
    cases htable
    rfl

theorem start_named (hr : Named s r) (h : r.start s w = (r', .ok ())) : Named s r' := by
  unfold start at h
  split at h
  · split at h
    · cases h
    · next r₁ htarget =>
      refine openPrimary_named ?_ h
      unfold openTarget at htarget
      split at htarget
      · cases htarget
      · next r₂ hremove =>
        obtain ⟨_, _, hkeeps⟩ := removeFile_filesOnly (w := w) (r := r) s.newDatabasePath
        rw [hremove] at hkeeps
        split at htarget
        · cases htarget
        · next r₃ hremove' =>
          obtain ⟨_, _, hkeeps'⟩ := removeFile_filesOnly (w := w) (r := r₂)
            (s.newDatabasePath.addSuffix "-journal")
          rw [hremove', show r₂ = _ from hkeeps] at hkeeps'
          split at htarget
          · cases htarget
          · next table hopen =>
            obtain ⟨t, rows, moment, rfl, -, rfl⟩ := openTable_ok hopen
            cases htarget
            rw [show r₃ = _ from hkeeps']
            refine ⟨hr.primary, fun table htable => ?_⟩
            cases htable
            rfl
  · exact openPrimary_named hr h

/-- **Until a run is over, the tables that are open are those of its setup.** -/
theorem named_of_reachable (h : Reachable s w files o r) (hphase : r.phase ≠ .done) :
    Named s r := by
  induction h with
  | new => exact ⟨nofun, nofun⟩
  | @control _ r message _ ih =>
    rcases r.control_cases message with heq | heq <;> rw [heq] at hphase ⊢
    · exact ih hphase
    · exact ⟨(ih hphase).primary, (ih hphase).target⟩
  | @step _ r r' p _ hs ih =>
    cases act_cases (act_of_step_ok hs).1 with
    | start hcase hact _ => exact start_named (ih (by simp [hcase])) hact
    | prepare hcase hact _ =>
      obtain ⟨_, _, _, _, _, _, hkeeps, -⟩ := prepare_keeps s w r
      rw [hact] at hkeeps
      have hr := ih (by simp [hcase])
      rw [show r' = _ from hkeeps]
      exact ⟨hr.primary, hr.target⟩
    | gather hcase hact _ =>
      have hlooks := (pull_looks (s := s) (w := w) (r := r) s.batch).samePaths
      rcases gather_cases s w r with ⟨_, _, _, heq⟩ | ⟨r₁, phase, hpulled, -, heq⟩ <;>
        rw [hact] at heq <;> cases heq
      rw [hpulled] at hlooks
      have hnoted : SamePaths r { r₁ with phase } := ⟨hlooks.primary, hlooks.target⟩
      exact ((hnoted.trans (performNext_samePaths _)).trans
        (reportProgress_samePaths _)).named (ih (by simp [hcase]))
    | drain hcase _ =>
      have hr := ih (by simp [hcase])
      unfold drain
      split
      · exact ⟨hr.primary, hr.target⟩
      · exact ((performNext_samePaths r).trans (reportProgress_samePaths _)).named hr
    | finish _ _ hnext => exact absurd hnext hphase
    | done hcase => exact absurd hcase hphase
  | fail h hs _ => exact absurd (done_of_reachable (h.fail hs) rfl) hphase

end Run

/-! ## The failures that end a run -/

variable (s) in
/-- A failure that ends a run: an operation on a table, or on the file of one at the path of the
    library's table or beside it. -/
inductive Fatal : Failure → Prop where
  | database : Fatal .database
  | table {action suffix : String} (haction : action ∈ ["opening database ", "committing "])
      (hsuffix : suffix ∈ ["", ".new"]) :
      Fatal (.context (action ++ (s.databasePath.shown ++ suffix)) .database)
  | file {action suffix : String} (haction : action ∈ ["removing ", "replacing "])
      (hsuffix : suffix ∈ ["", ".new", ".new-journal"]) (fault : Fault) :
      Fatal (.context (action ++ (s.databasePath.shown ++ suffix)) (.io fault))

theorem mem_context {c : Char} (hc : c ∈ Text.lineBreaks) {action path suffix : String}
    (haction : IsPlain action) (hsuffix : IsPlain suffix) (cause : Failure) :
    c ∈ (Failure.context (action ++ (path ++ suffix)) cause).message.toList ↔
      c ∈ path.toList ∨ c ∈ cause.message.toList := by
  have hbefore := haction.not_mem hc
  have hafter := hsuffix.not_mem hc
  have hcolon : c ∉ ": ".toList := IsPlain.not_mem (by decide) hc
  change c ∈ (action ++ (path ++ suffix) ++ ": " ++ cause.message).toList ↔ _
  simp only [String.toList_append, List.mem_append, hbefore, hafter, hcolon, false_or, or_false]

theorem mem_fault {c : Char} (hc : c ∈ Text.lineBreaks) (fault : Fault) :
    c ∈ (Failure.io fault).message.toList ↔ ∃ text, fault = .other text ∧ c ∈ text.toList := by
  have hbefore : c ∉ "IO error: ".toList := IsPlain.not_mem (by decide) hc
  change c ∈ ("IO error: " ++ fault.message).toList ↔ _
  rw [String.toList_append, List.mem_append, or_iff_right hbefore]
  rcases fault.isPlain_message with ⟨text, rfl⟩ | hplain
  · simp [Fault.message]
  · refine iff_of_false (hplain.not_mem hc) ?_
    rintro ⟨text, rfl, htext⟩
    exact hplain.not_mem hc htext

/-- **A failure that ends a run has the line breaks of the path of its table**, and those of a
    fault that is given in words. -/
theorem Fatal.mem_message (h : Fatal s failure) {c : Char} (hc : c ∈ Text.lineBreaks) :
    c ∈ failure.message.toList ↔ failure ≠ .database ∧ c ∈ s.databasePath.shown.toList ∨
      ∃ text, failure.fault? = some (.other text) ∧ c ∈ text.toList := by
  have hdatabase : c ∉ Failure.database.message.toList :=
    IsPlain.not_mem (show IsPlain "Database error" by decide) hc
  cases h with
  | database =>
    refine iff_of_false hdatabase ?_
    rintro (⟨hne, -⟩ | ⟨text, hnone, -⟩)
    · exact hne rfl
    · cases hnone
  | @table action suffix haction hsuffix =>
    have hactions : ∀ action ∈ ["opening database ", "committing "], IsPlain action := by decide
    have hsuffixes : ∀ suffix ∈ ["", ".new"], IsPlain suffix := by decide
    rw [mem_context hc (hactions action haction) (hsuffixes suffix hsuffix), or_iff_left hdatabase]
    simp [Failure.fault?]
  | @file action suffix haction hsuffix fault =>
    have hactions : ∀ action ∈ ["removing ", "replacing "], IsPlain action := by decide
    have hsuffixes : ∀ suffix ∈ ["", ".new", ".new-journal"], IsPlain suffix := by decide
    rw [mem_context hc (hactions action haction) (hsuffixes suffix hsuffix), mem_fault hc]
    simp [Failure.fault?]

namespace Run

variable {path : Path}

theorem openTable_error (h : r.openTable w path = (r', .error failure)) :
    failure = .database ∨ failure = .context ("opening database " ++ path.shown) .database := by
  unfold openTable at h
  dsimp only at h
  split at h
  · cases h
    exact .inr rfl
  · split at h
    · cases h
      exact .inr rfl
    · split at h
      · cases h
        exact .inl rfl
      · cases h

theorem commit_error {table : OpenTable} (h : r.commit w table = (r', .error failure)) :
    failure = .context ("committing " ++ table.path.shown) .database := by
  unfold commit at h
  split at h
  · cases h
    rfl
  · split at h <;> cases h

theorem removeFile_error (h : r.removeFile w path = (r', .error failure)) :
    ∃ fault, failure = .context ("removing " ++ path.shown) (.io fault) := by
  unfold removeFile at h
  dsimp only at h
  split at h
  · cases h
  · cases h
  · next fault _ _ =>
    cases h
    exact ⟨fault, rfl⟩

theorem replaceTable_error (h : r.replaceTable s w = (r', .error failure)) :
    ∃ fault, failure = .context ("replacing " ++ s.databasePath.shown) (.io fault) := by
  unfold replaceTable at h
  dsimp only at h
  split at h
  · cases h
  · next fault _ =>
    cases h
    exact ⟨fault, rfl⟩

end Run

theorem Setup.shown_newDatabasePath (s : Setup) :
    s.newDatabasePath.shown = s.databasePath.shown ++ ".new" :=
  Path.shown_addSuffix _ _

/-- An operation on a table that fails ends a run with one of these failures. -/
theorem fatal_of_fault (hr : r.Named s) (h : Run.TableFault s w r failure) : Fatal s failure := by
  have hnew := s.shown_newDatabasePath
  have hold : s.databasePath.shown = s.databasePath.shown ++ "" := String.append_empty.symm
  -- Each failure is worded with the path of the library, or of a file named after it.
  cases h with
  | removeTable _ h =>
    obtain ⟨fault, rfl⟩ := Run.removeFile_error h
    rw [hnew]
    exact .file (by simp) (by simp) fault
  | removeJournal _ _ h =>
    obtain ⟨fault, rfl⟩ := Run.removeFile_error h
    rw [Path.shown_addSuffix, hnew, String.append_assoc]
    exact .file (by simp) (by decide) fault
  | openTarget _ _ _ h =>
    rcases Run.openTable_error h with rfl | rfl
    · exact .database
    · rw [hnew]
      exact .table (by simp) (by simp)
  | openPrimary _ h =>
    rcases Run.openTable_error h with rfl | rfl
    · exact .database
    · rw [hold]
      exact .table (by simp) (by simp)
  | discard ht _ h =>
    unfold Run.discard at h
    split at h
    · cases h
      exact .database
    · obtain ⟨fault, rfl⟩ := Run.removeFile_error h
      rw [hr.target _ ht, hnew]
      exact .file (by simp) (by simp) fault
  | commitTarget ht _ h =>
    obtain rfl := Run.commit_error h
    rw [hr.target _ ht, hnew]
    exact .table (by simp) (by simp)
  | @commitPrimary r₁ _ primary _ h₁ hp h =>
    obtain ⟨_, _, _, hkeeps⟩ := Run.closeTarget_keeps (w := w) (r := { r with source := none })
    rw [h₁] at hkeeps
    rw [show r₁ = _ from hkeeps] at hp
    obtain rfl := Run.commit_error h
    rw [hr.primary _ hp, hold]
    exact .table (by simp) (by simp)
  | replaceTable _ _ _ _ h =>
    obtain ⟨fault, rfl⟩ := Run.replaceTable_error h
    rw [hold]
    exact .file (by simp) (by simp) fault
  | _ => exact .database

theorem fatal_of_reachable (h : Reachable s w files o r) : ∀ failure ∈ o, Fatal s failure := by
  induction h with
  | new => exact nofun
  | control _ _ ih => exact ih
  | step _ _ ih => exact ih
  | @fail _ r _ failure h hs _ =>
    obtain rfl := Run.no_failure_before h hs
    rintro _ ⟨⟩
    exact fatal_of_fault (Run.named_of_reachable h (Run.running_of_step_error hs))
      (Run.fault_of_step h hs)

/-! ## Every run -/

/-- **One message is one line, unless a failure is worded with a line break**: what is written
    for the messages splits at the ends of lines into these messages just if the failure that
    ended the run, if one did, has no line break in its wording.  Its wording has those of the
    path of the library's table. -/
theorem messages_are_lines (h : Reachable s w files o r) :
    (∀ c ∈ Text.lineBreaks, (∀ message ∈ r.sent, c ∉ message.line.toList) ↔
      ∀ failure ∈ o, c ∉ failure.message.toList) ∧
    ((String.join (r.sent.map fun message => message.line ++ "\n")).toList.splitOn '\n' =
        r.sent.map (·.line.toList) ++ [[]] ↔ ∀ failure ∈ o, '\n' ∉ failure.message.toList) ∧
    ∀ failure ∈ o, ∀ c ∈ Text.lineBreaks, c ∈ failure.message.toList ↔
      failure ≠ .database ∧ c ∈ s.databasePath.shown.toList ∨
        ∃ text, failure.fault? = some (.other text) ∧ c ∈ text.toList := by
  obtain ⟨plain, hplain, hsent⟩ := told_of_reachable h
  -- All that a run says is plain but for the wording of a failure.
  have hbreaks : ∀ c ∈ Text.lineBreaks, (∀ message ∈ r.sent, c ∉ message.line.toList) ↔
      ∀ failure ∈ o, c ∉ failure.message.toList := by
    intro c hc
    have hfinish := isPlain_finish.not_mem hc
    have hstatus : c ∉ "STATUS_MSG ".toList := IsPlain.not_mem (by decide) hc
    have hfailed : c ∉ "Failed: ".toList := IsPlain.not_mem (by decide) hc
    rw [hsent]
    constructor
    · rintro hnone failure rfl hmem
      refine hnone (.status ("Failed: " ++ failure.message)) (by simp [told]) ?_
      simp only [Message.line, String.toList_append, List.mem_append]
      exact .inr (.inr hmem)
    · intro hnone message hmessage
      rcases List.mem_append.1 hmessage with hmessage | htold
      · exact (hplain message hmessage).not_mem hc
      · cases o with
        | none => cases htold
        | some failure =>
          rcases List.mem_cons.1 htold with rfl | hfin
          · simp only [Message.line, String.toList_append, List.mem_append, not_or]
            exact ⟨hstatus, hfailed, hnone failure rfl⟩
          · obtain rfl := List.mem_singleton.1 hfin
            exact hfinish
  refine ⟨hbreaks, ?_, fun failure hfailure c hc => (fatal_of_reachable h failure hfailure).mem_message hc⟩
  have houtput : (String.join (r.sent.map fun message => message.line ++ "\n")).toList =
      (r.sent.map (·.line.toList)).flatMap (· ++ ['\n']) := by
    rw [String.toList_join, List.flatMap_map, List.flatMap_map]
    simp only [String.toList_append]
    rfl
  rw [houtput, Text.splitOn_ended, List.forall_mem_map]
  exact hbreaks '\n' (by decide)

/-- The library of one song with its table at a given path. -/
def sampleAt (path : String) : Setup :=
  { sampleSetup .checkNew with databasePath := .ofString path }

/-- A run on a library of one song that has failed to open its table at a given path. -/
def unopened (path : String) : Run :=
  ((Run.new (sampleAt path) sampleFiles).step (sampleAt path) sampleServices).1

/-- A run that cannot open its table says so in one line. -/
theorem messages_are_lines_unopened :
    Reachable (sampleAt "missing/songs.db") sampleServices sampleFiles
        (some (.context "opening database missing/songs.db" .database))
        (unopened "missing/songs.db") ∧
      (String.join ((unopened "missing/songs.db").sent.map
        fun message => message.line ++ "\n")).toList.splitOn '\n' =
          (unopened "missing/songs.db").sent.map (·.line.toList) ++ [[]] := by
  have hreach : Reachable (sampleAt "missing/songs.db") sampleServices sampleFiles
      (some (.context "opening database missing/songs.db" .database))
      (unopened "missing/songs.db") := .fail .new (by rfl)
  refine ⟨hreach, (messages_are_lines hreach).2.1.2 ?_⟩
  rintro failure ⟨⟩
  decide

/-- Where the path of its table has line breaks, a run seems to say that it is over before it
    does. -/
theorem message_breaks :
    Reachable (sampleAt "missing\nFINISH\nx/songs.db") sampleServices sampleFiles
        (some (.context "opening database missing\nFINISH\nx/songs.db" .database))
        (unopened "missing\nFINISH\nx/songs.db") ∧
      (unopened "missing\nFINISH\nx/songs.db").sent.map Message.line =
        ["STATUS_MSG Failed: opening database missing\nFINISH\nx/songs.db: Database error",
          "FINISH"] ∧
      (String.join ((unopened "missing\nFINISH\nx/songs.db").sent.map
        fun message => message.line ++ "\n")).toList.splitOn '\n' =
          ["STATUS_MSG Failed: opening database missing".toList, "FINISH".toList,
            "x/songs.db: Database error".toList, "FINISH".toList, []] := by
  have hlines : (unopened "missing\nFINISH\nx/songs.db").sent.map Message.line =
      ["STATUS_MSG Failed: opening database missing\nFINISH\nx/songs.db: Database error",
        "FINISH"] := by rfl
  have houtput : (unopened "missing\nFINISH\nx/songs.db").sent.map
      (fun message => message.line ++ "\n") =
        ["STATUS_MSG Failed: opening database missing\nFINISH\nx/songs.db: Database error\n",
          "FINISH\n"] := by rfl
  refine ⟨.fail .new (by rfl), hlines, ?_⟩
  rw [houtput]
  decide

end Reconcile

end SongLibrary
