/-
  A destructive run replaces the table of the library as a whole, or not at all.

  * `Guarded` is the invariant of such a run while its tables are open: the new
    table has the rows written so far, and the table of the library has the rows
    it had;
  * `step_allOrNothing` is the main statement: up to the final rename the old rows
    are read, and afterwards the old ones or those of the new table;
  * a new table that is given up is removed just if the directories on the way to
    it are there (`Setup.HasWay`), which a path with `..` may do without
    (`stopped_leaves_draft`).
-/
import SongLibrary.Proofs.Reconcile.Tables
import SongLibrary.Proofs.SongTable.Rows

namespace SongLibrary.Reconcile

open FileTree (Opened Retabled)

/-! ## The way to the new table -/

namespace Setup

variable (s : Setup) (files : FileTree)

/-- The directories on the way to the new table are there. -/
def HasWay (t : FileTree) : Prop :=
  ∀ d ∈ t.route s.newDatabasePath, t.get? d = some .directory

instance (t : FileTree) : Decidable (s.HasWay t) :=
  inferInstanceAs (Decidable (∀ d ∈ t.route s.newDatabasePath, t.get? d = some .directory))

/-- The rows of a table that an earlier run left where the new table is written:
    without a way there, it is not removed before. -/
def leftover : List Row :=
  if s.HasWay files then [] else files.rowsAt (s.draft files)

end Setup

/-- No file has been moved to a location. -/
def Run.Spares (files : FileTree) (r : Run) (l : Location) : Prop :=
  ∀ m ∈ r.history.moves, files.destination m.2 ≠ l

instance (files : FileTree) (r : Run) (l : Location) : Decidable (r.Spares files l) :=
  inferInstanceAs (Decidable (∀ m ∈ r.history.moves, files.destination m.2 ≠ l))

/-! ## Trees with the old rows -/

/-- A well-formed tree in which the table at a location has the rows that it had. -/
structure Intact (files t : FileTree) (l : Location) : Prop where
  wellFormed : t.WellFormed
  workingDir : t.workingDir = files.workingDir
  rows : t.rowsAt l = files.rowsAt l

namespace Intact

variable {files t t' : FileTree} {l k : Location}

theorem refl (h : files.WellFormed) (l : Location) : Intact files files l :=
  ⟨h, rfl, rfl⟩

theorem opened {p : Path} {result : FileTree × Option SongTable} (h : Intact files t l)
    (ho : Opened t p result) : Intact files result.1 l :=
  ⟨ho.wellFormed h.wellFormed, ho.workingDir.trans h.workingDir,
    (ho.rowsAt h.wellFormed l).trans h.rows⟩

/-- The table stays where only others come and go. -/
theorem retabled {gone new : List Location} (h : Intact files t l) (ht : Retabled gone new t t')
    (hl : l ∉ gone) : Intact files t' l :=
  ⟨ht.wellFormed, ht.workingDir.trans h.workingDir,
    (FileTree.rowsAt_congr (FileTree.tableAt?_congr (ht.get? l hl))).trans h.rows⟩

theorem keepTable {table : SongTable} (h : Intact files t l) (hk : k ≠ [])
    (hrows : l = k → table.rows = files.rowsAt l) : Intact files (t.keepTable k table) l := by
  refine ⟨h.wellFormed.keepTable k table, ?_, ?_⟩
  · rw [FileTree.workingDir_keepTable, h.workingDir]
  · rw [FileTree.rowsAt_keepTable hk fun hlk => (hrows hlk).trans h.rows.symm, h.rows]

end Intact

/-! ## Opening the tables -/

/-- What holds of a destructive run while its tables are open. -/
structure Guarded (s : Setup) (files : FileTree) (r : Run) : Prop where
  wellFormed : r.files.WellFormed
  workingDir : r.files.workingDir = files.workingDir
  /-- The new table has the rows written so far. -/
  target : ∃ target, r.target = some target ∧ target.path = s.newDatabasePath ∧
    target.location = some (s.draft files) ∧
    target.table.rows.Perm (r.history.written ++ s.leftover files)
  /-- The table of the library is as it was read. -/
  primary : ∃ primary, r.primary = some primary ∧ ∀ l ∈ primary.location,
    l = s.library files ∧ l ≠ [] ∧ primary.table.rows = files.rowsAt l
  kept : r.Spares files (s.library files) →
    r.files.rowsAt (s.library files) = files.rowsAt (s.library files)
  taken : ¬ r.Spares files (s.library files) → r.files.tableAt? (s.library files) = none
  draft : r.Spares files (s.draft files) → (r.files.tableAt? (s.draft files)).isSome

variable {s : Setup} {w : Services} {files : FileTree} {r r' : Run}

/-- Once what an earlier run left is removed, the new table begins with the rows
    that could not be. -/
theorem rowsAt_draft_of_removed (h : Run.Removed r s.newDatabasePath (r', .ok ())) :
    r'.files.rowsAt (s.draft r.files) = s.leftover r.files := by
  generalize hresult : (r', Except.ok ()) = result at h
  cases h with
  | @removed l c hfind =>
    cases hresult
    obtain ⟨hway, hl⟩ := FileTree.route_of_find hfind
    obtain ⟨-, -, -, -, hget⟩ := FileTree.find_file_iff.1 hfind
    have hhas : s.HasWay r.files := hway
    have hnone : (r.files.erase l).tableAt? (s.draft r.files) = none := by
      rw [Setup.draft, ← hl, FileTree.tableAt?,
        FileTree.get?_erase _ (FileTree.ne_nil_of_get? hget), if_pos rfl]
    simp [Setup.leftover, hhas, FileTree.rowsAt, hnone]
  | missing hmissing =>
    cases hresult
    rw [Setup.leftover]
    split
    · next hway =>
      have hnone : r.files.get? (s.draft r.files) = none :=
        FileTree.get?_of_removeFile_notFound s.encode_newDatabasePath hway hmissing
      simp [FileTree.rowsAt, FileTree.tableAt?, Run.asked, hnone]
    · rfl
  | failed _ => cases hresult

/-- A new table that is removed is gone just if there is a way to it. -/
theorem get?_draft_of_removed {c : Content} (hc : r.files.get? (s.draft r.files) = some (.file c))
    (h : Run.Removed r s.newDatabasePath (r', .ok ())) :
    r'.files.get? (s.draft r.files) = none ↔ s.HasWay r.files := by
  generalize hresult : (r', Except.ok ()) = result at h
  cases h with
  | @removed l _ hfind =>
    cases hresult
    obtain ⟨hway, hl⟩ := FileTree.route_of_find hfind
    refine iff_of_true ?_ hway
    rw [Setup.draft] at hc ⊢
    rw [FileTree.get?_erase _ (hl ▸ FileTree.ne_nil_of_get? hc), if_pos hl.symm]
  | missing hmissing =>
    cases hresult
    refine iff_of_false (by simp [Run.asked, hc]) ?_
    intro hway
    rw [Setup.draft, FileTree.get?_of_removeFile_notFound s.encode_newDatabasePath hway hmissing] at hc
    cases hc
  | failed _ => cases hresult

/-- The new table is open. -/
structure Drafted (s : Setup) (files : FileTree) (r : Run) (target : OpenTable) : Prop where
  path : target.path = s.newDatabasePath
  location : target.location = some (s.draft files)
  table : r.files.tableAt? (s.draft files) = some target.table
  rows : target.table.rows = s.leftover files

/-- Opening the new table changes its place, and that of its journal. -/
theorem openTarget_cases {result : Except Failure Unit} (hw : w.Reliable)
    (hwf : r.files.WellFormed) (h : r.openTarget s w = (r', result)) :
    Retabled [s.draft r.files, s.journal r.files] [s.draft r.files] r.files r'.files ∧
      r'.history = r.history ∧
      (result = .ok () → ∃ target, r'.target = some target ∧ Drafted s r.files r' target) := by
  unfold Run.openTarget at h
  have hremoved₁ := Run.removeFile_cases hw r s.newDatabasePath
  have hr₁ := hremoved₁.retabled
    (.refl hwf : Retabled [s.draft r.files, s.journal r.files] [s.draft r.files] r.files r.files)
    (by simp [Setup.draft])
  have hf₁ := Run.removeFile_filesOnly (w := w) (r := r) s.newDatabasePath
  split at h
  · next r₁ failure hremove₁ =>
    rw [hremove₁] at hr₁ hf₁
    obtain ⟨_, _, rfl⟩ := hf₁
    cases h
    exact ⟨hr₁, rfl, by simp⟩
  · next r₁ hremove₁ =>
    rw [hremove₁] at hremoved₁ hr₁ hf₁
    have hrows₁ := rowsAt_draft_of_removed hremoved₁
    have hremoved₂ := Run.removeFile_cases hw r₁ (s.newDatabasePath.addSuffix "-journal")
    have hr₂ := hremoved₂.retabled hr₁ (by simp [Setup.journal])
    -- The journal is somewhere else.
    have hdraft₂ := hremoved₂.retabled
      (.refl hr₁.wellFormed : Retabled [s.journal r.files] [] r₁.files r₁.files)
      (by simp [Setup.journal, FileTree.destination_congr hr₁.workingDir])
    have hf₂ := hf₁.trans (Run.removeFile_filesOnly (w := w)
      (s.newDatabasePath.addSuffix "-journal"))
    split at h
    · next r₂ failure hremove₂ =>
      rw [hremove₂] at hr₂ hf₂
      obtain ⟨_, _, rfl⟩ := hf₂
      cases h
      exact ⟨hr₂, rfl, by simp⟩
    · next r₂ hremove₂ =>
      rw [hremove₂] at hr₂ hdraft₂ hf₂
      have hopens := Run.openTable_cases w r₂ s.newDatabasePath
      have hr₃ := hopens.retabled hr₂ fun _ => by simp [Setup.draft]
      obtain ⟨_, _, rfl⟩ := hf₂
      split at h
      · next r₃ failure hopen =>
        rw [hopen] at hr₃ hopens
        cases h
        cases hopens with
        | failed _ _ _ => exact ⟨hr₃, rfl, by simp⟩
      · next r₃ target hopen =>
        rw [hopen] at hr₃ hopens
        cases h
        cases hopens with
        | @opened files table _ hopened =>
          refine ⟨hr₃, rfl, fun _ => ⟨_, rfl, ?_⟩⟩
          rcases hopened.table hr₂.wellFormed with hfileless | ⟨l, hl, htable⟩
          · exact absurd hfileless s.not_isFileless_newDatabasePath
          · have hdest : l = s.draft r.files := by
              rw [(hr₂.wellFormed.tableFile?_eq hl).1, FileTree.destination_congr hr₂.workingDir]
              rfl
            subst hdest
            refine ⟨rfl, hl, htable, ?_⟩
            rw [← FileTree.rowsAt_of_table htable, hopened.rowsAt hr₂.wellFormed, ← hrows₁]
            refine FileTree.rowsAt_congr (FileTree.tableAt?_congr (hdraft₂.get? _ ?_))
            simpa using (s.journal_ne_draft r.files).symm

/-- Opening both tables leaves the table of the library alone. -/
theorem start_cases {result : Except Failure Unit} (hd : s.mode.isDestructive) (hw : w.Reliable)
    (hwf : r.files.WellFormed) (hh : r.history = {}) (h : r.start s w = (r', result)) :
    Intact r.files r'.files (s.library r.files) ∧ (result = .ok () → Guarded s r.files r') := by
  simp only [Run.start, hd, if_true] at h
  split at h
  · next r₁ failure htarget =>
    obtain ⟨hretabled, -, -⟩ := openTarget_cases hw hwf htarget
    cases h
    exact ⟨(Intact.refl hwf _).retabled hretabled (s.library_not_mem r.files), by simp⟩
  · next r₁ htarget =>
    obtain ⟨hretabled, hhistory, hdrafted⟩ := openTarget_cases hw hwf htarget
    have hi := (Intact.refl hwf _).retabled hretabled (s.library_not_mem r.files)
    obtain ⟨target, hsome, hdrafted⟩ := hdrafted rfl
    -- The new table is open; opening that of the library keeps its rows.
    have hopens := Run.openTable_cases w r₁ s.databasePath
    unfold Run.openPrimary at h
    split at h
    · next r₂ failure hopen =>
      rw [hopen] at hopens
      cases h
      cases hopens with
      | failed _ _ hopened => exact ⟨hi.opened hopened, by simp⟩
    · next r₂ primary hopen =>
      rw [hopen] at hopens
      cases h
      cases hopens with
      | @opened files table _ hopened =>
        have hi₂ := hi.opened hopened
        refine ⟨hi₂, ?_⟩
        intro _
        have hempty : r₁.history = {} := hhistory.trans hh
        refine ⟨hi₂.wellFormed, hi₂.workingDir, ⟨target, hsome, hdrafted.path, hdrafted.location, ?_⟩,
          ⟨_, rfl, ?_⟩, fun _ => hi₂.rows, ?_, ?_⟩
        · simp [hempty, hdrafted.rows]
        · intro l hl
          obtain ⟨hdest, hne⟩ := hi.wellFormed.tableFile?_eq hl
          have hlibrary : l = s.library r.files := by
            rw [hdest, FileTree.destination_congr hi.workingDir]
            rfl
          refine ⟨hlibrary, hne, ?_⟩
          rcases hopened.table hi.wellFormed with hfileless | ⟨k, hk, htable⟩
          · simp [FileTree.tableFile?, hfileless] at hl
          · obtain rfl : k = l := Option.some.inj (hk.symm.trans hl)
            rw [← FileTree.rowsAt_of_table htable, hlibrary, hi₂.rows]
        · intro hmoved
          exact absurd (by simp [Run.Spares, hempty]) hmoved
        · intro _
          exact Option.isSome_iff_exists.2 ⟨_, hopened.tableAt? hi.wellFormed hdrafted.table⟩

/-! ## Candidates and jobs -/

namespace Guarded

/-- The new table may change, as long as it has the rows written. -/
theorem of_target (h : Guarded s files r) (hfiles : r'.files = r.files)
    (hprimary : r'.primary = r.primary) (hmoves : r'.history.moves = r.history.moves)
    (htarget : ∃ target, r'.target = some target ∧ target.path = s.newDatabasePath ∧
      target.location = some (s.draft files) ∧
      target.table.rows.Perm (r'.history.written ++ s.leftover files)) : Guarded s files r' := by
  have hspares : ∀ l, r'.Spares files l ↔ r.Spares files l := fun l => by simp [Run.Spares, hmoves]
  refine ⟨hfiles ▸ h.wellFormed, hfiles ▸ h.workingDir, htarget, hprimary ▸ h.primary, ?_, ?_, ?_⟩
  · rw [hspares, hfiles]
    exact h.kept
  · rw [hspares, hfiles]
    exact h.taken
  · rw [hspares, hfiles]
    exact h.draft

/-- Nothing but the files, the tables and the history of a run matters. -/
theorem congr (h : Guarded s files r) (hfiles : r'.files = r.files) (htarget : r'.target = r.target)
    (hprimary : r'.primary = r.primary) (hwritten : r'.history.written = r.history.written)
    (hmoves : r'.history.moves = r.history.moves) : Guarded s files r' := by
  refine h.of_target hfiles hprimary hmoves ?_
  rw [htarget, hwritten]
  exact h.target

/-- A song may be added to the new table. -/
theorem add {target : OpenTable} {song : Song} {id : Int64} {table : SongTable}
    (h : Guarded s files r) (htarget : r.target = some target)
    (hinsert : target.table.insert? song = some (id, table)) (hfiles : r'.files = r.files)
    (htarget' : r'.target = some { target with table }) (hprimary : r'.primary = r.primary)
    (hwritten : r'.history.written = song.row id :: r.history.written)
    (hmoves : r'.history.moves = r.history.moves) : Guarded s files r' := by
  refine h.of_target hfiles hprimary hmoves ?_
  obtain ⟨target', hsome, hpath, hlocation, hrows⟩ := h.target
  obtain rfl : target = target' := Option.some.inj (htarget.symm.trans hsome)
  refine ⟨_, htarget', hpath, hlocation, ?_⟩
  rw [hwritten]
  exact (SongTable.perm_of_insert? hinsert).trans (hrows.cons _)

theorem look (h : Guarded s files r) (hl : Run.Look s r r') : Guarded s files r' := by
  cases hl with
  | copy song hcopied _ =>
    cases hcopied with
    | repeated _ => exact h
    | added htarget hinsert => exact h.add htarget hinsert rfl rfl rfl rfl rfl
    | failed => exact h.congr rfl rfl rfl rfl rfl
  | _ => exact h.congr rfl rfl rfl rfl rfl

theorem looks (h : Guarded s files r) (hl : Run.Looks s r r') : Guarded s files r' := by
  induction hl with
  | refl => exact h
  | tail _ hlook ih => exact ih.look hlook

theorem stored {song : Song} (h : Guarded s files r) (hs : Run.Stored w r song r') :
    Guarded s files r' := by
  cases hs with
  | failed _ _ _ => exact h.congr rfl rfl rfl rfl rfl
  | added given _ _ htarget hinsert => exact h.add htarget hinsert rfl rfl rfl rfl rfl
  | saved _ hnone _ _ =>
    obtain ⟨target, hsome, -⟩ := h.target
    rw [hnone] at hsome
    cases hsome

/-- The files may change, where only a table goes whose place is taken. -/
theorem of_files {place : Option Location} (h : Guarded s files r) (hwf : r'.files.WellFormed)
    (hw : r'.files.workingDir = r.files.workingDir)
    (htables : ∀ m, r'.files.tableAt? m = if place = some m then none else r.files.tableAt? m)
    (hspares : ∀ m, r'.Spares files m ↔ place ≠ some m ∧ r.Spares files m)
    (htarget : r'.target = r.target) (hprimary : r'.primary = r.primary)
    (hwritten : r'.history.written = r.history.written) : Guarded s files r' := by
  refine ⟨hwf, hw.trans h.workingDir, ?_, hprimary ▸ h.primary, ?_, ?_, ?_⟩
  · rw [htarget, hwritten]
    exact h.target
  · intro hs
    obtain ⟨hplace, hs⟩ := (hspares _).1 hs
    rw [← h.kept hs]
    exact FileTree.rowsAt_congr (by rw [htables, if_neg hplace])
  · intro hs
    rw [htables]
    split
    · rfl
    · next hplace => exact h.taken fun hs' => hs ((hspares _).2 ⟨hplace, hs'⟩)
  · intro hs
    obtain ⟨hplace, hs⟩ := (hspares _).1 hs
    rw [htables, if_neg hplace]
    exact h.draft hs

/-- A file may be moved whose tags have been read: it is no table, but may take
    the place of one. -/
theorem renamed {song song' : Song} {path : Path} {content : Content} {moment : Nat}
    {parsed : ParsedTags} (h : Guarded s files r) (hw : w.Reliable)
    (hread : r.files.read path = .ok content)
    (htags : w.readTags moment path content = .ok parsed)
    (hr : Run.Renamed s w r song path (song', r')) : Guarded s files r' := by
  obtain ⟨l, hfind⟩ := FileTree.read_eq_ok_iff.1 hread
  have hc : ∀ table, content ≠ .songs table := by
    rintro table rfl
    exact hw.readTags _ _ _ _ htags
  cases hr with
  | stays => exact h
  | failed hmove =>
    rw [hw.move] at hmove
    obtain ⟨hwf, hdir, htables⟩ := organizeFile_keeps hfind hc h.wellFormed hmove
    exact h.of_files hwf hdir htables (by simp [Run.Spares, Except.toOption, Run.asked]) rfl rfl rfl
  | moved _ hmove =>
    rw [hw.move] at hmove
    obtain ⟨hwf, hdir, htables⟩ := organizeFile_keeps hfind hc h.wellFormed hmove
    refine h.of_files hwf hdir htables ?_ rfl rfl rfl
    intro m
    simp [Run.Spares, Except.toOption, FileTree.destination_congr h.workingDir]

theorem deed {job : Job} (h : Guarded s files r) (hd : s.mode.isDestructive) (hw : w.Reliable)
    (hdeed : Run.Deed s w job r r') : Guarded s files r' := by
  cases hdeed with
  | ask _ => exact h.congr rfl rfl rfl rfl rfl
  | note _ => exact h.congr rfl rfl rfl rfl rfl
  | store _ hstored => exact h.stored hstored
  | move hrenamed hmode =>
    rcases hmode with hmode | ⟨-, content, moment, parsed, hread, htags⟩
    · rw [hmode] at hd
      cases hd
    · exact h.renamed hw hread htags hrenamed
  | write _ _ hmode =>
    rw [hmode] at hd
    cases hd

theorem deeds {job : Job} (h : Guarded s files r) (hd : s.mode.isDestructive) (hw : w.Reliable)
    (hdeeds : Run.Deeds s w job r r') : Guarded s files r' := by
  induction hdeeds with
  | refl => exact h
  | tail _ hdeed ih => exact ih.deed hd hw hdeed

theorem settled (h : Guarded s files r) (hs : Run.Settled r r') : Guarded s files r' := by
  cases hs <;> exact h.congr rfl rfl rfl rfl rfl

theorem performNext (h : Guarded s files r) (hd : s.mode.isDestructive) (hw : w.Reliable) :
    Guarded s files (r.performNext s w) := by
  unfold Run.performNext
  split
  · exact h
  · next job queue _ =>
    obtain ⟨r₁, hdeeds, hsettled⟩ :=
      Run.perform_deeds s w { r with queue, history.taken := job :: r.history.taken } job
    have htaken : Guarded s files { r with queue, history.taken := job :: r.history.taken } :=
      h.congr rfl rfl rfl rfl rfl
    exact (htaken.deeds hd hw hdeeds).settled hsettled

theorem reportProgress (h : Guarded s files r) : Guarded s files r.reportProgress := by
  obtain ⟨reported, sent, hkeeps⟩ := r.reportProgress_keeps
  rw [hkeeps]
  exact h.congr rfl rfl rfl rfl rfl

/-! ## Steps -/

theorem prepare (h : Guarded s files r) : Guarded s files (r.prepare s w).1 := by
  have hchosen : Guarded s files (r.chooseNextId s w).1 := by
    unfold Run.chooseNextId
    split
    · split
      · exact h.congr rfl rfl rfl rfl rfl
      · split <;> exact h.congr rfl rfl rfl rfl rfl
    · exact h
  refine Run.of_andThen (P := Guarded s files) hchosen ?_
  intro r₁ h₁
  have hopened : Guarded s files (r₁.openSource s w).1 := by
    unfold Run.openSource
    split
    · exact h₁
    · split
      · exact h₁.congr rfl rfl rfl rfl rfl
      · split
        · exact h₁.congr rfl rfl rfl rfl rfl
        · split <;> exact h₁.congr rfl rfl rfl rfl rfl
  exact Run.of_andThen (P := Guarded s files) hopened fun r₂ h₂ => h₂.congr rfl rfl rfl rfl rfl

theorem gather (h : Guarded s files r) (hd : s.mode.isDestructive) (hw : w.Reliable) :
    Guarded s files (r.gather s w).1 := by
  refine Run.of_andThen (P := Guarded s files) (h.looks (Run.pull_looks s.batch)) ?_
  intro r₁ h₁
  refine (performNext ?_ hd hw).reportProgress
  split
  · exact h₁.congr rfl rfl rfl rfl rfl
  · exact h₁

theorem drain (h : Guarded s files r) (hd : s.mode.isDestructive) (hw : w.Reliable) :
    Guarded s files (r.drain s w) := by
  unfold Run.drain
  split
  · exact h.congr rfl rfl rfl rfl rfl
  · exact (h.performNext hd hw).reportProgress

/-! ## Closing the tables -/

theorem intact (h : Guarded s files r) (hs : r.Spares files (s.library files)) :
    Intact files r.files (s.library files) :=
  ⟨h.wellFormed, h.workingDir, h.kept hs⟩

/-- A new table that is given up is removed just if there is a way to it, and one
    that is kept has the rows written. -/
theorem closeTarget {result : Except Failure Unit} (h : Guarded s files r) (hw : w.Reliable)
    (hs : r.Spares files (s.library files)) (hc : r.closeTarget w = (r', result)) :
    Intact files r'.files (s.library files) ∧
      (result = .ok () → r.Spares files (s.draft files) →
        if r.stopped then (r'.files.get? (s.draft files) = none ↔ s.HasWay r.files)
        else ∃ table, r'.files.tableAt? (s.draft files) = some table ∧
          table.rows.Perm (r.history.written ++ s.leftover files)) := by
  obtain ⟨target, htarget, hpath, hlocation, hrows⟩ := h.target
  have hi := h.intact hs
  unfold Run.closeTarget at hc
  simp only [htarget] at hc
  -- A table that is given up is removed, and any other is written.
  split at hc
  · next hstopped =>
    simp only [hstopped, if_true]
    unfold Run.discard at hc
    split at hc
    · cases hc
      exact ⟨hi, by simp⟩
    · have hremoved := Run.removeFile_cases hw ({ r with target := none } : Run).asked target.path
      rw [hc, hpath] at hremoved
      have hgiven : Retabled [s.draft files] [] r.files
          ({ r with target := none } : Run).asked.files := .refl h.wellFormed
      have hretabled := hremoved.retabled hgiven
        (by simp [Setup.draft, FileTree.destination_congr h.workingDir])
      refine ⟨hi.retabled hretabled (by simpa using (s.draft_ne_library files).symm), ?_⟩
      intro hok hspares
      subst hok
      obtain ⟨table, htable⟩ := Option.isSome_iff_exists.1 (h.draft hspares)
      have hdraft : s.draft files = s.draft r.files :=
        (FileTree.destination_congr h.workingDir _).symm
      rw [hdraft, FileTree.tableAt?_eq_some] at htable
      rw [hdraft]
      have hgone := get?_draft_of_removed (r := ({ r with target := none } : Run).asked) htable
        hremoved
      exact hgone
  · next hstopped =>
    simp only [hstopped, Bool.false_eq_true, if_false]
    have hcommits := Run.commit_cases w { r with target := none } target
    rw [hc] at hcommits
    generalize hresult : (r', result) = outcome at hcommits
    cases hcommits with
    | failed _ =>
      cases hresult
      exact ⟨hi, by simp⟩
    | fileless hnone =>
      rw [hlocation] at hnone
      cases hnone
    | @kept l hl =>
      cases hresult
      obtain rfl : s.draft files = l := Option.some.inj (hlocation.symm.trans hl)
      have hne := s.draft_ne_nil files
      refine ⟨hi.keepTable hne fun heq => absurd heq.symm (s.draft_ne_library files), ?_⟩
      rintro - hspares
      rcases r.files.keepTable_cases (s.draft files) target.table with ⟨hnone, -⟩ | ⟨-, hkeep⟩
      · have hsome := h.draft hspares
        simp [hnone] at hsome
      · refine ⟨target.table, ?_, hrows⟩
        simp only [hkeep]
        exact FileTree.tableAt?_put_self hne _

/-- The table of the library is written as it was read. -/
theorem closePrimary {r₁ : Run} {result : Except Failure Unit} (h : Guarded s files r)
    (hprimary : r₁.primary = r.primary) (hi : Intact files r₁.files (s.library files))
    (hc : r₁.closePrimary w = (r', result)) :
    Intact files r'.files (s.library files) ∧
      r'.files.get? (s.draft files) = r₁.files.get? (s.draft files) := by
  obtain ⟨primary, hsome, hlocation⟩ := h.primary
  unfold Run.closePrimary at hc
  simp only [hprimary, hsome] at hc
  have hcommits := Run.commit_cases w { r₁ with primary := none } primary
  rw [hc] at hcommits
  generalize hresult : (r', result) = outcome at hcommits
  cases hcommits with
  | failed _ =>
    cases hresult
    exact ⟨hi, rfl⟩
  | fileless _ =>
    cases hresult
    exact ⟨hi, rfl⟩
  | @kept l hl =>
    cases hresult
    obtain ⟨hlibrary, hne, hrows⟩ := hlocation l hl
    subst hlibrary
    exact ⟨hi.keepTable hne fun _ => hrows,
      FileTree.get?_keepTable_ne hne _ (s.draft_ne_library files)⟩

end Guarded

/-- After the final rename the new table is that of the library. -/
theorem replaceTable_cases {table : SongTable} {result : Except Failure Unit}
    (hw : r.files.workingDir = files.workingDir)
    (htable : r.files.tableAt? (s.draft files) = some table)
    (h : r.replaceTable s w = (r', result)) :
    (result = .ok () → r'.files.tableAt? (s.library files) = some table) ∧
      (result ≠ .ok () → r'.files = r.files) := by
  have hfiles : s.draft files = r.files.destination s.newDatabasePath :=
    (FileTree.destination_congr hw _).symm
  rw [hfiles] at htable
  unfold Run.replaceTable at h
  dsimp only at h
  split at h
  · next t hrename =>
    cases h
    refine ⟨?_, by simp⟩
    intro _
    split at hrename
    · cases hrename
    · have hfind := FileTree.find_of_rename (FileTree.tableAt?_eq_some.1 htable) hrename
      obtain ⟨k, hlands, -, rfl⟩ := (FileTree.rename_eq_ok_iff hfind).1 hrename
      have hk : k = s.library files :=
        hlands.eq_destination.trans (FileTree.destination_congr hw _)
      rw [if_neg]
      · rw [← hk]
        exact FileTree.tableAt?_put_self hlands.ne_nil table
      · rw [hk, ← hfiles]
        exact s.draft_ne_library files
  · cases h
    exact ⟨by simp, fun _ => rfl⟩

/-! ## Between two steps -/

/-- Where a destructive run stands between two steps. -/
inductive Standing (s : Setup) (files : FileTree) (r : Run) : Prop where
  | fresh (hphase : r.phase = .start) (hfiles : r.files = files) (hhistory : r.history = {})
  | working (hstart : r.phase ≠ .start) (h : Guarded s files r)
  | ended (hphase : r.phase = .done)

theorem standing_of_reachable {o : Option Failure} (hd : s.mode.isDestructive) (hw : w.Reliable)
    (hwf : files.WellFormed) (h : Reachable s w files o r) : Standing s files r := by
  -- The table of the library stays guarded from the first step to the last.
  induction h with
  | new => exact .fresh rfl rfl rfl
  | @control _ r message _ ih =>
    rcases r.control_cases message with heq | heq <;> rw [heq]
    · exact ih
    · cases ih with
      | fresh hphase hfiles hhistory => exact .fresh hphase hfiles hhistory
      | working hstart hg => exact .working hstart (hg.congr rfl rfl rfl rfl rfl)
      | ended hphase => exact .ended hphase
  | @step _ r r' _ _ hs ih =>
    have hact := (Run.act_of_step_ok hs).1
    cases ih with
    | fresh hphase hfiles hhistory =>
      subst hfiles
      simp only [Run.act, hphase] at hact
      have hprepare := Run.start_phase hact
      exact .working (by simp [hprepare]) ((start_cases hd hw hwf hhistory hact).2 rfl)
    | working hstart hg =>
      cases Run.act_cases hact with
      | start hphase _ _ => exact absurd hphase hstart
      | prepare _ hact hnext =>
        have hg' : Guarded s files (r.prepare s w).1 := hg.prepare
        rw [hact] at hg'
        exact .working (by simp [hnext]) hg'
      | gather _ hact hnext =>
        have hg' := hg.gather hd hw
        rw [hact] at hg'
        refine .working ?_ hg'
        rcases hnext with hnext | hnext <;> simp [hnext]
      | drain _ hnext =>
        refine .working ?_ (hg.drain hd hw)
        rcases hnext with hnext | hnext <;> simp [hnext]
      | finish _ _ hnext => exact .ended hnext
      | done hphase => exact .ended hphase
    | ended hphase =>
      rw [Run.act_of_done hphase] at hact
      cases hact
      exact .ended hphase
  | fail _ hs _ =>
    obtain ⟨r₁, -, rfl⟩ := Run.act_of_step_error hs
    exact .ended rfl

/-- The old table is there when the tables are to be closed. -/
theorem guarded_of_reachable (hd : s.mode.isDestructive) (hw : w.Reliable) (hwf : files.WellFormed)
    (h : Reachable s w files none r) (hphase : r.phase = .finish) : Guarded s files r := by
  cases standing_of_reachable hd hw hwf h with
  | fresh hstart _ _ => rw [hphase] at hstart; cases hstart
  | working _ hg => exact hg
  | ended hdone => rw [hphase] at hdone; cases hdone

/-- The states in the course of a step, up to the final rename. -/
inductive Run.Amid (s : Setup) (w : Services) (r : Run) : Run → Prop where
  | before : Amid s w r r
  /-- The new table is open. -/
  | opened (hphase : r.phase = .start) : Amid s w r (r.openTarget s w).1
  /-- The new table is closed. -/
  | closed (hphase : r.phase = .finish) : Amid s w r ({ r with source := none }.closeTarget w).1
  /-- Both tables are closed. -/
  | closedBoth {r₁ : Run} (hphase : r.phase = .finish)
      (hc : { r with source := none }.closeTarget w = (r₁, .ok ())) :
      Amid s w r (r₁.closePrimary w).1

namespace Guarded

/-- Closing both tables: the old rows are still there, and the new table is
    closed. -/
theorem closed {r₁ r₂ : Run} {result : Except Failure Unit} (h : Guarded s files r)
    (hw : w.Reliable) (hlibrary : r.Spares files (s.library files))
    (hdraft : r.Spares files (s.draft files))
    (h₁ : { r with source := none }.closeTarget w = (r₁, .ok ()))
    (h₂ : r₁.closePrimary w = (r₂, result)) :
    r₂.stopped = r.stopped ∧ Intact files r₂.files (s.library files) ∧
      if r.stopped then (r₂.files.get? (s.draft files) = none ↔ s.HasWay r.files)
      else ∃ table, r₂.files.tableAt? (s.draft files) = some table ∧
        table.rows.Perm (r.history.written ++ s.leftover files) := by
  have hg : Guarded s files { r with source := none } := h.congr rfl rfl rfl rfl rfl
  obtain ⟨hi₁, hclosed⟩ := hg.closeTarget hw hlibrary h₁
  have hkeeps₁ := Run.closeTarget_keeps (w := w) (r := { r with source := none })
  rw [h₁] at hkeeps₁
  have hsame₁ : r₁.stopped = r.stopped ∧ r₁.primary = r.primary := by
    obtain ⟨_, _, _, rfl⟩ := hkeeps₁
    exact ⟨rfl, rfl⟩
  obtain ⟨hi₂, hsame⟩ := hg.closePrimary hsame₁.2 hi₁ h₂
  have hkeeps₂ := Run.closePrimary_keeps (w := w) (r := r₁)
  rw [h₂] at hkeeps₂
  have hstopped : r₂.stopped = r₁.stopped := by
    obtain ⟨_, _, _, rfl⟩ := hkeeps₂
    rfl
  rw [hsame, FileTree.tableAt?_congr hsame]
  exact ⟨hstopped.trans hsame₁.1, hi₂, hclosed rfl hdraft⟩

/-- **Finishing keeps the old rows, or replaces them by those of the new table.** -/
theorem finish {result : Except Failure Unit} (h : Guarded s files r) (hw : w.Reliable)
    (hlibrary : r.Spares files (s.library files)) (hdraft : r.Spares files (s.draft files))
    (hf : r.finish s w = (r', result)) :
    (if r.stopped = false ∧ result = .ok () then
        (r'.files.rowsAt (s.library files)).Perm (r.history.written ++ s.leftover files)
      else r'.files.rowsAt (s.library files) = files.rowsAt (s.library files)) ∧
      (r.stopped → result = .ok () → (r'.files.get? (s.draft files) = none ↔ s.HasWay r.files)) := by
  have hfinished := r.finish_cases s w
  rw [hf] at hfinished
  generalize hresult : (r', result) = outcome at hfinished
  -- The old rows stay until the rename succeeds, which a run that is stopped does not try.
  cases hfinished with
  | targetFails h₁ =>
    cases hresult
    have hg : Guarded s files { r with source := none } := h.congr rfl rfl rfl rfl rfl
    have hi := (hg.closeTarget hw hlibrary h₁).1
    exact ⟨by simpa using hi.rows, by simp⟩
  | primaryFails h₁ h₂ =>
    cases hresult
    obtain ⟨-, hi, -⟩ := h.closed hw hlibrary hdraft h₁ h₂
    exact ⟨by simpa using hi.rows, by simp⟩
  | renameFails h₁ h₂ hnew h₃ =>
    cases hresult
    obtain ⟨hstopped, hi, hclosed⟩ := h.closed hw hlibrary hdraft h₁ h₂
    rw [← hstopped, hnew.2, if_neg Bool.false_ne_true] at hclosed
    obtain ⟨table, htable, -⟩ := hclosed
    have hold := (replaceTable_cases hi.workingDir htable h₃).2 (by simp)
    exact ⟨by simpa [hold] using hi.rows, by simp⟩
  | @replaced _ _ r₃ h₁ h₂ hnew h₃ =>
    cases hresult
    obtain ⟨hstopped, hi, hclosed⟩ := h.closed hw hlibrary hdraft h₁ h₂
    rw [← hstopped, hnew.2, if_neg Bool.false_ne_true] at hclosed
    obtain ⟨table, htable, hrows⟩ := hclosed
    have hnewest := (replaceTable_cases hi.workingDir htable h₃).1 rfl
    obtain ⟨sent, hreport⟩ := r₃.report_keeps false
    rw [hreport, ← hstopped, hnew.2, if_pos ⟨rfl, rfl⟩, FileTree.rowsAt_of_table hnewest]
    exact ⟨hrows, by simp⟩
  | @kept _ r₂ h₁ h₂ hold =>
    cases hresult
    obtain ⟨hsame, hi, hclosed⟩ := h.closed hw hlibrary hdraft h₁ h₂
    obtain ⟨target, htarget, -⟩ := h.target
    have hstopped : r.stopped = true := by simpa [htarget, hsame] using hold
    obtain ⟨sent, hreport⟩ := r₂.report_keeps r.target.isSome
    rw [hreport]
    rw [if_pos hstopped] at hclosed
    exact ⟨by simpa [hstopped] using hi.rows, fun _ _ => hclosed⟩

end Guarded

/-- Up to the final rename the table of the library has its old rows. -/
theorem Standing.amid {r₁ : Run} (h : Standing s files r) (hw : w.Reliable)
    (hwf : files.WellFormed) (hphase : r.phase ≠ .done)
    (ha : Run.Amid s w r r₁) (hs : r₁.Spares files (s.library files)) :
    r₁.files.rowsAt (s.library files) = files.rowsAt (s.library files) := by
  -- Opening the new table and closing it leave the table of the library alone.
  cases h with
  | fresh hstart hfiles _ =>
    subst hfiles
    cases ha with
    | before => rfl
    | opened _ =>
      have hretabled := (openTarget_cases (s := s) hw hwf rfl).1
      exact ((Intact.refl hwf _).retabled hretabled (s.library_not_mem _)).rows
    | closed hfinish =>
      rw [hstart] at hfinish
      cases hfinish
    | closedBoth hfinish _ =>
      rw [hstart] at hfinish
      cases hfinish
  | working hstart hg =>
    have hg' : Guarded s files { r with source := none } := hg.congr rfl rfl rfl rfl rfl
    have hkeeps := Run.closeTarget_keeps (w := w) (r := { r with source := none })
    cases ha with
    | before => exact hg.kept hs
    | opened hphase => exact absurd hphase hstart
    | closed _ =>
      refine (hg'.closeTarget hw ?_ rfl).1.rows
      obtain ⟨_, _, _, heq⟩ := hkeeps
      rw [heq] at hs
      exact hs
    | @closedBoth r₂ _ hc =>
      rw [hc] at hkeeps
      have hsame : r₂.history = r.history ∧ r₂.primary = r.primary := by
        obtain ⟨_, _, _, rfl⟩ := hkeeps
        exact ⟨rfl, rfl⟩
      have hspares : r.Spares files (s.library files) := by
        obtain ⟨_, _, _, heq⟩ := Run.closePrimary_keeps (w := w) (r := r₂)
        rw [heq] at hs
        rw [Run.Spares, ← hsame.1]
        exact hs
      exact (hg'.closePrimary hsame.2 (hg'.closeTarget hw hspares hc).1 rfl).1.rows
  | ended hdone => exact absurd hdone hphase

/-- A step has acted, and perhaps reported a failure. -/
theorem act_of_step {result : Except Failure Run.Progress} (hs : r.step s w = (r', result)) :
    ∃ r₁ outcome, r.act s w = (r₁, outcome) ∧ r'.files = r₁.files ∧ r'.history = r₁.history ∧
      (result = .ok .done ↔ outcome = .ok () ∧ r₁.phase = .done) := by
  cases result with
  | ok p =>
    obtain ⟨hact, hp⟩ := Run.act_of_step_ok hs
    refine ⟨r', .ok (), hact, rfl, rfl, ?_⟩
    simp [hp, Run.progress]
  | error failure =>
    obtain ⟨r₁, hact, rfl⟩ := Run.act_of_step_error hs
    exact ⟨r₁, .error failure, hact, rfl, rfl, by simp⟩

/-- **A destructive run is all or nothing.**  Up to the final rename the table of
    the library has its old rows; a step that ends the run without a failure, and
    without having been stopped, leaves the rows written to the new table, and any
    other step the old rows.  A run that was stopped leaves no new table, if there
    is a way to it.  All this is as long as no file is moved to where one of the
    tables is; such a file takes the place of the table. -/
theorem step_allOrNothing {result : Except Failure Run.Progress} (hd : s.mode.isDestructive)
    (hw : w.Reliable) (hwf : files.WellFormed) (h : Reachable s w files none r)
    (hphase : r.phase ≠ .done) (hs : r.step s w = (r', result)) :
    (∀ r₁, Run.Amid s w r r₁ → r₁.Spares files (s.library files) →
      r₁.files.rowsAt (s.library files) = files.rowsAt (s.library files)) ∧
    (¬ r.Spares files (s.library files) → r.files.rowsAt (s.library files) = []) ∧
    (r'.Spares files (s.library files) → r'.Spares files (s.draft files) →
      (if r.phase = .finish ∧ r.stopped = false ∧ result = .ok .done then
        (r'.files.rowsAt (s.library files)).Perm (r'.history.written ++ s.leftover files)
      else r'.files.rowsAt (s.library files) = files.rowsAt (s.library files)) ∧
      (r.phase = .finish → r.stopped → result = .ok .done →
        (r'.files.get? (s.draft files) = none ↔ s.HasWay r.files))) := by
  have hstanding := standing_of_reachable hd hw hwf h
  refine ⟨fun r₁ ha hs => hstanding.amid hw hwf hphase ha hs, ?_, ?_⟩
  · intro hs
    cases hstanding with
    | fresh _ _ hhistory => exact absurd (by simp [Run.Spares, hhistory]) hs
    | working _ hg => simp [FileTree.rowsAt, hg.taken hs]
    | ended hdone => exact absurd hdone hphase
  · intro hl hdraft
    obtain ⟨r₁, outcome, hact, hfiles, hhistory, hresult⟩ := act_of_step hs
    rw [Run.Spares, hhistory] at hl hdraft
    rw [hfiles, hhistory]
    cases hstanding with
    | fresh hstart hsame hempty =>
      subst hsame
      simp only [Run.act, hstart] at hact
      simpa [hstart] using (start_cases hd hw hwf hempty hact).1.rows
    | ended hdone => exact absurd hdone hphase
    | working hstart hg =>
      -- Only the last phase replaces the table of the library.
      cases hcase : r.phase with
      | start => exact absurd hcase hstart
      | done => exact absurd hcase hphase
      | prepare =>
        simp only [Run.act, hcase] at hact
        have hg' : Guarded s files (r.prepare s w).1 := hg.prepare
        rw [hact] at hg'
        simpa using hg'.kept hl
      | gather =>
        simp only [Run.act, hcase] at hact
        have hg' := hg.gather hd hw
        rw [hact] at hg'
        simpa using hg'.kept hl
      | drain =>
        simp only [Run.act, hcase] at hact
        cases hact
        simpa using (hg.drain hd hw).kept hl
      | finish =>
        simp only [Run.act, hcase] at hact
        have hkept := r.finish_history s w
        rw [hact] at hkept
        rw [hkept] at hl hdraft ⊢
        obtain ⟨hrows, hgone⟩ := hg.finish hw hl hdraft hact
        have hdone : result = .ok .done ↔ outcome = .ok () := by
          rw [hresult, and_iff_left_iff_imp]
          rintro rfl
          exact Run.finish_phase hact
        simp only [hdone, true_and]
        exact ⟨hrows, fun _ => hgone⟩

theorem sampleServices_reliable : sampleServices.Reliable where
  move _ := rfl
  readTags _ _ _ _ := by simp [sampleServices]
  fileFault? _ := by simp [sampleServices]

theorem sampleFiles_wellFormed : sampleFiles.WellFormed :=
  .of_entries (by decide +kernel) (by decide +kernel)

/-- A library of one song is read anew: its one row is in the table in the end. -/
theorem step_allOrNothing_sample :
    ∃ r r' : Run, Reachable (sampleSetup .rebuild) sampleServices sampleFiles none r ∧
      r.phase = .finish ∧ r.step (sampleSetup .rebuild) sampleServices = (r', .ok .done) ∧
      r'.history.written.length = 1 ∧
      (r'.files.rowsAt ((sampleSetup .rebuild).library sampleFiles)).Perm r'.history.written := by
  have h : Reachable (sampleSetup .rebuild) sampleServices sampleFiles none
      (Run.steps (sampleSetup .rebuild) sampleServices 4 (.new (sampleSetup .rebuild) sampleFiles)) :=
    Run.reachable_steps .new (by decide +kernel)
  have hphase : (Run.steps (sampleSetup .rebuild) sampleServices 4
      (.new (sampleSetup .rebuild) sampleFiles)).phase = .finish := by decide +kernel
  refine ⟨_, _, h, hphase, Prod.ext rfl (by decide +kernel), by decide +kernel, ?_⟩
  have hstep := (step_allOrNothing rfl sampleServices_reliable sampleFiles_wellFormed h
    (by rw [hphase]; decide) (Prod.ext rfl rfl)).2.2 (by decide +kernel) (by decide +kernel)
  have hrows := hstep.1
  rw [if_pos (by decide +kernel), show (sampleSetup .rebuild).leftover sampleFiles = [] by decide +kernel,
    List.append_nil] at hrows
  exact hrows

/-- A library whose table is said to be at a path through a directory that is not
    there. -/
def detourSetup : Setup :=
  { sampleSetup .rebuild with databasePath := .ofString "/nodir/../songs.db" }

/-- **A run that was stopped may leave its new table behind**, though no operation
    failed. -/
theorem stopped_leaves_draft :
    ∃ r r' : Run, Reachable detourSetup sampleServices sampleFiles none r ∧
      r.phase = .finish ∧ r.stopped ∧ r.step detourSetup sampleServices = (r', .ok .done) ∧
      r'.history.moves = [] ∧ (r'.files.tableAt? (detourSetup.draft sampleFiles)).isSome := by
  have h : Reachable detourSetup sampleServices sampleFiles none
      (Run.steps detourSetup sampleServices 4 (.requestStop (.new detourSetup sampleFiles))) :=
    Run.reachable_steps (.control .stopRequest .new) (by decide +kernel)
  exact ⟨_, _, h, by decide +kernel, by decide +kernel, Prod.ext rfl (by decide +kernel),
    by decide +kernel, by decide +kernel⟩

end SongLibrary.Reconcile
