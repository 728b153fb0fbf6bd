/-
  A rebuild and a run that adds new files.

  * `Renewal.foreseen`: a rebuild, and a run that adds files where there are no tables, come to
    the same verdicts on the same candidates, and so to the same jobs;
  * the jobs come to the same in both (`Renewal.mirrored`), and the queues have been as long
    (`Renewal.level`);
  * the rebuild puts its table in the place of the old one (`Run.InFiles.finish`), where the
    other run has had its own from the beginning;
  * so both leave the same library, and have counted the same (`rebuild_renews`).
-/
import SongLibrary.Proofs.Reconcile.Alongside
import SongLibrary.Proofs.Reconcile.Ending
import SongLibrary.Proofs.Reconcile.Renewing

namespace SongLibrary.Reconcile

open FileTree (SameElsewhere)

variable {s : Setup} {w : Services} {files : FileTree} {r r' r₀ r₀' r₁ r₁' : Run}

/-! ## Runs that are to close their tables -/

/-- A run that is not stopped has come to closing its tables. -/
structure Closing (s : Setup) (w : Services) (files : FileTree) (r : Run) : Prop where
  reached : Reachable s w files none r
  phase : r.phase = .finish
  going : r.stopped = false

namespace Closing

theorem working (h : Closing s w files r) : Run.Working s w files r :=
  Run.working_of_reachable h.reached h.going (by simp [h.phase])

theorem slices (h : Closing s w files r) (hstart : (Run.new s files).start s w = (r₀, .ok ())) :
    ∃ r₁, r₀.prepare s w = (r₁, .ok ()) ∧ Run.Slices s w r₁ r := by
  obtain ⟨q, r₁, hstart', hprepare, hslices⟩ := h.working.slices
  obtain rfl : q = r₀ := (Prod.mk.inj (hstart'.symm.trans hstart)).1
  exact ⟨r₁, hprepare, hslices⟩

/-- The tables are where they were when they were opened. -/
theorem sameTables (h : Closing s w files r)
    (hstart : (Run.new s files).start s w = (r₀, .ok ())) : Run.SameTables r₀ r := by
  obtain ⟨r₁, hprepare, hslices⟩ := h.slices hstart
  have hbegun := Run.prepare_begun (Run.start_unstopped hstart) hprepare
  exact hbegun.sameTables.trans hslices.sameTables

/-- There is no candidate left, and no job. -/
theorem exhausted (h : Closing s w files r) : r.source = none ∧ r.queue.toList = [] :=
  ⟨h.working.seen (by simp [h.phase]), h.working.done h.phase⟩

end Closing

/-! ## The same jobs -/

/-- A run that adds files prepares to scan for them. -/
theorem Run.prepare_scans (hmode : s.mode.allowsMoves)
    (hstart : (Run.new s files).start s w = (r₀, .ok ())) (h : r₀.prepare s w = (r₁, .ok ())) :
    ∃ sent, r₁ = { r₀ with
      source := some (.files (r₀.files.walk s.root)), total := (r₀.files.walk s.root).length, sent
      phase := .gather } := by
  have hstop := Run.start_unstopped hstart
  have hchoose : r₀.chooseNextId s w = (r₀, .ok ()) := by
    rcases Mode.rebuild_or_checkNew hmode with heq | heq <;> simp [chooseNextId, heq]
  have horigin : s.mode.origin = .fileTree := by
    rcases Mode.rebuild_or_checkNew hmode with heq | heq <;> rw [heq] <;> rfl
  refine ⟨r₀.sent ++ [.progress 0], ?_⟩
  unfold prepare at h
  rw [hchoose] at h
  simpa [openSource, hstop, horigin, send, eq_comm] using h

/-- A run has counted nothing, and has no job, when its tables are open. -/
theorem Run.start_fresh (hstart : (Run.new s files).start s w = (r₀, .ok ())) :
    r₀.nextId = none ∧ r₀.counters = .zero ∧ r₀.queue = .empty s.queueLimit := by
  obtain ⟨_, _, _, _, _, hkeeps⟩ := Run.start_keeps s w (.new s files)
  rw [hstart] at hkeeps
  obtain rfl : r₀ = _ := hkeeps
  exact ⟨rfl, rfl, rfl⟩

/-- Where no file has a record, both runs come to the same verdicts. -/
theorem Setup.verdict_adding (s : Setup) (c : Candidate) (isThere : Bool) :
    s.adding.verdict c isThere none = s.verdict c isThere none := by
  have hsettlement : s.adding.settlement c none = s.settlement c none := by
    unfold Setup.settlement
    rfl
  simp [Setup.verdict, hsettlement]

theorem copiesFor_eq_nil {sees : Candidate → Verdict} (h : ∀ c, (sees c).copy = none)
    (candidates : List Candidate) : copiesFor sees candidates = [] := by
  simp [copiesFor, h]

namespace Renewal

theorem workingDir (hr : Renewal s w files r₀ r₀') : r₀.files.workingDir = files.workingDir :=
  hr.ready.retabled.workingDir

theorem library_eq (hr : Renewal s w files r₀ r₀') : s.library r₀.files = s.library files :=
  FileTree.destination_congr hr.workingDir _

theorem draft_eq (hr : Renewal s w files r₀ r₀') : s.draft r₀.files = s.draft files :=
  FileTree.destination_congr hr.workingDir _

/-- The jobs that both have are for new files, which are not on the way to the tables. -/
theorem isAside (hr : Renewal s w files r₀ r₀') (h : s.Renewable w files) :
    ∀ job ∈ s.freshJobs w files, job.IsAside s r₀.files := by
  intro job hjob
  obtain ⟨c, hc, hverdict⟩ := List.mem_filterMap.1 hjob
  obtain ⟨p, hp, rfl⟩ := List.mem_map.1 hc
  rw [Setup.scan, hr.start] at hp
  have hlisted : r₀.files.Listed := hr.ready.retabled.listed h.listed
  rw [Setup.eq_of_verdict hverdict]
  refine ⟨rfl, isAbsolute_of_mem_walk hlisted h.root hp, ?_⟩
  refine FileTree.avoids_of_mem_walk hr.ready.retabled.wellFormed hlisted h.root ?_ ?_ hp
  · rw [hr.library_eq, hr.draft_eq]
    obtain ⟨c, hlibrary⟩ := hr.library
    obtain ⟨d, hdraft⟩ := hr.draft
    simp [hlibrary, hdraft]
  · rw [hr.library_eq, hr.draft_eq, FileTree.destination_congr hr.workingDir]
    exact fun k hk => h.outside k (List.mem_append_left [s.journal files] hk)

/-- Both begin with the same, when they have prepared. -/
theorem mirrors (hr : Renewal s w files r₀ r₀') (hmode : s.mode = .rebuild)
    (hprepare : r₀.prepare s w = (r₁, .ok ()))
    (hprepare' : r₀'.prepare s.adding w = (r₁', .ok ())) :
    Run.Mirrors s r₀.files r₀'.files r₁ r₁' := by
  obtain ⟨sent, rfl⟩ := Run.prepare_scans (by rw [hmode]; rfl) hr.start hprepare
  obtain ⟨sent', rfl⟩ := Run.prepare_scans (by rfl) hr.start' hprepare'
  obtain ⟨hnew, hcounters, -⟩ := Run.start_fresh hr.start
  obtain ⟨hnew', hcounters', -⟩ := Run.start_fresh hr.start'
  have htarget' : r₀'.target = none := by
    have htarget := hr.ready'.target
    rw [if_neg (show ¬ s.adding.mode.isDestructive = true by simp [Mode.isDestructive])] at htarget
    exact htarget
  refine ⟨⟨?_, hr.ready.retabled.wellFormed, hr.ready'.retabled.wellFormed, rfl⟩,
    (r₀'.moment : Int) - r₀.moment, rfl, ?_, ?_, ?_, .inr ⟨trivial, hnew⟩, ?_⟩
  · rw [hr.library_eq, hr.draft_eq]
    exact hr.trees
  · exact hnew'.trans hnew.symm
  · intro counter _
    rw [UInt64.add_zero]
    exact congrArg (Counters.get · counter) (hcounters'.trans hcounters.symm)
  · simp [Run.written, htarget', hr.target, hr.primary']
  · dsimp only
    omega

/-- The verdicts on all candidates are known when both have prepared, and are the same. -/
theorem foreseen (hr : Renewal s w files r₀ r₀') (h : s.Renewable w files)
    (hmode : s.mode = .rebuild) (hprepare : r₀.prepare s w = (r₁, .ok ()))
    (hprepare' : r₀'.prepare s.adding w = (r₁', .ok ())) :
    (r₁.books.primary.isSome ∧ ∃ paths, Scans s ((s.scan w files).map s.ofFile) r₁.books paths) ∧
    ∃ J, Foreseen s.adding w (fun c => s.verdict c true none) J ∧
      J ((s.scan w files).map s.ofFile) r₁'.books := by
  have hbegun := Run.prepare_begun (Run.start_unstopped hr.start) hprepare
  have hbegun' := Run.prepare_begun (Run.start_unstopped hr.start') hprepare'
  have hscan : s.scan w files = r₀.files.walk s.root := by rw [Setup.scan, hr.start]
  refine ⟨?_, ?_⟩
  · obtain ⟨primary, hprimary, -⟩ := hr.ready.primary
    rw [hbegun.books_files (by rw [hmode]; rfl), hscan]
    exact ⟨by rw [hprimary]; rfl, _, .of_source s r₀.books _⟩
  · have hlisted : (s.cleared files).Listed := ((h.listed.erase _).erase _).erase _
    have hwalk : r₀'.files.walk s.adding.root = s.scan w files := hr.walk.trans hscan.symm
    have hforeseen := checkNew_foreseen (s := s.adding) (w := w) rfl hr.ready'.retabled.wellFormed
      (hr.ready'.retabled.listed hlisted) h.music h.root (hwalk.symm ▸ h.text) .empty
    have hsees : (fun c => s.adding.verdict c true (SongTable.empty.songAt? c.key)) =
        fun c => s.verdict c true none := funext fun c => s.verdict_adding c true
    have hbegins := checkNew_awaits rfl hlisted hr.ready' hr.primary' hbegun'
    rw [hwalk] at hbegins
    exact ⟨_, hsees ▸ hforeseen, hbegins⟩

/-- No record is copied that could be copied before a job is done. -/
theorem swappable (hmode : s.mode = .rebuild) (s' : Setup) (r₁ : Run) :
    Swappable s' w (fun c => s.verdict c true none) ((s.scan w files).map s.ofFile) r₁ := by
  intro seen rest c song taken jobs _ hcopy _
  rw [Setup.copy_verdict (by simp [hmode])] at hcopy
  cases hcopy

/-- Both do the same, step by step. -/
theorem alongside (hr : Renewal s w files r₀ r₀') (hw : w.Steady) (h : s.Renewable w files)
    (hmode : s.mode = .rebuild) (hprepare : r₀.prepare s w = (r₁, .ok ()))
    (hprepare' : r₀'.prepare s.adding w = (r₁', .ok ())) : Alongside s w r₁ r₁' := by
  obtain ⟨hJ, J', hF', hJ'⟩ := hr.foreseen h hmode hprepare hprepare'
  have hbegun := Run.prepare_begun (Run.start_unstopped hr.start) hprepare
  have hbegun' := Run.prepare_begun (Run.start_unstopped hr.start') hprepare'
  have hholds : ∀ r, Run.Slices s w r₁ r → ∃ rest : List Candidate,
      r.books.primary.isSome ∧ ∃ paths, Scans s rest r.books paths := fun r hslices => by
    obtain ⟨_, rest, _, hforetold⟩ := (rebuild_foreseen hmode).slices hw (swappable hmode s r₁) hJ
      (Run.queue_of_prepare hr.start hprepare) hslices
    exact ⟨rest, hforetold.holds⟩
  refine ⟨hw.toSound, hmode, hbegun.sameTables.primary_isSome.trans (Run.start_primary hr.start),
    hbegun'.sameTables.primary_isSome.trans (Run.start_primary hr.start'),
    ⟨_, _, J', rebuild_foreseen hmode, hF', hholds, fun r' hslices' => ?_⟩, ?_⟩
  · obtain ⟨_, rest, _, hforetold⟩ := hF'.slices hw (swappable hmode s.adding r₁') hJ'
      (Run.queue_of_prepare hr.start' hprepare') hslices'
    exact ⟨rest, hforetold.holds⟩
  · intro r hslices visit hsource
    obtain ⟨_, -, _, hscans⟩ := hholds r hslices
    cases hscans.coming _ hsource

/-- **Both have come to the same when they are to close their tables.** -/
theorem mirrored (hr : Renewal s w files r₀ r₀') (hw : w.Steady) (h : s.Renewable w files)
    (hmode : s.mode = .rebuild) (hclosing : Closing s w files r)
    (hclosing' : Closing s.adding w (s.cleared files) r') :
    Run.Mirrors s r₀.files r₀'.files r r' := by
  obtain ⟨r₁, hprepare, hslices⟩ := hclosing.slices hr.start
  obtain ⟨r₁', hprepare', hslices'⟩ := hclosing'.slices hr.start'
  obtain ⟨hsource, hdone⟩ := hclosing.exhausted
  obtain ⟨hsource', hdone'⟩ := hclosing'.exhausted
  obtain ⟨hJ, J', hF', hJ'⟩ := hr.foreseen h hmode hprepare hprepare'
  have hcopies : copiesFor (fun c => s.verdict c true none) ((s.scan w files).map s.ofFile) = [] :=
    copiesFor_eq_nil (fun _ => Setup.copy_verdict (by simp [hmode]) true none) _
  obtain ⟨gap, hahead⟩ := (rebuild_foreseen hmode).finished hw (swappable hmode s r₁) hJ
    (Run.queue_of_prepare hr.start hprepare) hslices hsource hdone
  obtain ⟨gap', hahead'⟩ := hF'.finished hw (swappable hmode s.adding r₁') hJ'
    (Run.queue_of_prepare hr.start' hprepare') hslices' hsource' hdone'
  rw [hcopies] at hahead hahead'
  refine Run.Mirrors.of_ahead ?_ hahead hahead'
  refine (hr.mirrors hmode hprepare hprepare').performAll hw hmode h.music ?_ ?_ (hr.isAside h) ?_
  · exact hr.library_eq.symm ▸ hr.library
  · exact hr.library_eq.symm ▸ hr.library'
  · -- What has been counted and found is nothing to where jobs try to move files.
    intro target htarget
    rw [Setup.clear_congr hr.workingDir]
    refine h.clear target ?_
    obtain ⟨sent, rfl⟩ := Run.prepare_scans (by rw [hmode]; rfl) hr.start hprepare
    have hsame : Run.Alike (fun _ => "") 0 False r₀ { r₀ with
        source := some (.files (r₀.files.walk s.root)), total := (r₀.files.walk s.root).length, sent
        phase := .gather } := .same rfl rfl rfl rfl rfl (by simp)
    rw [Setup.tried, hr.start, ← hsame.tried hw]
    exact htarget

/-- Their queues have been as long. -/
theorem level (hr : Renewal s w files r₀ r₀') (hw : w.Steady) (h : s.Renewable w files)
    (hmode : s.mode = .rebuild) (hclosing : Closing s w files r)
    (hclosing' : Closing s.adding w (s.cleared files) r') : Run.Level r r' := by
  obtain ⟨r₁, hprepare, -⟩ := hclosing.slices hr.start
  obtain ⟨r₁', hprepare', -⟩ := hclosing'.slices hr.start'
  obtain ⟨n, rfl⟩ := Run.exists_steps_of_finish hclosing.reached hclosing.going hclosing.phase
    hr.start hprepare
  obtain ⟨m, rfl⟩ := Run.exists_steps_of_finish hclosing'.reached hclosing'.going hclosing'.phase
    hr.start' hprepare'
  refine InStep.level_of_finish (hr.alongside hw h hmode hprepare hprepare') ?_
    (Run.prepare_phase hprepare) hclosing.phase hclosing'.phase
  obtain ⟨sent, rfl⟩ := Run.prepare_scans (by rw [hmode]; rfl) hr.start hprepare
  obtain ⟨sent', rfl⟩ := Run.prepare_scans (by rfl) hr.start' hprepare'
  obtain ⟨-, hcounters, hqueue⟩ := Run.start_fresh hr.start
  obtain ⟨-, hcounters', hqueue'⟩ := Run.start_fresh hr.start'
  exact ⟨rfl, congrArg (fun paths => some (Source.files paths)) hr.walk, hqueue'.trans hqueue.symm,
    congrArg (Counters.get · .queueHighWater) (hcounters'.trans hcounters.symm)⟩

end Renewal

/-! ## Closing the tables -/

/-- Both tables are open, and each is in its file. -/
structure Run.InFiles (s : Setup) (r : Run) (target primary : OpenTable) : Prop where
  opened : r.target = some target
  openedLibrary : r.primary = some primary
  place : target.location = some (s.draft r.files)
  placeLibrary : primary.location = some (s.library r.files)
  draft : (r.files.tableAt? (s.draft r.files)).isSome
  library : (r.files.tableAt? (s.library r.files)).isSome

namespace Run.InFiles

variable {target primary : OpenTable}

theorem library_ne_nil (h : r.InFiles s target primary) : s.library r.files ≠ [] := by
  obtain ⟨table, htable⟩ := Option.isSome_iff_exists.1 h.library
  exact FileTree.ne_nil_of_get? (FileTree.tableAt?_eq_some.1 htable)

theorem committedFiles_eq (h : r.InFiles s target primary) : r.committedFiles =
    (r.files.keepTable (s.draft r.files) target.table).keepTable (s.library r.files)
      primary.table := by
  simp only [committedFiles, closedFiles, savedFiles, h.opened, h.openedLibrary, h.place,
    h.placeLibrary]

/-- Once both tables are closed, they are in their files. -/
theorem get?_committedFiles (h : r.InFiles s target primary) (m : Location) :
    r.committedFiles.get? m = if m = s.library r.files then some (.file (.songs primary.table))
      else if m = s.draft r.files then some (.file (.songs target.table)) else r.files.get? m := by
  have hdraft := s.draft_ne_nil r.files
  have hstays : ((r.files.keepTable (s.draft r.files) target.table).tableAt?
      (s.library r.files)).isSome := by
    rw [FileTree.tableAt?_congr
      (FileTree.get?_keepTable_ne hdraft _ (s.draft_ne_library r.files).symm)]
    exact h.library
  rw [h.committedFiles_eq, FileTree.get?_keepTable h.library_ne_nil hstays,
    FileTree.get?_keepTable hdraft h.draft]

end Run.InFiles

/-- Files beside each other can be put in each other's place, where the paths lead to both. -/
theorem Setup.replaceable_of_leads {t : FileTree} {c d : Content} (hwf : t.WellFormed)
    (hleads : t.Leads s.databasePath) (hleads' : t.Leads s.newDatabasePath)
    (hdraft : t.get? (s.draft t) = some (.file c)) (hlibrary : t.get? (s.library t) = some (.file d)) :
    s.Replaceable t := by
  refine ⟨⟨c, hwf.find_of_leads hleads' hdraft⟩, .of_find (hwf.find_of_leads hleads hlibrary), ?_⟩
  obtain ⟨l, name, hl, hd⟩ := s.draft_beside hwf ⟨d, hlibrary⟩ ⟨c, hdraft⟩
  rw [hl, hd, List.dropLast_concat, List.dropLast_concat]
  simp [FileTree.sameDevice]

/-- **The new table comes into the place of the old one**, where the paths lead to both. -/
theorem Run.InFiles.finish {target primary : OpenTable} (h : r.InFiles s target primary)
    (hw : w.Steady) (hstop : r.stopped = false) (hwf : r.files.WellFormed)
    (hleads : r.files.Leads s.databasePath) (hleads' : r.files.Leads s.newDatabasePath) :
    ∃ (t : FileTree) (moment : Nat), r.finish s w = (Run.report { r with
        source := none, target := none, primary := none, files := t, moment } false, .ok ()) ∧
      t.workingDir = r.files.workingDir ∧
      ∀ m, t.get? m = if m = s.library r.files then some (.file (.songs target.table))
        else if m = s.draft r.files then none else r.files.get? m := by
  have hget := h.get?_committedFiles
  have hwf' : r.committedFiles.WellFormed :=
    h.committedFiles_eq ▸ (hwf.keepTable _ _).keepTable _ _
  have hdir : r.committedFiles.workingDir = r.files.workingDir := by simp [h.committedFiles_eq]
  have hdraft : s.draft r.committedFiles = s.draft r.files := FileTree.destination_congr hdir _
  have hlibrary : s.library r.committedFiles = s.library r.files :=
    FileTree.destination_congr hdir _
  have hnew : r.committedFiles.get? (s.draft r.committedFiles) =
      some (.file (.songs target.table)) := by
    rw [hdraft, hget, if_neg (s.draft_ne_library r.files), if_pos rfl]
  have hold : r.committedFiles.get? (s.library r.committedFiles) =
      some (.file (.songs primary.table)) := by
    rw [hlibrary, hget, if_pos rfl]
  obtain ⟨t, hrename⟩ := (Setup.replaceable_of_leads hwf' ((FileTree.leads_congr hdir).2 hleads)
    ((FileTree.leads_congr hdir).2 hleads') hnew hold).rename
  have hmoves := (Setup.Replaceable.of_rename hnew hrename).2
  obtain ⟨moment, hfinish⟩ := Run.finish_closes (s := s) hw hstop
  rw [h.opened, Option.isSome_some, if_pos rfl, hrename] at hfinish
  refine ⟨t, moment, hfinish, hmoves.workingDir.trans hdir, fun m => ?_⟩
  rw [hmoves.get?, hdraft, hlibrary, hget]
  by_cases hm : m = s.library r.files <;> by_cases hm' : m = s.draft r.files <;> simp [hm, hm']

/-! ## Both runs end -/

/-- How a run ends that is not stopped, with the failure if there is one. -/
structure Ends (s : Setup) (w : Services) (files : FileTree) (o : Option Failure) (r : Run) :
    Prop where
  reached : Reachable s w files o r
  done : r.phase = .done
  going : r.stopped = false

/-- Two runs leave the same library, dates aside, and have counted the same. -/
structure SameEnd (s : Setup) (r r' : Run) : Prop where
  files : ∀ l, r'.files.undated.get? l = r.files.undated.get? l
  songs : (s.rows r'.files).map Row.undated = (s.rows r.files).map Row.undated
  counters : ∀ counter, r'.counters.get counter = r.counters.get counter

namespace Ends

variable {o : Option Failure}

/-- A run that opens its tables comes to close them. -/
theorem closes (hw : w.Sound) (h : Ends s w files o r)
    (hstart : (Run.new s files).start s w = (r₀, .ok ())) :
    ∃ q, Closing s w files q ∧ Run.ended (q.finish s w) = (o, r) := by
  have hconcludes := Run.concludes_of_reachable hw h.reached h.done h.going
  generalize hend : (o, r) = e at hconcludes
  cases hconcludes with
  | unopened hstart' => cases hstart.symm.trans hstart'
  | closed hrun hphase hstop => exact ⟨_, ⟨hrun, hphase, hstop⟩, rfl⟩

end Ends

/-- A run that no message reaches is not stopped. -/
theorem ends_driven {n : Nat}
    (hdone : (Run.driven s w (fun _ => []) n (.new s files)).phase = .done) :
    ∃ o, Ends s w files o (Run.driven s w (fun _ => []) n (.new s files)) := by
  obtain ⟨o, hreached⟩ := Run.exists_reachable_driven s w files (fun _ => []) n
  refine ⟨o, hreached, hdone, ?_⟩
  clear hdone hreached
  induction n with
  | zero => rfl
  | succ n ih => exact (Run.stopped_step s w _).trans ih

/-- Files that are the same, dates aside, have the same songs. -/
theorem Setup.rows_undated {t t' : FileTree} (hdir : t'.workingDir = t.workingDir)
    (h : ∀ l, t'.undated.get? l = t.undated.get? l) :
    (s.rows t').map Row.undated = (s.rows t).map Row.undated := by
  have hlibrary : s.library t' = s.library t := FileTree.destination_congr hdir _
  unfold Setup.rows
  split
  · rfl
  · rw [hlibrary, ← FileTree.rowsAt_undated, ← FileTree.rowsAt_undated,
      FileTree.rowsAt_congr (FileTree.tableAt?_congr (h _))]

namespace Renewal

/-- What a rebuild leaves: its new table in the place of the old one. -/
theorem finish_rebuild (hr : Renewal s w files r₀ r₀') (hw : w.Steady) (h : s.Renewable w files)
    (hmode : s.mode = .rebuild) (hclosing : Closing s w files r)
    (hfiles : Twins s r₀.files r₀'.files r.files r'.files) :
    ∃ (target : OpenTable) (t : FileTree) (moment : Nat), r.target = some target ∧
      r.finish s w = (Run.report { r with
        source := none, target := none, primary := none, files := t, moment } false, .ok ()) ∧
      t.workingDir = r.files.workingDir ∧
      ∀ m, t.get? m = if m = s.library files then some (.file (.songs target.table))
        else if m = s.draft files then none else r.files.get? m := by
  have htables := hclosing.sameTables hr.start
  have hdir : r.files.workingDir = files.workingDir := hfiles.moved.trans hr.workingDir
  have hplaces : s.draft r.files = s.draft files ∧ s.library r.files = s.library files :=
    ⟨FileTree.destination_congr hdir _, FileTree.destination_congr hdir _⟩
  obtain ⟨target, htarget, hlocation⟩ : ∃ target, r.target = some target ∧
      target.location = some (s.draft files) := by simpa [hr.target] using htables.target
  obtain ⟨primary, hprimary, -, hlocation'⟩ := hr.ready.primary
  have hprimary' : r.primary = some primary :=
    (htables.library (by rw [hr.target]; rfl)).trans hprimary
  have htable : ∀ l ∈ s.tablePlaces files, l ∈ [s.library r₀.files, s.draft r₀.files] →
      (r.files.tableAt? l).isSome := fun l hl hmem => by
    rw [FileTree.tableAt?_congr (hfiles.kept l hmem).1]
    exact hr.ready.tables l hl
  rw [if_neg h.hasFile] at hlocation'
  have hinFiles : r.InFiles s target primary := by
    refine ⟨htarget, hprimary', ?_, ?_, ?_, ?_⟩
    · rw [hplaces.1, hlocation]
    · rw [hplaces.2, hlocation']
    · rw [hplaces.1]
      exact htable _ (Setup.mem_tablePlaces.2 (.inr ⟨by rw [hmode]; rfl, rfl⟩)) (by simp [hr.draft_eq])
    · rw [hplaces.2]
      exact htable _ (Setup.mem_tablePlaces.2 (.inl ⟨h.hasFile, rfl⟩)) (by simp [hr.library_eq])
  obtain ⟨t, moment, hfinish, hdir', hget⟩ := hinFiles.finish hw hclosing.going hfiles.wellFormed
    ((FileTree.leads_congr hdir).2 h.leads) ((FileTree.leads_congr hdir).2 h.leads')
  rw [hplaces.1, hplaces.2] at hget
  exact ⟨target, t, moment, htarget, hfinish, hdir', hget⟩

/-- What the other run leaves: the table that it had from the beginning. -/
theorem finish_adding (hr : Renewal s w files r₀ r₀') (hw : w.Steady) (h : s.Renewable w files)
    (hclosing : Closing s.adding w (s.cleared files) r')
    (hfiles : Twins s r₀.files r₀'.files r.files r'.files) :
    ∃ (primary : OpenTable) (t : FileTree) (moment : Nat), r'.target = none ∧
      r'.primary = some primary ∧ r'.finish s.adding w = (Run.report { r' with
        source := none, primary := none, files := t, moment } false, .ok ()) ∧
      t.workingDir = r'.files.workingDir ∧
      ∀ m, t.get? m = if m = s.library files then some (.file (.songs primary.table))
        else r'.files.get? m := by
  have htables := hclosing.sameTables hr.start'
  have htarget : r'.target = none := by
    have hnone := hr.ready'.target
    rw [if_neg (show ¬ s.adding.mode.isDestructive = true by simp [Mode.isDestructive])] at hnone
    simpa [show r₀'.target = none from hnone] using htables.target
  obtain ⟨primary, hprimary, hlocation⟩ : ∃ primary, r'.primary = some primary ∧
      primary.location = some (s.library files) := by simpa [hr.primary'] using htables.primary
  obtain ⟨moment, hfinish⟩ := Run.finish_saves (s := s.adding) hw.toSound htarget hprimary
  have hsaved : r'.savedFiles primary = r'.files.keepTable (s.library files) primary.table := by
    simp only [Run.savedFiles, hlocation]
  obtain ⟨c, hc⟩ := hr.library'
  have htable : (r'.files.tableAt? (s.library files)).isSome := by
    rw [FileTree.tableAt?_congr (hfiles.kept _ (by simp [hr.library_eq])).2]
    have hlibrary : s.library (s.cleared files) = s.library files :=
      FileTree.destination_congr rfl _
    exact hr.ready'.tables _ (Setup.mem_tablePlaces.2 (.inl ⟨h.hasFile, hlibrary.symm⟩))
  refine ⟨primary, _, moment, htarget, hprimary, hfinish, by simp [hsaved], fun m => ?_⟩
  rw [hsaved, FileTree.get?_keepTable (FileTree.ne_nil_of_get? hc) htable]

/-- **Both runs end alike.** -/
theorem sameEnd (hr : Renewal s w files r₀ r₀') (hw : w.Steady) (h : s.Renewable w files)
    (hmode : s.mode = .rebuild) (hclosing : Closing s w files r)
    (hclosing' : Closing s.adding w (s.cleared files) r') :
    (Run.ended (r.finish s w)).1 = none ∧ (Run.ended (r'.finish s.adding w)).1 = none ∧
      SameEnd s (Run.ended (r.finish s w)).2 (Run.ended (r'.finish s.adding w)).2 := by
  have hmirrors := hr.mirrored hw h hmode hclosing hclosing'
  have hlevel := hr.level hw h hmode hclosing hclosing'
  obtain ⟨gap, halike⟩ := hmirrors.alike
  obtain ⟨target, t, moment, htarget, hfinish, hdir, hget⟩ :=
    hr.finish_rebuild hw h hmode hclosing hmirrors.files
  obtain ⟨primary, t', moment', htarget', hprimary', hfinish', hdir', hget'⟩ :=
    hr.finish_adding hw h hclosing' hmirrors.files
  have hdirs : t'.workingDir = t.workingDir :=
    hdir'.trans (hmirrors.files.workingDir.trans hdir.symm)
  have htables : primary.table.undated = target.table.undated := by
    have hwritten := halike.table
    simp only [Run.written, htarget, htarget', hprimary', Option.none_or, Option.some_or,
      Option.map_some] at hwritten
    exact Option.some.inj hwritten
  -- The tables of the library have the same songs, and the new table is gone in both.
  have hfiles : ∀ l, t'.undated.get? l = t.undated.get? l := by
    intro l
    rw [FileTree.get?_undated, FileTree.get?_undated, hget, hget']
    by_cases hlibrary : l = s.library files
    · rw [if_pos hlibrary, if_pos hlibrary]
      exact congrArg (fun table => some (Entry.file (.songs table))) htables
    · rw [if_neg hlibrary, if_neg hlibrary]
      by_cases hdraft : l = s.draft files
      · rw [if_pos hdraft, hdraft, (hmirrors.files.kept _ (by simp [hr.draft_eq])).2, hr.draft']
      · rw [if_neg hdraft, hmirrors.files.get? l]
        simp [hr.library_eq, hr.draft_eq, hlibrary, hdraft]
  obtain ⟨sent, hreport⟩ := Run.report_keeps { r with
    source := none, target := none, primary := none, files := t, moment } false
  obtain ⟨sent', hreport'⟩ := Run.report_keeps { r' with
    source := none, primary := none, files := t', moment := moment' } false
  rw [hfinish, hfinish', hreport, hreport']
  refine ⟨rfl, rfl, hfiles, Setup.rows_undated hdirs hfiles, fun counter => ?_⟩
  simp only [Run.ended, Counters.raise, Counters.get_set]
  split
  · have hlongest : r'.counters.get .queueHighWater = r.counters.get .queueHighWater :=
      hlevel.longest
    rw [hlongest, hlevel.queue]
  · next hother => exact Run.Alike.counts halike hother

end Renewal

/-- **A rebuild comes to what adding all files to a new table does**: it ends, and so does a run
    that adds new files where there are no tables, and both leave the same files and the same
    songs, dates aside, and have counted the same. -/
theorem rebuild_renews (hw : w.Steady) (hmode : s.mode = .rebuild) (hbatch : 0 < s.batch)
    (h : s.Renewable w files) :
    (∃ r r', Ends s w files none r ∧ Ends s.adding w (s.cleared files) none r') ∧
    ∀ o o' r r', Ends s w files o r → Ends s.adding w (s.cleared files) o' r' →
      o = none ∧ o' = none ∧ SameEnd s r r' := by
  obtain ⟨r₀, r₀', hr⟩ := h.starts hw.toSound hmode
  have hsame : ∀ o o' r r', Ends s w files o r → Ends s.adding w (s.cleared files) o' r' →
      o = none ∧ o' = none ∧ SameEnd s r r' := by
    intro o o' r r' hends hends'
    obtain ⟨q, hclosing, hended⟩ := hends.closes hw.toSound hr.start
    obtain ⟨q', hclosing', hended'⟩ := hends'.closes hw.toSound hr.start'
    have hsame := hr.sameEnd hw h hmode hclosing hclosing'
    rwa [hended, hended'] at hsame
  obtain ⟨n, hdone, -⟩ := Run.exists_end s w hbatch (fun _ => []) files
  obtain ⟨m, hdone', -⟩ := Run.exists_end s.adding w hbatch (fun _ => []) (s.cleared files)
  obtain ⟨o, hends⟩ := ends_driven hdone
  obtain ⟨o', hends'⟩ := ends_driven hdone'
  obtain ⟨rfl, rfl, -⟩ := hsame o o' _ _ hends hends'
  exact ⟨⟨_, _, hends, hends'⟩, hsame⟩

/-- A library with a record of a file that is gone, and what an earlier rebuild has left. -/
def outdatedFiles : FileTree where
  entries :=
    [([.ofString "music"], .directory),
      ([.ofString "music", .ofString "a.mp3"], .file (.text "a song")),
      ([.ofString "songs.db"], .file (.songs ⟨[(titled "gone.mp3").row 7], by decide⟩)),
      ([.ofString "songs.db.new"], .file (.text "a table"))]

theorem outdatedFiles_renewable :
    (sampleSetup .rebuild).Renewable sampleServices outdatedFiles where
  wellFormed := .of_entries (by decide +kernel) (by decide +kernel)
  listed := by decide +kernel
  music := by decide +kernel
  root := by decide +kernel
  text := by decide +kernel
  outside := by decide +kernel
  hasFile := by decide +kernel
  leads := by decide +kernel
  leads' := by decide +kernel
  opens := by decide +kernel
  clear := by decide +kernel

/-- A rebuild moves the file of the library, and so does the other run. -/
theorem rebuild_renews_outdated :
    ∃ r r' : Run, Ends (sampleSetup .rebuild) sampleServices outdatedFiles none r ∧
      Ends (sampleSetup .checkNew) sampleServices
        ((sampleSetup .rebuild).cleared outdatedFiles) none r' ∧
      r.counters.get .renamed = 1 ∧ SameEnd (sampleSetup .rebuild) r r' := by
  have hends : Ends (sampleSetup .rebuild) sampleServices outdatedFiles none
      (Run.steps (sampleSetup .rebuild) sampleServices 6
        (.new (sampleSetup .rebuild) outdatedFiles)) :=
    ⟨Run.reachable_steps .new (by decide +kernel), by decide +kernel, by decide +kernel⟩
  obtain ⟨⟨_, r', -, hends'⟩, hsame⟩ := rebuild_renews sampleServices_steady
    (show (sampleSetup .rebuild).mode = .rebuild from rfl) (Setup.batch_of ..)
    outdatedFiles_renewable
  exact ⟨_, r', hends, hends', by decide +kernel, (hsame _ _ _ _ hends hends').2.2⟩

/-! ## Where a rebuild comes to something else -/

/-- A rebuild does not come to what adding all files does where the library has no table,
    though the tables are outside of what is scanned. -/
def Setup.Departs (s : Setup) (files : FileTree) : Prop :=
  s.Apart sampleServices files ∧ ∃ o o' r r', Ends s sampleServices files o r ∧
    Ends s.adding sampleServices (files.erase (s.library files)) o' r' ∧ ¬ SameEnd s r r'

/-- What both leave after some steps shows it. -/
theorem Setup.departs {n : Nat}
    (happart : (∀ e ∈ files.entries, files.get? e.1.dropLast = some .directory ∧
        ∀ name ∈ e.1, name.IsProper) ∧ (∀ name ∈ files.workingDir, name.IsProper) ∧ files.Listed ∧
      s.musicDir.isAbsolute ∧ s.root.isAbsolute ∧ (∀ p ∈ s.scan sampleServices files, p.IsText) ∧
      ∀ k ∈ s.allPlaces files, ¬ files.destination s.root <+: k)
    (hdone : (Run.driven s sampleServices (fun _ => []) n (.new s files)).phase = .done)
    (hdone' : (Run.driven s.adding sampleServices (fun _ => []) n
      (.new s.adding (files.erase (s.library files)))).phase = .done)
    (h : ¬ SameEnd s (Run.driven s sampleServices (fun _ => []) n (.new s files))
      (Run.driven s.adding sampleServices (fun _ => []) n
        (.new s.adding (files.erase (s.library files))))) : s.Departs files := by
  obtain ⟨hentries, hdir, hlisted, hmusic, hroot, htext, houtside⟩ := happart
  obtain ⟨o, hends⟩ := ends_driven hdone
  obtain ⟨o', hends'⟩ := ends_driven hdone'
  exact ⟨⟨.of_entries hentries hdir, hlisted, hmusic, hroot, htext, houtside⟩,
    o, o', _, _, hends, hends', h⟩

/-- A rebuild of the library in `/music` that scans `/music/d`. -/
def partRebuild (orgPath database : String) : Setup :=
  .of { library := { orgPath, autoOrganize := true } } .rebuild (.ofString "/music")
    (.ofString database) (some (.ofString "/music/d")) .linux

/-- The directories of the library, and one thing more. -/
def partFiles (path : String) (e : Entry) : FileTree where
  entries := [([.ofString "music"], .directory),
    ([.ofString "music", .ofString "d"], .directory), ((Path.ofString path).names, e)]

/-- **A rebuild may come to something else**: where a file is moved to where the new table is;
    where something is there before, or a directory; where the table is in no file; and where
    the place of a file, or the table, is on the other side of a directory that comes or
    goes. -/
theorem rebuild_departs :
    (partRebuild "songs.db" "/music/songs.db").Departs
      (partFiles "/music/d/b.new" (.file (.text "a song"))) ∧
    (partRebuild "%TITLE%" "/songs.db").Departs
      (partFiles "/songs.db.new" (.file (.text "a table"))) ∧
    (partRebuild "%TITLE%" "/songs.db").Departs (partFiles "/songs.db.new" .directory) ∧
    (partRebuild "%TITLE%" ":memory:").Departs
      (partFiles "/music/d/a.mp3" (.file (.text "a song"))) ∧
    (partRebuild "e/../songs" "/music/songs.x").Departs
      (partFiles "/music/d/b.x" (.file (.text "a song"))) ∧
    (partRebuild "%TITLE%" "/music/d/../songs.db").Departs
      (partFiles "/music/d/a.mp3" (.file (.text "a song"))) := by
  refine ⟨?_, ?_, ?_, ?_, ?_, ?_⟩
  · exact Setup.departs (n := 8) (by decide +kernel) (by decide +kernel) (by decide +kernel)
      fun h => absurd (h.counters .renamed) (by decide +kernel)
  · exact Setup.departs (n := 8) (by decide +kernel) (by decide +kernel) (by decide +kernel)
      fun h => absurd (h.files [.ofString "songs.db.new"]) (by decide +kernel)
  · exact Setup.departs (n := 8) (by decide +kernel) (by decide +kernel) (by decide +kernel)
      fun h => absurd (h.files [.ofString "songs.db"]) (by decide +kernel)
  · exact Setup.departs (n := 8) (by decide +kernel) (by decide +kernel) (by decide +kernel)
      fun h => absurd (h.files [.ofString ":memory:"]) (by decide +kernel)
  · exact Setup.departs (n := 8) (by decide +kernel) (by decide +kernel) (by decide +kernel)
      fun h => absurd (congrArg List.length h.songs) (by decide +kernel)
  · exact Setup.departs (n := 8) (by decide +kernel) (by decide +kernel) (by decide +kernel)
      fun h => absurd (h.files [.ofString "music", .ofString "songs.db.new"]) (by decide +kernel)

end SongLibrary.Reconcile
