/-
  Runs that copy the table again.

  * A run that copies the table does no job and leaves the files alone until it closes its
    tables (`Copies`);
  * it ends where the new table can be put in the place of the old one
    (`Setup.Replaceable`), and then so does another run;
  * the records that it leaves are live, and have the lowest id at their location: another run
    leaves all of them (`survivors_again`, `compact_again`).
-/
import SongLibrary.Proofs.Reconcile.Compact
import SongLibrary.Proofs.Reconcile.Concluding
import SongLibrary.Proofs.Reconcile.Repeating

namespace SongLibrary.Reconcile

open FileTree (KeepsDirectories OnlyTables Opened Retabled)
open SongTable (survivors)

variable {s : Setup} {w : Services} {files t t' : FileTree} {r r' r₀ r₂ : Run} {c : Content}

/-! ## The course of such a run -/

/-- What holds of a run that copies the table: it has no job, has changed no file since its
    tables were opened, and has counted no song as new or updated. -/
structure Copies (t : FileTree) (r : Run) : Prop where
  tree : r.files = t
  jobs : r.queue.toList = []
  counts : ∀ counter ∈ [Counter.new, .updated], r.counters.get counter = 0
  source : ∀ source ∈ r.source, ∃ visit, source = .table visit
  primary : r.primary.isSome
  moves : r.history.moves = []

namespace Copies

theorem count (counter : Counter) (h : Copies t r) (hc : counter ∉ [Counter.new, .updated]) :
    Copies t (r.count counter) := by
  refine ⟨h.tree, h.jobs, fun other hother => ?_, h.source, h.primary, h.moves⟩
  have hne : other ≠ counter := by
    rintro rfl
    exact hc hother
  rw [← h.counts other hother]
  simp [Run.count, Counters.increment, hne]

/-- A record that is looked at is copied, or left out. -/
theorem look {song : Song} (hw : w.Sound) (hmode : s.mode = .compact false) (h : Copies t r)
    (hopen : r.queue.closed = false) (hclassify : r.classify s w (s.ofSong song) = (r', .ok ())) :
    Copies t r' := by
  obtain ⟨primary, hprimary⟩ := Option.isSome_iff_exists.1 h.primary
  obtain ⟨queue, counters, moment, history, hqueue, hcounts, hmoves, heq⟩ :=
    Run.classify_judged hw hprimary hopen hclassify
  have hjob : (s.verdict (s.ofSong song) (r.files.pathExists (s.ofSong song).path)
      (s.recordIn (s.ofSong song) primary.table)).job = none := by
    have hrecord : s.recordIn (s.ofSong song) primary.table = some song := by
      simp [Setup.recordIn, hmode, Setup.ofSong]
    rw [hrecord]
    unfold Setup.verdict
    split
    · rfl
    · split
      · rfl
      · simp only [Setup.settlement, hmode]
  rw [hjob, Option.toList_none, List.append_nil] at hqueue
  have hjudged : Copies t { r with queue, counters, moment, history } := by
    refine ⟨h.tree, hqueue.trans h.jobs, fun counter hc => ?_, h.source, h.primary,
      hmoves.trans h.moves⟩
    have hne : counter ≠ .queueHighWater := by
      rintro rfl
      simp at hc
    rw [hcounts counter hne, h.counts counter hc, tally_verdict hc]
    rfl
  split at heq
  · exact heq ▸ hjudged
  · next song' _ =>
    obtain ⟨r₁, hcopied, hprocessed⟩ :=
      Run.copyRecord_cases w { r with queue, counters, moment, history } song'
    rw [heq, hprocessed]
    refine count .processed ?_ (by decide)
    cases hcopied with
    | repeated _ => exact hjudged
    | added _ _ =>
      exact ⟨hjudged.tree, hjudged.jobs, hjudged.counts, hjudged.source, hjudged.primary,
        hjudged.moves⟩
    | failed =>
      refine count .bad ?_ (by decide)
      exact ⟨hjudged.tree, hjudged.jobs, hjudged.counts, hjudged.source, hjudged.primary,
        hjudged.moves⟩

/-- A slice of such a run. -/
theorem slice (hw : w.Sound) (hmode : s.mode = .compact false) (h : Copies t r)
    (hslice : Run.Slice s w r r') : Copies t r' := by
  cases hslice with
  | note phase reported sent => exact ⟨h.tree, h.jobs, h.counts, h.source, h.primary, h.moves⟩
  | @exhaust r₁ hopen hnext =>
    obtain ⟨source, moment, hkeeps⟩ := r.nextCandidate_keeps s w
    rw [hnext] at hkeeps
    rw [show r₁ = _ from hkeeps]
    exact ⟨h.tree, h.jobs, h.counts, by simp, h.primary, h.moves⟩
  | @look r₁ _ c hopen hnext hclassify =>
    obtain ⟨song, visit, moment, rfl, rfl⟩ : ∃ song visit moment, c = s.ofSong song ∧
        r₁ = { r with source := some (.table visit), moment } := by
      unfold Run.nextCandidate at hnext
      split at hnext
      · cases hnext
      · cases hnext
      · next hsource =>
        obtain ⟨visit, hvisit⟩ := h.source _ hsource
        cases hvisit
      · split at hnext
        · cases hnext
        · split at hnext
          · cases hnext
          · dsimp only at hnext
            split at hnext
            · cases hnext
            · split at hnext <;> cases hnext <;> exact ⟨_, _, _, rfl, rfl⟩
    have h₁ : Copies t { r with source := some (.table visit), moment } :=
      ⟨h.tree, h.jobs, h.counts, by rintro _ ⟨⟩; exact ⟨visit, rfl⟩, h.primary, h.moves⟩
    exact h₁.look hw hmode hopen hclassify
  | work hpop =>
    have hjobs := Queue.toList_of_pop? hpop
    rw [h.jobs] at hjobs
    cases hjobs

/-- Such a run when its tables are open and it has prepared. -/
theorem begin (hmode : s.mode = .compact false)
    (hstart : (Run.new s files).start s w = (r₀, .ok ()))
    (hprepare : r₀.prepare s w = (r, .ok ())) : Copies r₀.files r := by
  have hprimary := Run.start_primary hstart
  have hfresh : r₀.queue.toList = [] ∧ (∀ counter, r₀.counters.get counter = 0) ∧
      r₀.history.moves = [] := by
    obtain ⟨_, _, _, _, _, hkeeps⟩ := Run.start_keeps s w (.new s files)
    rw [hstart] at hkeeps
    obtain rfl : r₀ = _ := hkeeps
    exact ⟨rfl, fun counter => Counters.get_zero counter, rfl⟩
  cases Run.prepare_begun (Run.start_unstopped hstart) hprepare with
  | files horigin _ =>
    rw [hmode] at horigin
    cases horigin
  | table _ _ _ =>
    refine ⟨rfl, hfresh.1, fun counter _ => hfresh.2.1 counter, ?_, hprimary, hfresh.2.2⟩
    rintro _ ⟨⟩
    exact ⟨_, rfl⟩

/-- Such a run when it is to close its tables. -/
theorem of_reachable (hw : w.Sound) (hmode : s.mode = .compact false)
    (h : Reachable s w files none r) (hphase : r.phase = .finish) (hstop : r.stopped = false) :
    ∃ r₀, (Run.new s files).start s w = (r₀, .ok ()) ∧ Copies r₀.files r := by
  have hworking := Run.working_of_reachable h hstop (by simp [hphase])
  obtain ⟨r₀, r₁, hstart, hprepare, hslices⟩ := hworking.slices
  refine ⟨r₀, hstart, ?_⟩
  have hbegin := begin hmode hstart hprepare
  clear hworking h hphase hstop
  exact hslices.rec hbegin fun _ hslice ih => ih.slice hw hmode hslice

end Copies

/-! ## The new table in the place of the old one -/

/-- The new table can be put in the place of the old one: the ways to both are there, on one
    device. -/
structure Setup.Replaceable (s : Setup) (t : FileTree) : Prop where
  found : ∃ c, t.find s.newDatabasePath = .ok (s.draft t, .file c)
  lands : t.Lands s.databasePath (s.library t)
  device : t.sameDevice (s.draft t).dropLast (s.library t).dropLast

namespace Setup.Replaceable

theorem hasWay (h : s.Replaceable t) : s.HasWay t := by
  obtain ⟨c, hfind⟩ := h.found
  exact (FileTree.route_of_find hfind).1

theorem of_rename (hget : t.get? (s.draft t) = some (.file c))
    (h : t.rename s.newDatabasePath s.databasePath = .ok t') :
    s.Replaceable t ∧ t.MovesFile t' (s.draft t) (s.library t) c := by
  have hfind : t.find s.newDatabasePath = .ok (s.draft t, .file c) := FileTree.find_of_rename hget h
  obtain ⟨k, hlands, hdevice, -⟩ := (FileTree.rename_eq_ok_iff hfind).1 h
  obtain rfl : k = s.library t := hlands.eq_destination
  refine ⟨⟨⟨c, hfind⟩, hlands, hdevice⟩, ?_⟩
  obtain ⟨k, hlands', hsame | hmoves⟩ := FileTree.moves_of_rename hfind h
  · exact absurd (hsame.1.symm.trans hlands'.eq_destination) (s.draft_ne_library t)
  · obtain rfl : k = s.library t := hlands'.eq_destination
    exact hmoves.2

theorem rename (h : s.Replaceable t) :
    ∃ t', t.rename s.newDatabasePath s.databasePath = .ok t' := by
  obtain ⟨c, hfind⟩ := h.found
  exact ⟨_, (FileTree.rename_eq_ok_iff hfind).2 ⟨_, h.lands, h.device, rfl⟩⟩

/-- The same is so in another tree that has the directories. -/
theorem again (h : s.Replaceable t) (hdir : t'.workingDir = t.workingDir)
    (hmounts : t'.mounts = t.mounts) (hkeeps : t.KeepsDirectories t')
    (hdraft : ∃ c, t'.get? (s.draft t') = some (.file c))
    (hlibrary : t'.get? (s.library t') ≠ some .directory) : s.Replaceable t' := by
  have hplaces : s.draft t' = s.draft t ∧ s.library t' = s.library t :=
    ⟨FileTree.destination_congr hdir _, FileTree.destination_congr hdir _⟩
  rw [hplaces.1] at hdraft
  rw [hplaces.2] at hlibrary
  obtain ⟨c, hfind⟩ := h.found
  obtain ⟨d, hget⟩ := hdraft
  obtain ⟨parent, name, hlocate, heq, -⟩ := h.lands
  refine ⟨⟨d, ?_⟩, ?_, ?_⟩
  · rw [hplaces.1]
    exact FileTree.find_of_route hdir (fun m hm => hkeeps m (h.hasWay m hm)) hget hfind
  · rw [hplaces.2]
    have hroute := (FileTree.follow_eq_ok_iff.1 (FileTree.locate_eq_ok_iff.1 hlocate).1).2.2
    exact ⟨parent, name, FileTree.locate_of_route hdir (fun m hm => hkeeps m (hroute m hm)) hlocate,
      heq, hlibrary⟩
  · rw [hplaces.1, hplaces.2, FileTree.sameDevice, hmounts]
    exact h.device

end Setup.Replaceable

/-! Closing and opening tables changes no mount. -/

theorem mounts_keepTable (t : FileTree) (l : Location) (table : SongTable) :
    (t.keepTable l table).mounts = t.mounts := by
  rcases t.keepTable_cases l table with ⟨-, hkept⟩ | ⟨-, hkept⟩ <;> rw [hkept]
  rfl

theorem Run.start_mounts (hw : w.Reliable) (r : Run) :
    (r.start s w).1.files.mounts = r.files.mounts := by
  have hopened : ∀ {t : FileTree} {p : Path} {result : FileTree × Option SongTable},
      Opened t p result → result.1.mounts = t.mounts := by
    intro t p result h
    cases h <;> rfl
  -- Nothing is mounted where a table is opened or removed.
  have hopen : ∀ (r : Run) (p : Path), (r.openTable w p).1.files.mounts = r.files.mounts := by
    intro r p
    have hopens := Run.openTable_cases w r p
    generalize r.openTable w p = result at hopens ⊢
    cases hopens with
    | failed _ _ h => exact hopened h
    | opened _ h => exact hopened h
  have hremove : ∀ (r : Run) (p : Path), (r.removeFile w p).1.files.mounts = r.files.mounts := by
    intro r p
    have hremoved := Run.removeFile_cases hw r p
    generalize r.removeFile w p = result at hremoved ⊢
    cases hremoved <;> rfl
  have hprimary : ∀ r : Run, (r.openPrimary s w).1.files.mounts = r.files.mounts := by
    intro r
    rw [← hopen r s.databasePath, openPrimary]
    generalize r.openTable w s.databasePath = result
    rcases result with ⟨r₁, failure | primary⟩ <;> rfl
  unfold start
  split
  · refine of_andThen (P := fun r' => r'.files.mounts = r.files.mounts) ?_ fun r₁ h₁ =>
      (hprimary r₁).trans h₁
    refine of_andThen (P := fun r' => r'.files.mounts = r.files.mounts) (hremove r _)
      fun r₁ h₁ => ?_
    refine of_andThen (P := fun r' => r'.files.mounts = r.files.mounts) ((hremove r₁ _).trans h₁)
      fun r₂ h₂ => ?_
    rw [← h₂, ← hopen r₂ s.newDatabasePath]
    generalize r₂.openTable w s.newDatabasePath = result
    rcases result with ⟨r₃, failure | target⟩ <;> rfl
  · exact hprimary r

theorem Run.savedFiles_only (r : Run) (table : OpenTable) (hne : ∀ l ∈ table.location, l ≠ []) :
    OnlyTables r.files (r.savedFiles table) ∧ (r.savedFiles table).mounts = r.files.mounts ∧
      (r.files.WellFormed → (r.savedFiles table).WellFormed) := by
  unfold savedFiles
  cases hlocation : table.location with
  | none => exact ⟨.refl _, rfl, id⟩
  | some l =>
    exact ⟨.keepTable (hne l hlocation) _, mounts_keepTable _ _ _, fun hwf => hwf.keepTable l _⟩

namespace Guarded

/-- Closing the tables changes these alone. -/
theorem committed (h : Guarded s files r) :
    OnlyTables r.files r.committedFiles ∧ r.committedFiles.mounts = r.files.mounts ∧
      r.committedFiles.WellFormed := by
  obtain ⟨target, htarget, -, hplace, -⟩ := h.target
  obtain ⟨primary, hprimary, hlocation⟩ := h.primary
  have hdraft : ∀ l ∈ target.location, l ≠ [] := by
    rw [hplace]
    rintro _ ⟨⟩
    exact s.draft_ne_nil files
  obtain ⟨honly, hmounts, hwf⟩ := r.savedFiles_only target hdraft
  obtain ⟨honly', hmounts', hwf'⟩ := Run.savedFiles_only { r with files := r.savedFiles target }
    primary fun l hl => (hlocation l hl).2.1
  simp only [Run.committedFiles, Run.closedFiles, htarget, hprimary]
  exact ⟨honly.trans honly', hmounts'.trans hmounts, hwf' (hwf h.wellFormed)⟩

/-- There is a file where the new table is once that is closed. -/
theorem get?_committed (h : Guarded s files r) (hdraft : r.Spares files (s.draft files)) :
    ∃ c, r.committedFiles.get? (s.draft r.committedFiles) = some (.file c) := by
  obtain ⟨table, htable⟩ := Option.isSome_iff_exists.1 (h.draft hdraft)
  have hplace : s.draft r.committedFiles = s.draft files :=
    FileTree.destination_congr (h.committed.1.workingDir.trans h.workingDir) _
  rw [hplace]
  exact h.committed.1.hasFile ⟨_, FileTree.tableAt?_eq_some.1 htable⟩

end Guarded

/-- A run that has come to an end has put its new table in the place of the old one. -/
theorem replaceable_of_finish (hw : w.Steady) (h : Guarded s files r)
    (hdraft : r.Spares files (s.draft files)) (hstop : r.stopped = false)
    (hf : r.finish s w = (r', .ok ())) :
    s.Replaceable r.committedFiles ∧ ∃ c, r.committedFiles.MovesFile r'.files
      (s.draft r.committedFiles) (s.library r.committedFiles) c := by
  obtain ⟨target, htarget, -⟩ := h.target
  obtain ⟨c, hget⟩ := h.get?_committed hdraft
  obtain ⟨moment, hfinish⟩ := Run.finish_closes (s := s) hw hstop
  rw [htarget, Option.isSome_some, if_pos rfl, hf] at hfinish
  split at hfinish
  · next t hrename =>
    obtain ⟨hreplaceable, hmoves⟩ := Setup.Replaceable.of_rename hget hrename
    rw [(Prod.mk.inj hfinish).1, Run.report_files]
    exact ⟨hreplaceable, c, hmoves⟩
  · cases hfinish

/-- A run comes to an end where its new table can be put in the place of the old one. -/
theorem step_of_replaceable (hw : w.Steady) (htarget : r.target.isSome)
    (hphase : r.phase = .finish) (hstop : r.stopped = false) (h : s.Replaceable r.committedFiles) :
    ∃ r', r.step s w = (r', .ok .done) ∧
      ∀ counter, counter ≠ .queueHighWater → r'.counters.get counter = r.counters.get counter := by
  obtain ⟨t, hrename⟩ := h.rename
  obtain ⟨moment, hfinish⟩ := Run.finish_closes (s := s) hw hstop
  rw [if_pos htarget, hrename] at hfinish
  dsimp only at hfinish
  have hstep : r.step s w = ((r.finish s w).1, .ok .done) := by
    rw [Run.step, Run.act, hphase, hfinish]
    rfl
  obtain ⟨sent, hkeeps⟩ := Run.report_keeps (r := { r with
    source := none, target := none, primary := none, files := t, moment }) false
  rw [hfinish, hkeeps] at hstep
  exact ⟨_, hstep, fun counter hc => (Counters.get_set _ _ _ _).trans (if_neg hc)⟩

/-! ## The journal -/

/-- The way to the journal is that to the new table. -/
theorem Setup.route_journal (s : Setup) (t : FileTree) :
    t.route (s.newDatabasePath.addSuffix "-journal") = t.route s.newDatabasePath := by
  have hslash : Path.slash ∉ Text.symbolsOf "-journal" := by decide
  obtain ⟨front, last, hparts, hjournal⟩ := s.newDatabasePath.parts_addSuffix hslash
  obtain ⟨front', last', -, hnew⟩ :=
    s.databasePath.parts_addSuffix (show Path.slash ∉ Text.symbolsOf ".new" by decide)
  have hlast : last ≠ [] := by
    have hsame : last = last' ++ Text.symbolsOf ".new" := by
      have hboth := hparts.symm.trans hnew
      exact List.head_eq_of_cons_eq (List.append_inj' hboth rfl).2
    rw [hsame]
    exact List.append_ne_nil_of_right_ne_nil _ (by decide)
  have horigin :
      t.origin (s.newDatabasePath.addSuffix "-journal") = t.origin s.newDatabasePath := by
    simp only [FileTree.origin, Path.addSuffix, Path.isAbsolute_append (.inl hslash)]
  simp [FileTree.route, horigin, hparts, hjournal, hlast]

theorem Setup.encode_journal (s : Setup) :
    (Text.encode (s.newDatabasePath.addSuffix "-journal").symbols).isEmpty = false := by
  have hsuffix : Text.encode (Text.symbolsOf "-journal") ≠ [] := by decide
  rw [Text.encode] at hsuffix
  simp [Path.addSuffix, Text.encode, List.flatMap_append, hsuffix]

/-- Where there is a way to it, a file that is removed is gone. -/
theorem Run.Removed.gone {path : Path} (hpath : (Text.encode path.symbols).isEmpty = false)
    (hway : ∀ d ∈ r.files.route path, r.files.get? d = some .directory)
    (h : Run.Removed r path (r', .ok ())) : r'.files.get? (r.files.destination path) = none := by
  generalize hresult : (r', Except.ok ()) = result at h
  cases h with
  | @removed l c hfind =>
    cases hresult
    obtain ⟨-, -, -, -, hget⟩ := FileTree.find_file_iff.1 hfind
    obtain ⟨-, rfl⟩ := FileTree.route_of_find hfind
    exact (FileTree.get?_erase _ (FileTree.ne_nil_of_get? hget) _).trans (if_pos rfl)
  | missing hmissing =>
    cases hresult
    exact FileTree.get?_of_removeFile_notFound hpath hway hmissing
  | failed _ => cases hresult

/-- Once the tables are open, nothing is where an earlier run may have left the journal, if there
    is a way there. -/
theorem journal_of_start (hd : s.mode.isDestructive) (hw : w.Reliable) (hwf : files.WellFormed)
    (hway : s.HasWay files) (hstart : (Run.new s files).start s w = (r₀, .ok ())) :
    r₀.files.get? (s.journal files) = none := by
  -- Neither table is opened there.
  have hopened : ∀ {r₁ r₂ : Run} {p : Path} {table : OpenTable}, r₁.files.WellFormed →
      r₁.files.workingDir = files.workingDir → files.destination p ≠ s.journal files →
      r₁.openTable w p = (r₂, .ok table) → r₂.files.WellFormed ∧
        r₂.files.workingDir = files.workingDir ∧
        (r₁.files.get? (s.journal files) = none → r₂.files.get? (s.journal files) = none) := by
    intro r₁ r₂ p table hwf₁ hdir hne hopen
    have hopens := Run.openTable_cases w r₁ p
    have hretabled := hopens.retabled (.refl hwf₁ : Retabled [files.destination p]
      [files.destination p] r₁.files r₁.files) (by simp [FileTree.destination_congr hdir])
    rw [hopen] at hretabled
    refine ⟨hretabled.wellFormed, hretabled.workingDir.trans hdir, fun hnone => ?_⟩
    exact (hretabled.get? _ (by simpa using hne.symm)).trans hnone
  simp only [Run.start, hd, if_true] at hstart
  split at hstart
  · cases hstart
  · next r₁ htarget =>
    obtain ⟨hwf₁, hdir₁, hnone₁⟩ : r₁.files.WellFormed ∧ r₁.files.workingDir = files.workingDir ∧
        r₁.files.get? (s.journal files) = none := by
      unfold Run.openTarget at htarget
      split at htarget
      · cases htarget
      · next r₂ hremove =>
        split at htarget
        · cases htarget
        · next r₃ hremove' =>
          split at htarget
          · cases htarget
          · next r₄ target hopen =>
            cases htarget
            have hremoved := Run.removeFile_cases hw (Run.new s files) s.newDatabasePath
            have hremoved' := Run.removeFile_cases hw r₂ (s.newDatabasePath.addSuffix "-journal")
            rw [hremove] at hremoved
            rw [hremove'] at hremoved'
            have hr₂ := hremoved.retabled (.refl hwf : Retabled [s.draft files] [s.draft files]
              (Run.new s files).files (Run.new s files).files) (by simp [Run.new, Setup.draft])
            have hr₃ := hremoved'.retabled (.refl hr₂.wellFormed :
              Retabled [s.journal files] [s.journal files] r₂.files r₂.files)
              (by simp [Setup.journal, FileTree.destination_congr hr₂.workingDir, Run.new])
            have hkeeps : files.KeepsDirectories r₂.files :=
              hremoved.keepsDirectories fun _ hd => hd
            have hroute : ∀ d ∈ r₂.files.route (s.newDatabasePath.addSuffix "-journal"),
                r₂.files.get? d = some .directory := by
              rw [FileTree.route_congr hr₂.workingDir]
              exact fun d hd => hkeeps d (hway d (s.route_journal files ▸ hd))
            have hgone := hremoved'.gone s.encode_journal hroute
            rw [FileTree.destination_congr hr₂.workingDir] at hgone
            obtain ⟨hwf₄, hdir₄, hnone₄⟩ := hopened hr₃.wellFormed
              (hr₃.workingDir.trans hr₂.workingDir) (s.journal_ne_draft files).symm hopen
            exact ⟨hwf₄, hdir₄, hnone₄ hgone⟩
    unfold Run.openPrimary at hstart
    split at hstart
    · cases hstart
    · next r₂ primary hopen =>
      cases hstart
      exact (hopened hwf₁ hdir₁ (s.journal_ne_library files).symm hopen).2.2 hnone₁

/-! ## The records that are left -/

/-- **All of the survivors survive again.** -/
theorem survivors_again {live live' : String → Bool} {rows rows' : List Row}
    (hsongs : rows'.map Row.song = (survivors live rows).map Row.song)
    (hlive : ∀ uri, live uri → live' uri) : survivors live' rows' = rows' := by
  have hold : ∀ row ∈ rows', ∃ old ∈ survivors live rows, old.id = row.id ∧ old.uri = row.uri := by
    intro row hrow
    have hmem : row.song ∈ (survivors live rows).map Row.song := hsongs ▸ List.mem_map_of_mem hrow
    obtain ⟨old, hold, hsame⟩ := List.mem_map.1 hmem
    exact ⟨old, hold, Option.some.inj (congrArg Song.id hsame), congrArg Song.uri hsame⟩
  have hvisited : rows'.filter SongTable.isVisited = rows' := by
    refine List.filter_eq_self.2 fun row hrow => ?_
    obtain ⟨old, hmem, hid, huri⟩ := hold row hrow
    rw [SongTable.isVisited_iff, ← hid, ← huri]
    exact (SongTable.mem_survivors.1 hmem).2.1
  rw [survivors, hvisited]
  refine List.filter_eq_self.2 fun row hrow => ?_
  obtain ⟨old, hmem, hid, huri⟩ := hold row hrow
  obtain ⟨-, -, halive, hlowest⟩ := SongTable.mem_survivors.1 hmem
  rw [Bool.and_eq_true, SongTable.isFirst_iff]
  refine ⟨hlive _ (huri ▸ halive), fun other hother hsame => ?_⟩
  obtain ⟨old', hmem', hid', huri'⟩ := hold other hother
  obtain ⟨hthere, hvisited', -⟩ := SongTable.mem_survivors.1 hmem'
  rw [← hid, ← hid']
  exact hlowest old' hthere hvisited' (by rw [huri', hsame, huri])

/-! ## Another run -/

/-- What a run that copies the table and comes to an end leaves to the next one. -/
structure Copied (s : Setup) (files : FileTree) (r r' : Run) : Prop where
  guarded : Guarded s files r
  tables : ∀ l ∈ s.tablePlaces files, (r.files.tableAt? l).isSome
  journal : r.files.get? (s.journal files) = none
  leftover : s.leftover files = []
  replaceable : s.Replaceable r.committedFiles
  replaced : ∃ c, r.committedFiles.MovesFile r'.files (s.draft r.committedFiles)
    (s.library r.committedFiles) c
  replaces : Replaces s files r r'

theorem copied_of_finish (hw : w.Steady) (hmode : s.mode = .compact false) (hwf : files.WellFormed)
    (h : Reachable s w files none r) (hphase : r.phase = .finish) (hstop : r.stopped = false)
    (hs : r.step s w = (r', .ok .done)) : Copied s files r r' := by
  have hd : s.mode.isDestructive := by rw [hmode]; rfl
  obtain ⟨r₀, hstart, hcopies⟩ := Copies.of_reachable hw.toSound hmode h hphase hstop
  have hready := Run.start_ready (s := s) hw.toReliable hwf rfl rfl hstart
  have hguarded := guarded_of_reachable hd hw.toReliable hwf h hphase
  have hspares : ∀ l, r.Spares files l := fun l => by simp [Run.Spares, hcopies.moves]
  have hfinish := (Run.act_of_step_ok hs).1
  simp only [Run.act, hphase] at hfinish
  obtain ⟨hreplaceable, hreplaced⟩ := replaceable_of_finish hw hguarded (hspares _) hstop hfinish
  have hdir : r.committedFiles.workingDir = files.workingDir :=
    hguarded.committed.1.workingDir.trans hguarded.workingDir
  -- The way to the new table was there from the beginning.
  have hway : s.HasWay files := by
    intro d hd
    have hthere := hreplaceable.hasWay d (FileTree.route_congr hdir _ ▸ hd)
    refine hready.retabled.directory d ?_
    rw [show r₀.books.files = r.files from hcopies.tree.symm]
    exact hguarded.committed.1.symm.directory hthere
  refine ⟨hguarded, fun l hl => ?_, ?_, if_pos hway, hreplaceable, hreplaced,
    replaces_of_reachable hd hw.toReliable hwf h hphase hstop hcopies.moves hs⟩
  · rw [hcopies.tree]
    exact hready.tables l hl
  · rw [hcopies.tree]
    exact journal_of_start hd hw.toReliable hwf hway hstart

namespace Copied

theorem workingDir (h : Copied s files r r') : r'.files.workingDir = files.workingDir := by
  obtain ⟨c, hmoves⟩ := h.replaced
  exact hmoves.workingDir.trans (h.guarded.committed.1.workingDir.trans h.guarded.workingDir)

theorem mounts (h : Copied s files r r') : r'.files.mounts = r.committedFiles.mounts := by
  obtain ⟨c, hmoves⟩ := h.replaced
  exact hmoves.mounts

theorem wellFormed (h : Copied s files r r') : r'.files.WellFormed := by
  obtain ⟨c, hmoves⟩ := h.replaced
  obtain ⟨d, hfind⟩ := h.replaceable.found
  obtain ⟨-, -, -, -, hget⟩ := FileTree.find_file_iff.1 hfind
  exact h.guarded.committed.2.2.moves hget h.replaceable.lands
    (Setup.draft_ne_library _ _).symm hmoves

/-- The directories are still there. -/
theorem keepsDirectories (h : Copied s files r r') : r.committedFiles.KeepsDirectories r'.files := by
  intro d hd
  obtain ⟨c, hmoves⟩ := h.replaced
  obtain ⟨_, hfind⟩ := h.replaceable.found
  obtain ⟨-, -, -, -, hget⟩ := FileTree.find_file_iff.1 hfind
  obtain ⟨parent, name, -, hlibrary, hfree⟩ := h.replaceable.lands
  rw [hmoves.get?, if_neg, if_neg]
  · exact hd
  · rintro rfl
    cases hget.symm.trans hd
  · rintro rfl
    exact hfree (hlibrary ▸ hd)

/-- There are no rows for the next run to begin with. -/
theorem leftover_again (h : Copied s files r r') : s.leftover r'.files = [] := by
  have hnone : r'.files.get? (s.draft r'.files) = none := by
    rw [show s.draft r'.files = s.draft files from FileTree.destination_congr h.workingDir _]
    exact h.replaces.draft
  unfold Setup.leftover
  split
  · rfl
  · simp [FileTree.rowsAt, FileTree.tableAt?, hnone]

/-- The next run finds the files as this one has, aside from tables. -/
theorem onlyTables (h : Copied s files r r') (hd : s.mode.isDestructive)
    (hfile : ¬ FileTree.isFileless s.databasePath) (hready : Books.Ready s r'.files r₀.books) :
    OnlyTables r.files r₀.files := by
  have hplace : ∀ p : Path, r'.files.destination p = files.destination p := fun p =>
    FileTree.destination_congr h.workingDir p
  have hplaces : s.tablePlaces r'.files = s.tablePlaces files := by
    simp only [Setup.tablePlaces, Setup.library, Setup.draft, hplace]
  refine ⟨hready.retabled.workingDir.trans (h.workingDir.trans h.guarded.workingDir.symm),
    fun m => ?_⟩
  by_cases hm : m ∈ s.tablePlaces files
  · exact .inr ⟨h.tables m hm, hready.tables m (hplaces ▸ hm)⟩
  · left
    have hbefore : r'.files.get? m = r.files.get? m :=
      h.replaces.elsewhere m (fun hl => hm (Setup.mem_tablePlaces.2 (.inl ⟨hfile, hl⟩)))
        fun hl => hm (Setup.mem_tablePlaces.2 (.inr ⟨hd, hl⟩))
    have hjournal : s.journal r'.files = s.journal files := hplace _
    by_cases hm' : m = s.journal files
    · -- There is no journal, nor does opening the tables make one.
      have hnone : r'.files.get? m = none := by rw [hbefore, hm', h.journal]
      rw [← hbefore, hnone]
      cases hget : r₀.files.get? m with
      | none => rfl
      | some e =>
        cases e with
        | directory => cases hnone.symm.trans (hready.retabled.directory m hget)
        | file c =>
          rcases hready.retabled.file m c hget with hnew | hold
          · exact absurd (hplaces ▸ hnew) hm
          · cases hnone.symm.trans hold
    · rw [← hbefore]
      refine hready.retabled.get? m fun hplace => ?_
      rcases Setup.mem_places.1 hplace with htable | ⟨-, hl⟩
      · exact hm (hplaces ▸ htable)
      · exact hm' (hl.trans hjournal)

/-- The next run can put its new table in the place of this one's. -/
theorem replaceable_again (h : Copied s files r r') (hw : w.Reliable)
    (hstart : (Run.new s r'.files).start s w = (r₀, .ok ())) (hfiles : r₂.files = r₀.files)
    (hready : Books.Ready s r'.files r₀.books) (hguarded : Guarded s r'.files r₂)
    (hdraft : r₂.Spares r'.files (s.draft r'.files)) : s.Replaceable r₂.committedFiles := by
  obtain ⟨honly, hmounts, -⟩ := hguarded.committed
  have hstarted : r₀.files.mounts = r'.files.mounts := by
    have hsame := Run.start_mounts (s := s) hw (.new s r'.files)
    rwa [hstart] at hsame
  have hhoused : r'.files.KeepsDirectories r₀.files := by
    have hhoused : Run.Housed r'.files (.new s r'.files) := ⟨h.wellFormed, fun _ hd => hd⟩
    have hstarted := hhoused.start (s := s) hw
    rw [hstart] at hstarted
    exact hstarted.directories
  have hdir : r₂.committedFiles.workingDir = r'.files.workingDir :=
    honly.workingDir.trans hguarded.workingDir
  have hdir' : r'.files.workingDir = r.committedFiles.workingDir :=
    h.workingDir.trans (h.guarded.committed.1.workingDir.trans h.guarded.workingDir).symm
  refine h.replaceable.again (hdir.trans hdir') ?_ ?_ (hguarded.get?_committed hdraft) ?_
  · rw [hmounts, hfiles, hstarted, h.mounts]
  · intro d hd
    refine honly.directory ?_
    rw [hfiles]
    exact hhoused d (h.keepsDirectories d hd)
  · intro hdirectory
    obtain ⟨c, hmoves⟩ := h.replaced
    have hthere := honly.symm.directory hdirectory
    rw [hfiles] at hthere
    have hbefore := hready.retabled.directory _ hthere
    rw [show s.library r₂.committedFiles = s.library r.committedFiles from
      FileTree.destination_congr (hdir.trans hdir') _, hmoves.get?, if_pos rfl] at hbefore
    cases hbefore

end Copied

/-- **A run that copies the table changes nothing directly after another.** -/
theorem compact_again (hw : w.Steady) (hmode : s.mode = .compact false) (hwf : files.WellFormed)
    (h : Reachable s w files none r) (hphase : r.phase = .finish) (hstop : r.stopped = false)
    (hs : r.step s w = (r', .ok .done)) (h₂ : Reachable s w r'.files none r₂)
    (hphase₂ : r₂.phase = .finish) (hstop₂ : r₂.stopped = false) :
    ∃ r₂', r₂.step s w = (r₂', .ok .done) ∧ r₂'.counters.get .new = 0 ∧
      r₂'.counters.get .updated = 0 ∧
      (s.rows r₂'.files).map Row.song = (s.rows r'.files).map Row.song := by
  have hd : s.mode.isDestructive := by rw [hmode]; rfl
  have hcopied := copied_of_finish hw hmode hwf h hphase hstop hs
  have hwf' := hcopied.wellFormed
  obtain ⟨r₀, hstart, hcopies⟩ := Copies.of_reachable hw.toSound hmode h₂ hphase₂ hstop₂
  have hready := Run.start_ready (s := s) hw.toReliable hwf' rfl rfl hstart
  have hguarded := guarded_of_reachable hd hw.toReliable hwf' h₂ hphase₂
  have htarget : r₂.target.isSome := by
    obtain ⟨target, htarget, -⟩ := hguarded.target
    exact Option.isSome_iff_exists.2 ⟨target, htarget⟩
  obtain ⟨r₂', hstep, hcounts⟩ := step_of_replaceable hw htarget hphase₂ hstop₂
    (hcopied.replaceable_again hw.toReliable hstart hcopies.tree hready hguarded
      (by simp [Run.Spares, hcopies.moves]))
  refine ⟨r₂', hstep, (hcounts .new (by decide)).trans (hcopies.counts _ (by simp)),
    (hcounts .updated (by decide)).trans (hcopies.counts _ (by simp)), ?_⟩
  by_cases hfile : FileTree.isFileless s.databasePath
  · rw [Setup.rows, Setup.rows, if_pos hfile, if_pos hfile]
  · have honly := hcopied.onlyTables hd hfile hready
    have hlive : ∀ uri, s.isLive r.files uri → s.isLive r₂.files uri := by
      intro uri hlive
      have hwf₀ : r₀.files.WellFormed := hready.retabled.wellFormed
      rwa [Setup.isLive, show r₂.files = r₀.files from hcopies.tree,
        honly.pathExists hcopied.guarded.wellFormed hwf₀]
    have hsongs := songs_of_compact hmode hw.toSound hwf hcopied.leftover h hphase hstop hs
    rw [songs_of_compact hmode hw.toSound hwf' hcopied.leftover_again h₂ hphase₂ hstop₂ hstep,
      survivors_again hsongs hlive]

end SongLibrary.Reconcile
