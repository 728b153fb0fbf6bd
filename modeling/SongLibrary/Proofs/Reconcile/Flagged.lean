/-
  Files whose records ask that they stay.

  * `Run.Touches` lists what a job does to the files, where no moves are asked for
    (`perform_touches`);
  * `Held` says that the file at a location has not been moved, and `Overlooked` that a run
    that adds files has no job for it, since it has a record of the file;
  * `flagged_files_stay` is the main statement: a file stays that has a record at its key,
    unless a rebuild organizes files.  Such a run takes no notice of records
    (`rebuild_moves_flagged`).
-/
import SongLibrary.Proofs.Reconcile.Concluding
import SongLibrary.Proofs.Reconcile.Revising

namespace SongLibrary.Reconcile

variable {s : Setup} {w : Services} {files : FileTree} {r r' : Run} {b b' : Books} {job : Job}
  {l : Location} {uri : String}

/-! ## What a job does to the files -/

namespace Run

/-- What a job does to the files, and to the moves made so far. -/
inductive Touches (s : Setup) (job : Job) (t : FileTree) (moves : List (Path × Path)) :
    FileTree → List (Path × Path) → Prop where
  | idle : Touches s job t moves t moves
  /-- Tags are written into the file. -/
  | written {before content : Content} {t' : FileTree} (hmode : s.mode = .writeTags)
      (hread : t.read job.path = .ok before) (h : t.write job.path content = .ok t') :
      Touches s job t moves t' moves
  /-- The file is to be organized, and is moved or not. -/
  | organized {content : Content} {t' : FileTree} {relative : String} {result : Except Failure Path}
      (hmode : s.mode.allowsMoves ∧ s.autoOrganize) (hread : t.read job.path = .ok content)
      (h : organizeFile t job.path s.musicDir relative = (t', result)) :
      Touches s job t moves t' ((result.toOption.map (job.path, ·)).toList ++ moves)

theorem rename_touches {content : Content} (hw : w.Reliable)
    (hmode : s.mode.allowsMoves ∧ s.autoOrganize) (r : Run) (song : Song)
    (hread : r.files.read job.path = .ok content) (bypass : Option String) (force : Bool) :
    Touches s job r.files r.history.moves (r.rename s w song job.path bypass force).2.files
      (r.rename s w song job.path bypass force).2.history.moves := by
  have hmoves := rename_books (s := s) hw r song job.path bypass force
  generalize hresult : r.rename s w song job.path bypass force = result at hmoves
  obtain ⟨song', r₁⟩ := result
  generalize hbooks : r₁.books = b₁ at hmoves
  have hfiles : r₁.files = b₁.files := congrArg Books.files hbooks
  have hhistory : r₁.history.moves = b₁.moves := congrArg Books.moves hbooks
  dsimp only
  rw [hfiles, hhistory]
  cases hmoves with
  | stays => exact .idle
  | failed h => exact .organized hmode hread h
  | moved _ h => exact .organized hmode hread h

/-- Reading the tags of a file into its record touches the file, and then stores a song: a new
    one, if the file has no record. -/
theorem updateFromFile_touches (hw : w.Reliable) (r : Run) (job : Job) :
    ∃ (r₁ : Run) (song : Song), Touches s job r.files r.history.moves r₁.files r₁.history.moves ∧
      r₁.books = { r.books with files := r₁.files, moves := r₁.history.moves } ∧
      (job.existing = none → song.id = none) ∧
      ((r.updateFromFile s w job).books = r₁.books ∨
        ∃ existed, (r.updateFromFile s w job).books = (r₁.store w song existed).books) := by
  have hcases := r.updateFromFile_cases s w job
  generalize r.updateFromFile s w job = r' at hcases
  cases hcases with
  | noTags moment => exact ⟨r, .new "" "", .idle, rfl, fun _ => rfl, .inl rfl⟩
  | @kept content parsed date tags moment song r₁ hread htags hmoved =>
    have hid : job.existing = none → (s.recordWith job date tags).id = none := by
      intro hnone
      rw [Setup.recordWith_id, Setup.recordBefore?_of_none hnone]
      rfl
    obtain ⟨htouches, hsame, hid'⟩ : Touches s job r.files r.history.moves r₁.files r₁.history.moves ∧
        r₁.books = { r.books with files := r₁.files, moves := r₁.history.moves } ∧
        song.id = (s.recordWith job date tags).id := by
      rcases hmoved with ⟨horganize, hrename⟩ | ⟨rfl, rfl⟩
      · have htouches := rename_touches hw horganize.symm { r with moment }
          (s.recordWith job date tags) hread (s.bypass? job.relative) false
        have hmoves := rename_books (s := s) hw { r with moment } (s.recordWith job date tags) job.path
          (s.bypass? job.relative) false
        rw [hrename] at htouches hmoves
        generalize hbooks : r₁.books = b₁ at hmoves
        have hfiles : r₁.files = b₁.files := congrArg Books.files hbooks
        have hhistory : r₁.history.moves = b₁.moves := congrArg Books.moves hbooks
        refine ⟨htouches, ?_, ?_⟩
        · rw [hfiles, hhistory]
          cases hmoves <;> rfl
        · cases hmoves <;> rfl
      · exact ⟨.idle, rfl, rfl⟩
    refine ⟨r₁, song, htouches, hsame, fun hnone => hid'.trans (hid hnone), ?_⟩
    split
    · exact .inl rfl
    · exact .inr ⟨_, rfl⟩

/-- **What a job does to the files**, where no moves are asked for. -/
theorem perform_touches (hw : w.Reliable) (hmode : s.mode ≠ .reorganize) (r : Run) (job : Job) :
    Touches s job r.files r.history.moves (r.perform s w job).files
      (r.perform s w job).history.moves := by
  have hreads : Touches s job r.files r.history.moves (r.updateFromFile s w job).files
      (r.updateFromFile s w job).history.moves := by
    obtain ⟨r₁, song, htouches, -, -, hbooks | ⟨existed, hbooks⟩⟩ :=
      updateFromFile_touches (s := s) hw r job
    · have hfiles : (r.updateFromFile s w job).files = r₁.files := congrArg Books.files hbooks
      have hmoves : (r.updateFromFile s w job).history.moves = r₁.history.moves :=
        congrArg Books.moves hbooks
      rwa [hfiles, hmoves]
    · obtain ⟨hsame, hhistory⟩ := r₁.store_moves w song existed
      have hfiles : (r.updateFromFile s w job).files = r₁.files :=
        (congrArg Books.files hbooks).trans hsame
      have hmoves : (r.updateFromFile s w job).history.moves = r₁.history.moves :=
        (congrArg Books.moves hbooks).trans hhistory
      rwa [hfiles, hmoves]
  -- Only reading tags may move a file; writing tags rewrites it where it is.
  unfold perform
  cases hcase : s.mode with
  | writeTags =>
    have hworks := writeTags_books (w := w) (r := r) job hcase
    generalize hbooks : (r.writeTags w job).books = b₁ at hworks
    have hfiles : (r.writeTags w job).files = b₁.files := congrArg Books.files hbooks
    have hmoves : (r.writeTags w job).history.moves = b₁.moves := congrArg Books.moves hbooks
    dsimp only
    rw [hfiles, hmoves]
    cases hworks with
    | idle => exact .idle
    | written _ hread _ h => exact .written hcase hread h
    | tracks hother _ _ _ _ => simp [hcase] at hother
    | read hother _ _ _ _ _ _ => simp [hcase] at hother
    | reorganized hother _ _ _ => simp [hcase] at hother
  | updateItunes =>
    dsimp only
    unfold updateFromTracks
    split
    · exact .idle
    · split
      · exact .idle
      · dsimp only
        split
        · exact .idle
        · dsimp only [count]
          rw [(store_moves ..).1, (store_moves ..).2]
          exact .idle
  | reorganize => exact absurd hcase hmode
  | rebuild => exact hreads
  | checkNew => exact hreads
  | compact _ => exact hreads
  | updateTags => exact hreads

end Run

/-! ## The file stays -/

/-- The file at a location has not been moved.  It is still there, unless another was moved to
    its place, and as it was, unless tags are written. -/
structure Held (s : Setup) (files : FileTree) (l : Location) (b : Books) : Prop where
  wellFormed : b.files.WellFormed
  workingDir : b.files.workingDir = files.workingDir
  unmoved : ∀ move ∈ b.moves, files.destination move.1 ≠ l
  stays : ∀ c, files.get? l = some (.file c) → (∀ move ∈ b.moves, files.destination move.2 ≠ l) →
    ∃ c', b.files.get? l = some (.file c') ∧ (s.mode ≠ .writeTags → c' = c)

namespace Held

theorem congr (h : Held s files l b) (hfiles : b'.files = b.files) (hmoves : b'.moves = b.moves) :
    Held s files l b' := by
  refine ⟨hfiles ▸ h.wellFormed, hfiles ▸ h.workingDir, hmoves ▸ h.unmoved, ?_⟩
  rw [hfiles, hmoves]
  exact h.stays

theorem refl (hwf : files.WellFormed) (hfiles : b.files = files) (hmoves : b.moves = []) :
    Held s files l b := by
  refine ⟨hfiles ▸ hwf, by rw [hfiles], by simp [hmoves], fun c hc _ => ⟨c, ?_, fun _ => rfl⟩⟩
  rw [hfiles]
  exact hc

theorem of_ready (h : b.Ready s files) (hl : l ∉ s.places files) : Held s files l b := by
  refine ⟨h.retabled.wellFormed, h.retabled.workingDir, by simp [h.moves],
    fun c hc _ => ⟨c, ?_, fun _ => rfl⟩⟩
  rw [h.retabled.get? l hl]
  exact hc

/-- A job for another file leaves this one where it is. -/
theorem touches {t : FileTree} {moves : List (Path × Path)} (h : Held s files l b)
    (ht : Run.Touches s job b.files b.moves t moves)
    (hjob : s.mode.allowsMoves ∧ s.autoOrganize → files.destination job.path ≠ l) :
    Held s files l { b with files := t, moves } := by
  have hdest : b.files.destination = files.destination := by
    funext p
    exact FileTree.destination_congr h.workingDir p
  cases ht with
  | idle => exact h
  | @written _ content t' hmode _ hwrite =>
    obtain ⟨k, hlands, rfl⟩ := FileTree.write_eq_ok_iff.1 hwrite
    refine ⟨h.wellFormed.put_file hlands content, h.workingDir, h.unmoved, fun c hc hclear => ?_⟩
    rw [FileTree.get?_put _ hlands.ne_nil]
    split
    · exact ⟨content, rfl, fun hne => absurd hmode hne⟩
    · exact h.stays c hc hclear
  | @organized content t' relative result hmode hread hmove =>
    have hcarries := organizeFile_carries h.wellFormed hmove
    rw [hdest] at hcarries
    refine ⟨hcarries.wellFormed, hcarries.workingDir.trans h.workingDir, ?_, ?_⟩
    · intro move hin
      rcases List.mem_append.1 hin with hnew | hold
      · obtain ⟨place, -, rfl⟩ : ∃ place, result.toOption = some place ∧ (job.path, place) = move := by
          simpa using hnew
        exact hjob hmode
      · exact h.unmoved move hold
    · intro c hc hclear
      obtain ⟨c', hget, hsame⟩ := h.stays c hc fun move hin => hclear move (List.mem_append_right _ hin)
      refine ⟨c', hcarries.stays l c' (fun source place heq => ?_) hget, hsame⟩
      obtain ⟨target, htarget, hplaces⟩ := Option.map_eq_some_iff.1 heq
      cases hplaces
      refine ⟨fun hbelow => ?_, hclear (job.path, target) (by simp [htarget])⟩
      -- What is below a directory is not below the file that is moved.
      obtain ⟨k, hfind⟩ := FileTree.read_eq_ok_iff.1 hread
      obtain ⟨-, -, -, -, hfile⟩ := FileTree.find_file_iff.1 hfind
      rw [(FileTree.route_of_find hfind).2, hdest] at hfile
      have hdirectory := h.wellFormed.above hget hbelow (hjob hmode)
      rw [hfile] at hdirectory
      cases hdirectory

end Held

/-- A run that adds files has no job for the file at a location, and will have none: it has a
    record at the key by which a scan comes to the file. -/
structure Overlooked (s : Setup) (files : FileTree) (l : Location) (uri : String) (b : Books) :
    Prop where
  target : b.target = none
  recorded : ∃ primary, b.primary = some primary ∧ ∃ row ∈ primary.table.rows, row.uri = uri
  jobs : ∀ job ∈ b.jobs, job.existing = none ∧ files.destination job.path ≠ l
  source : ∀ source ∈ b.source, ∃ paths, source = .files paths ∧
    ∀ p ∈ paths, files.destination p = l → keyOf s.musicDir p = uri

namespace Overlooked

theorem begin {row : Row} {source : Option Source} (hmode : s.mode = .checkNew)
    (hlisted : files.Listed) (hrow : row ∈ s.rows files) (hl : l ∉ s.places files)
    (hkey : ∀ p ∈ files.walk s.root, files.destination p = l → keyOf s.musicDir p = row.uri)
    (h : b.Ready s files) (hbegins : Books.Begins s b source) :
    Overlooked s files l row.uri { b with source } := by
  obtain ⟨primary, hprimary, hrows, -⟩ := h.primary
  refine ⟨by simpa [hmode, Mode.isDestructive] using h.target,
    ⟨primary, hprimary, row, hrows ▸ hrow, rfl⟩, by simp [h.jobs], fun source hsource => ?_⟩
  cases hbegins with
  | stopped => cases hsource
  | files _ =>
    cases hsource
    refine ⟨_, rfl, fun p hp hdest => hkey p ?_ hdest⟩
    have hwf := h.retabled.wellFormed
    have hlisted' := h.retabled.listed hlisted
    obtain ⟨c, hget⟩ := FileTree.file_of_mem_walk hwf hlisted' hp
    rw [FileTree.destination_congr h.retabled.workingDir] at hget
    have hold := hget
    rw [h.retabled.get? _ (hdest ▸ hl)] at hold
    exact FileTree.mem_walk_of hwf hlisted' h.retabled.workingDir h.retabled.directory hp hold
  | table horigin _ => simp [hmode, Mode.origin] at horigin

/-- A file with a record at its key is settled without a job. -/
theorem settles {c : Candidate} {source : Source} (hmode : s.mode = .checkNew)
    (h : Overlooked s files l uri b) (htakes : Books.Takes s b c source)
    (hsettles : Books.Settles s { b with source := some source } c b') :
    Overlooked s files l uri b' := by
  cases htakes with
  | visited hsource _ _ =>
    obtain ⟨_, heq, -⟩ := h.source _ hsource
    cases heq
  | @file path paths hsource =>
    obtain ⟨_, heq, hpaths⟩ := h.source _ hsource
    cases heq
    have hrest : ∀ source ∈ (some (Source.files paths) : Option Source), ∃ paths,
        source = .files paths ∧ ∀ p ∈ paths, files.destination p = l → keyOf s.musicDir p = uri := by
      rintro _ ⟨⟩
      exact ⟨paths, rfl, fun p hp => hpaths p (List.mem_cons_of_mem _ hp)⟩
    cases hsettles with
    | idle => exact ⟨h.target, h.recorded, h.jobs, hrest⟩
    | copied hcompact _ _ _ =>
      obtain ⟨_, hcompact⟩ := hcompact
      simp [hmode] at hcompact
    | queuedNew relative hrecord _ =>
      refine ⟨h.target, h.recorded, fun job hjob => ?_, hrest⟩
      rcases List.mem_append.1 hjob with hjob | hjob
      · exact h.jobs job hjob
      · rw [List.mem_singleton.1 hjob]
        refine ⟨rfl, fun hdest => ?_⟩
        obtain ⟨primary, hprimary, row, hrow, huri⟩ := h.recorded
        have hnone := (hrecord.resolve_left (by simp [hmode])).2 primary hprimary
        rw [SongTable.songAt?_eq_none_iff] at hnone
        exact hnone row hrow (huri.trans (hpaths path (List.mem_cons_self ..) hdest).symm)
    | queuedOld _ _ hother _ => exact absurd hmode hother.2.1

/-- A table keeps the rows at a location when a song without an id is saved. -/
theorem saves {song : Song} (h : Overlooked s files l uri b) (hid : song.id = none)
    (hs : Books.Saves b song b') : Overlooked s files l uri b' := by
  cases hs with
  | refused => exact h
  | @saved primary table _ hsome hsave =>
    obtain ⟨_, hprimary, row, hrow, huri⟩ := h.recorded
    obtain rfl := Option.some.inj (hsome.symm.trans hprimary)
    refine ⟨h.target, ⟨_, rfl, row, ?_, huri⟩, h.jobs, h.source⟩
    rcases SongTable.save?_cases hsave with ⟨_, hsome, -⟩ | ⟨_, -, hperm⟩
    · rw [hid] at hsome
      cases hsome
    · exact hperm.symm.subset (List.mem_cons_of_mem _ hrow)

end Overlooked

/-- What is kept of the file at a location where a song is recorded. -/
structure Staying (s : Setup) (files : FileTree) (l : Location) (uri : String) (b : Books) : Prop
    extends Held s files l b where
  overlooked : s.mode.allowsMoves ∧ s.autoOrganize → Overlooked s files l uri b

namespace Staying

/-- Doing a job leaves the file where it is, and its record in the table. -/
theorem work (hw : w.Reliable) (hmode : s.mode ≠ .reorganize)
    (horganize : s.mode.allowsMoves ∧ s.autoOrganize → s.mode = .checkNew)
    (h : Staying s files l uri { r.books with jobs := job :: r.books.jobs }) :
    Staying s files l uri (r.perform s w job).books := by
  have hheld : Held s files l r.books := h.toHeld.congr rfl rfl
  have htouches := Run.perform_touches hw hmode r job
  have hjob : s.mode.allowsMoves ∧ s.autoOrganize → files.destination job.path ≠ l :=
    fun hmoves => ((h.overlooked hmoves).jobs job (List.mem_cons_self ..)).2
  refine ⟨(hheld.touches htouches hjob).congr rfl rfl, fun hmoves => ?_⟩
  have hlooks := h.overlooked hmoves
  have hrest : Overlooked s files l uri r.books :=
    ⟨hlooks.target, hlooks.recorded, fun other hother => hlooks.jobs other (List.mem_cons_of_mem _ hother),
      hlooks.source⟩
  have hperform : r.perform s w job = r.updateFromFile s w job := by
    rw [Run.perform, horganize hmoves]
  obtain ⟨r₁, song, -, hbooks, hid, hsaved⟩ := Run.updateFromFile_touches (s := s) hw r job
  have hbefore : Overlooked s files l uri r₁.books := by
    rw [hbooks]
    exact ⟨hrest.target, hrest.recorded, hrest.jobs, hrest.source⟩
  rw [hperform]
  rcases hsaved with hsame | ⟨existed, hsame⟩ <;> rw [hsame]
  · exact hbefore
  · exact hbefore.saves (hid (hlooks.jobs job (List.mem_cons_self ..)).1)
      (Run.store_saves hbefore.target song existed)

/-- **A run keeps the file of a song where it is**, whatever fails. -/
theorem lasting {row : Row} (hw : w.Reliable) (hlisted : files.Listed) (hmode : s.mode ≠ .reorganize)
    (horganize : s.mode.allowsMoves ∧ s.autoOrganize → s.mode = .checkNew)
    (hrow : row ∈ s.rows files) (hl : l ∉ s.places files)
    (hkey : s.mode.allowsMoves ∧ s.autoOrganize →
      ∀ p ∈ files.walk s.root, files.destination p = l → keyOf s.musicDir p = row.uri) :
    Books.Lasting s w files (Staying s files l row.uri) where
  begin h hbegins := ⟨(Held.of_ready h hl).congr rfl rfl, fun hmoves =>
    .begin (horganize hmoves) hlisted hrow hl (hkey hmoves) h hbegins⟩
  stop h := by
    refine ⟨h.toHeld.congr rfl rfl, fun hmoves => ?_⟩
    have hlooks := h.overlooked hmoves
    exact ⟨hlooks.target, hlooks.recorded, hlooks.jobs, by simp⟩
  settle h htakes hsettles := by
    refine ⟨h.toHeld.congr ?_ hsettles.moves,
      fun hmoves => (h.overlooked hmoves).settles (horganize hmoves) htakes hsettles⟩
    cases hsettles <;> rfl
  work r job h := h.work hw hmode horganize

end Staying

/-! ## Whole runs -/

/-- A step that fails moves no file. -/
theorem Run.act_error_moves {r₁ : Run} {failure : Failure} (h : r.act s w = (r₁, .error failure)) :
    r₁.history.moves = r.history.moves := by
  cases act_error_cases h with
  | start _ h =>
    obtain ⟨_, _, _, _, _, hkeeps⟩ := r.start_keeps s w
    rw [h] at hkeeps
    exact congrArg (·.history.moves) hkeeps
  | prepare _ h =>
    have hkeeps := (r.prepare_files s w).2
    rw [h] at hkeeps
    exact congrArg History.moves hkeeps
  | gather _ h => exact (gather_error h).2
  | finish _ h =>
    have hkeeps := r.finish_history s w
    rw [h] at hkeeps
    exact congrArg History.moves hkeeps

/-- A run is over when its tables are closed, or when it fails: what holds of the moves made
    until then holds of all its moves. -/
theorem Run.moves_of_open {P : List (Path × Path) → Prop} {o : Option Failure}
    (hopen : ∀ {o : Option Failure} {r : Run}, Reachable s w files o r → r.phase ≠ .done →
      P r.history.moves) (h : Reachable s w files o r) : P r.history.moves := by
  induction h with
  | new => exact hopen .new (by simp [Run.new])
  | @control _ r message _ ih =>
    rcases r.control_cases message with heq | heq <;> rw [heq] <;> exact ih
  | @step _ r r' _ hr hs ih =>
    by_cases hdone : r'.phase = .done
    · have hact := (act_of_step_ok hs).1
      have hsame : r'.history.moves = r.history.moves := by
        by_cases hgoing : r.phase = .done
        · rw [act_of_done hgoing] at hact
          cases hact
          rfl
        · have hkept := r.finish_history s w
          rw [(finish_of_done hact hgoing hdone).2] at hkept
          exact congrArg History.moves hkept
      rw [hsame]
      exact ih
    · exact hopen (hr.step hs) hdone
  | @fail _ r r' failure hr hs ih =>
    obtain ⟨r₁, hact, rfl⟩ := act_of_step_error hs
    have hsame : (r₁.fail failure).history.moves = r₁.history.moves := rfl
    rw [hsame, act_error_moves hact]
    exact ih

/-- A file that has a record is not moved, unless files are reorganized, or a rebuild organizes
    them; it stays as it was, unless another is moved to its place, or tags are written. -/
theorem recorded_file_stays {row : Row} {o : Option Failure} (hw : w.Reliable)
    (hwf : files.WellFormed) (hlisted : files.Listed) (hmode : s.mode ≠ .reorganize)
    (hrebuild : s.mode = .rebuild → s.autoOrganize = false) (hrow : row ∈ s.rows files)
    (hapart : s.place files row.uri ∉ s.places files)
    (hkey : s.mode = .checkNew → s.autoOrganize → ∀ p ∈ files.walk s.root,
      files.destination p = s.place files row.uri → keyOf s.musicDir p = row.uri)
    (h : Reachable s w files o r) :
    (∀ move ∈ r.history.moves, files.destination move.1 ≠ s.place files row.uri) ∧
      (r.phase ≠ .done → Held s files (s.place files row.uri) r.books) := by
  have horganize : s.mode.allowsMoves ∧ s.autoOrganize → s.mode = .checkNew := by
    rintro ⟨hmoves, hauto⟩
    refine (Mode.rebuild_or_checkNew hmoves).resolve_left fun hcase => ?_
    rw [hrebuild hcase] at hauto
    cases hauto
  have hI : Books.Lasting s w files (Staying s files (s.place files row.uri) row.uri) :=
    Staying.lasting hw hlisted hmode horganize hrow hapart fun hmoves =>
      hkey (horganize hmoves) hmoves.2
  have hopen : ∀ {o : Option Failure} {r : Run}, Reachable s w files o r → r.phase ≠ .done →
      Held s files (s.place files row.uri) r.books := by
    intro o r h hphase
    cases Run.course_of_lasting hw hwf hI h with
    | fresh _ hbooks _ => exact .refl hwf (congrArg Books.files hbooks) (congrArg Books.moves hbooks)
    | ready _ hr => exact .of_ready hr hapart
    | working _ hr => exact hr.toHeld
    | ended hdone => exact absurd hdone hphase
  refine ⟨?_, hopen h⟩
  exact Run.moves_of_open (P := fun moves => ∀ move ∈ moves,
    files.destination move.1 ≠ s.place files row.uri) (fun h hphase => (hopen h hphase).unmoved) h

/-- **Files whose records ask that they stay are not moved**, unless files are reorganized, or a
    rebuild organizes them: in no state of a run, whatever fails and whenever the run is
    stopped.  Where a run adds files, this takes records at the keys by which it comes to them.
    Until the tables are closed the files are there as they were, unless others are moved to
    their places, or tags are written. -/
theorem flagged_files_stay {o : Option Failure} (hw : w.Reliable) (hwf : files.WellFormed)
    (hlisted : files.Listed) (hmode : s.mode ≠ .reorganize)
    (hrebuild : s.mode = .rebuild → s.autoOrganize = false) (h : Reachable s w files o r) :
    ∀ row ∈ s.rows files, row.preventRename → s.place files row.uri ∉ s.places files →
      (s.mode = .checkNew → s.autoOrganize → ∀ p ∈ files.walk s.root,
        files.destination p = s.place files row.uri → keyOf s.musicDir p = row.uri) →
      (∀ move ∈ r.history.moves, files.destination move.1 ≠ s.place files row.uri) ∧
        (r.phase ≠ .done → ∀ c, files.get? (s.place files row.uri) = some (.file c) →
          (∀ move ∈ r.history.moves, files.destination move.2 ≠ s.place files row.uri) →
          ∃ c', r.files.get? (s.place files row.uri) = some (.file c') ∧
            (s.mode ≠ .writeTags → c' = c)) := by
  intro row hrow _ hapart hkey
  obtain ⟨hmoves, hheld⟩ := recorded_file_stays hw hwf hlisted hmode hrebuild hrow hapart hkey h
  exact ⟨hmoves, fun hphase => (hheld hphase).stays⟩

/-- A library of one file, whose record asks that it stay. -/
def flaggedFiles (uri : String) : FileTree :=
  oneFile ⟨[{ (titled uri).row 1 with preventRename := true }], List.pairwise_singleton _ _⟩

/-- A run that adds files and organizes them leaves alone the file that is to stay. -/
theorem flagged_files_stay_sample :
    ∃ r r' : Run, Reachable (sampleSetup .checkNew) sampleServices (flaggedFiles "a.mp3") none r ∧
      r.step (sampleSetup .checkNew) sampleServices = (r', .ok .done) ∧
      r'.counters.get .found = 1 ∧
      ∃ row ∈ (sampleSetup .checkNew).rows (flaggedFiles "a.mp3"), row.preventRename ∧
        (flaggedFiles "a.mp3").destination (.ofString "/music/a.mp3") =
          (sampleSetup .checkNew).place (flaggedFiles "a.mp3") row.uri ∧
        ∀ move ∈ r'.history.moves, (flaggedFiles "a.mp3").destination move.1 ≠
          (sampleSetup .checkNew).place (flaggedFiles "a.mp3") row.uri := by
  have h : Reachable (sampleSetup .checkNew) sampleServices (flaggedFiles "a.mp3") none
      (Run.steps (sampleSetup .checkNew) sampleServices 4
        (.new (sampleSetup .checkNew) (flaggedFiles "a.mp3"))) :=
    Run.reachable_steps .new (by decide +kernel)
  have hdone : ((Run.steps (sampleSetup .checkNew) sampleServices 4
      (.new (sampleSetup .checkNew) (flaggedFiles "a.mp3"))).step (sampleSetup .checkNew)
        sampleServices).2 = .ok .done := by decide +kernel
  have hstep := Prod.ext (x := (Run.steps (sampleSetup .checkNew) sampleServices 4
      (.new (sampleSetup .checkNew) (flaggedFiles "a.mp3"))).step (sampleSetup .checkNew)
        sampleServices) (y := (_, .ok .done)) rfl hdone
  refine ⟨_, _, h, hstep, by decide +kernel, { (titled "a.mp3").row 1 with preventRename := true },
    by decide +kernel, rfl, by decide +kernel, ?_⟩
  exact (flagged_files_stay sampleServices_reliable
    (.of_entries (by decide +kernel) (by decide +kernel)) (by decide +kernel) (by decide)
    (by decide) (h.step hstep) _ (by decide +kernel) rfl (by decide +kernel)
    (fun _ _ => by decide +kernel)).1

/-- **A rebuild that organizes files moves one whose record asks that it stay**: it takes no
    notice of records, and makes one of its own for every file. -/
theorem rebuild_moves_flagged :
    ∃ r r' : Run, Reachable (sampleSetup .rebuild) sampleServices (flaggedFiles "a.mp3") none r ∧
      r.phase = .finish ∧ r.stopped = false ∧
      r.step (sampleSetup .rebuild) sampleServices = (r', .ok .done) ∧
      (∃ row ∈ (sampleSetup .rebuild).rows (flaggedFiles "a.mp3"), row.preventRename ∧
        ∃ move ∈ r'.history.moves, (flaggedFiles "a.mp3").destination move.1 =
          (sampleSetup .rebuild).place (flaggedFiles "a.mp3") row.uri) ∧
      r'.history.moves = [(.ofString "/music/a.mp3", .ofString "/music/t.mp3")] ∧
      r'.files.pathExists (.ofString "/music/a.mp3") = false := by
  have h : Reachable (sampleSetup .rebuild) sampleServices (flaggedFiles "a.mp3") none
      (Run.steps (sampleSetup .rebuild) sampleServices 4
        (.new (sampleSetup .rebuild) (flaggedFiles "a.mp3"))) :=
    Run.reachable_steps .new (by decide +kernel)
  have hdone : ((Run.steps (sampleSetup .rebuild) sampleServices 4
      (.new (sampleSetup .rebuild) (flaggedFiles "a.mp3"))).step (sampleSetup .rebuild)
        sampleServices).2 = .ok .done := by decide +kernel
  exact ⟨_, _, h, by decide +kernel, by decide +kernel, Prod.ext rfl hdone,
    ⟨{ (titled "a.mp3").row 1 with preventRename := true }, by decide +kernel, rfl,
      (.ofString "/music/a.mp3", .ofString "/music/t.mp3"), by decide +kernel, by decide +kernel⟩,
    by decide +kernel, by decide +kernel⟩

/-- A run that adds files moves such a file, too, where the location of its record is spelled
    otherwise than a scan spells it. -/
theorem check_new_moves_flagged :
    ∃ r : Run, Reachable (sampleSetup .checkNew) sampleServices (flaggedFiles "./a.mp3") none r ∧
      (∃ row ∈ (sampleSetup .checkNew).rows (flaggedFiles "./a.mp3"), row.preventRename ∧
        ∃ move ∈ r.history.moves, (flaggedFiles "./a.mp3").destination move.1 =
          (sampleSetup .checkNew).place (flaggedFiles "./a.mp3") row.uri) ∧
      r.files.pathExists (.ofString "/music/a.mp3") = false := by
  have h : Reachable (sampleSetup .checkNew) sampleServices (flaggedFiles "./a.mp3") none
      (Run.steps (sampleSetup .checkNew) sampleServices 4
        (.new (sampleSetup .checkNew) (flaggedFiles "./a.mp3"))) :=
    Run.reachable_steps .new (by decide +kernel)
  exact ⟨_, h, ⟨{ (titled "./a.mp3").row 1 with preventRename := true }, by decide +kernel, rfl,
      (.ofString "/music/a.mp3", .ofString "/music/t.mp3"), by decide +kernel, by decide +kernel⟩,
    by decide +kernel⟩

end SongLibrary.Reconcile
