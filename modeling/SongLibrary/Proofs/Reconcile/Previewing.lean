/-
  A preview and the run that organizes files.

  * `Setup.Complete` says that the path of a file gives no tag that the template looks at
    and the file leaves open;
  * `Organizes` is what a run makes of the place of a file, and `preview_agrees` the main
    statement: of such a file a run makes the place that the preview gives;
  * of another file it may make another place (`preview_differs`).
-/
import SongLibrary.Placement
import SongLibrary.Proofs.Reconcile.Alike
import SongLibrary.Proofs.Reconcile.Conservation
import SongLibrary.Proofs.Reconcile.Revising
import SongLibrary.Proofs.Template.Consulting

namespace SongLibrary.Reconcile

/-! ## Tags out of paths -/

variable {refs : ReferenceData} {t : Template} {song : Song} {key : TagKey}

theorem fillDance_uri (refs : ReferenceData) (song : Song) : (fillDance refs song).uri = song.uri := by
  obtain ⟨g, hg⟩ := onTags_fillDance refs
  rw [hg]

/-- The dance is that of the genre, whatever else there is to a song. -/
theorem get?_fillDance_congr {a b : Song} (refs : ReferenceData) (key : TagKey)
    (h : a.tags = b.tags) : (fillDance refs a).get? key = (fillDance refs b).get? key := by
  rw [Song.get?, Song.get?, tags_fillDance, tags_fillDance, h]

/-- **A tag is filled in from the genre alone**, unless the path gives it. -/
theorem get?_fillDerived {relative : String} (hlevel : key ≠ .danceLevel)
    (h : (fillDance refs song).get? key = none → t.extract? relative key = none) :
    (fillDerived refs t relative song).get? key = (fillDance refs song).get? key := by
  have hfilled : (fillLevel refs (fillDance refs song)).tags.get? key =
      (fillDance refs song).tags.get? key := by
    rw [tags_fillLevel, if_neg fun hkey => hlevel hkey.1]
  rw [Song.get?, Song.get?, tags_fillDerived, hfilled]
  split
  · next hopen =>
    have hnone : (fillDance refs song).get? key = none := by
      rw [Song.get?_eq_none_iff, TagMap.isOpen_iff, ← hfilled, ← TagMap.isOpen_iff]
      exact hopen.2
    rw [h hnone]
    rfl
  · rfl

/-- No template looks at the level of a dance. -/
theorem danceLevel_not_consulted (t : Template) : .danceLevel ∉ t.consulted := by
  intro hmem
  obtain ⟨p, -, hp⟩ := List.mem_flatMap.1 hmem
  cases hfield : p.field <;> rw [hfield] at hp <;> revert hp <;> decide

/-- The path of a file gives no tag that the template looks at and the file leaves open,
    once its dance is that of its genre. -/
def Setup.Complete (s : Setup) (relative : String) (tags : TagMap) : Prop :=
  ∀ key ∈ s.template.consulted,
    (fillDance s.refs { Song.new relative "" with tags }).get? key = none →
    s.readingTemplate.extract? relative key = none

instance (s : Setup) (relative : String) (tags : TagMap) : Decidable (s.Complete relative tags) :=
  inferInstanceAs (Decidable (∀ key ∈ s.template.consulted, _ → _))

/-! ## Jobs of a run that adds files -/

variable {s : Setup} {w : Services} {files : FileTree} {r : Run} {job : Job}

/-- A job for a file that has no record, as a scan has come to it. -/
structure Job.IsFresh (s : Setup) (job : Job) : Prop where
  existing : job.existing = none
  key : job.key = keyOf s.musicDir job.path
  relative : job.relative = pathFrom s.root job.path

/-- The jobs of a run that adds files are for files without a record. -/
theorem fresh_lasting (hmode : s.mode.allowsMoves) :
    Books.Lasting s w files fun b =>
      (∀ job ∈ b.jobs, job.IsFresh s) ∧ ∀ visit, b.source ≠ some (.table visit) where
  begin h hbegins := by
    refine ⟨by simp [h.jobs], fun visit => ?_⟩
    cases hbegins with
    | stopped => simp
    | files _ => simp
    | table horigin _ =>
      rcases Mode.rebuild_or_checkNew hmode with heq | heq <;> simp [heq, Mode.origin] at horigin
  stop h := ⟨h.1, by simp⟩
  settle {b b' c source} h htakes hsettles := by
    cases htakes with
    | visited hsource _ _ => exact absurd hsource (h.2 _)
    | @file path paths _ =>
      cases hsettles with
      | idle => exact ⟨h.1, by simp⟩
      | copied hcompact _ _ _ =>
        obtain ⟨checkNew, hcompact⟩ := hcompact
        simp [hcompact, Mode.allowsMoves] at hmode
      | queuedNew relative _ hrelative =>
        refine ⟨fun job hjob => ?_, by simp⟩
        rcases List.mem_append.1 hjob with hjob | hjob
        · exact h.1 job hjob
        · rw [List.mem_singleton.1 hjob]
          exact ⟨rfl, rfl, hrelative⟩
      | queuedOld relative _ hother _ =>
        rcases Mode.rebuild_or_checkNew hmode with heq | heq
        · exact absurd heq hother.1
        · exact absurd heq hother.2.1
  work r job h := by
    have hkept := Run.perform_kept s w r job
    refine ⟨fun job' hjob => h.1 job' (List.mem_cons_of_mem _ ?_), fun visit => ?_⟩
    · simpa only [Run.books, hkept.queue] using hjob
    · simpa only [Run.books, hkept.source] using h.2 visit

/-- The record that the tags of a new file are read into. -/
def Setup.readSong (s : Setup) (job : Job) (date : String) (tags : TagMap) : Song :=
  fillDerived s.refs s.readingTemplate job.relative { Song.new job.key date with tags }

theorem Setup.readSong_uri (s : Setup) (job : Job) (date : String) (tags : TagMap) :
    (s.readSong job date tags).uri = job.key := by
  obtain ⟨filled, heq⟩ := Run.fillDerived_tags s.refs s.readingTemplate job.relative
    { Song.new job.key date with tags }
  rw [readSong, heq]
  rfl

theorem Setup.readSong_preventRename (s : Setup) (job : Job) (date : String) (tags : TagMap) :
    (s.readSong job date tags).preventRename = false := by
  obtain ⟨filled, heq⟩ := Run.fillDerived_tags s.refs s.readingTemplate job.relative
    { Song.new job.key date with tags }
  rw [readSong, heq]
  rfl

/-! ## Where files go -/

/-- What a run makes of the place of a file whose record has a key: the files and the moves
    there were, and those there are then. -/
inductive Organizes (musicDir : Path) (key : String) (place : Placement) (t : FileTree)
    (moves : List (Path × Path)) : FileTree → List (Path × Path) → Prop where
  /-- The place has no name for a file, or the file is there. -/
  | stays (h : isUsable place.relative = false ∨ place.relative = key) :
      Organizes musicDir key place t moves t moves
  | failed {t' : FileTree} {failure : Failure}
      (h : organizeFile t place.source musicDir place.relative = (t', .error failure)) :
      Organizes musicDir key place t moves t' moves
  | moved {t' : FileTree}
      (h : organizeFile t place.source musicDir place.relative = (t', .ok place.destination)) :
      Organizes musicDir key place t moves t' ((place.source, place.destination) :: moves)

namespace Run

/-- A file is moved to where it is found once it is there. -/
theorem destination_of_organizeFile {t t' : FileTree} {source musicDir place : Path}
    {relative : String} (h : organizeFile t source musicDir relative = (t', .ok place)) :
    place = musicDir.join (.ofString relative) := by
  unfold organizeFile at h
  split at h
  · cases h
  · dsimp only at h
    split at h
    · cases h
      rfl
    · split at h
      · cases h
      · split at h
        · cases h
        · split at h <;> cases h
          rfl

theorem rename_organizes (hw : w.Reliable) (r : Run) {song : Song} (path : Path)
    (bypass : Option String) (hfree : song.preventRename = false) :
    Organizes s.musicDir song.uri
      (s.template.place s.refs song bypass s.sanitizer path s.musicDir) r.files r.history.moves
      (r.rename s w song path bypass false).2.files
      (r.rename s w song path bypass false).2.history.moves := by
  unfold rename
  simp only [hfree, Bool.false_and, Bool.false_eq_true, if_false]
  split
  · next hbad => exact .stays (.inl (by simpa [Template.place] using hbad))
  · split
    · next hsame => exact .stays (.inr hsame)
    · rw [hw.move]
      cases hmove : organizeFile r.files path s.musicDir
          (s.template.render s.refs song bypass s.sanitizer) with
      | mk files outcome =>
        cases outcome with
        | error failure => exact .failed hmove
        | ok target =>
          obtain rfl := destination_of_organizeFile hmove
          exact .moved hmove

/-- Reading the tags of a new file into its record makes of the file's place what the tags
    and the path of the file come to. -/
theorem updateFromFile_organizes (hw : w.Reliable) (hmode : s.mode.allowsMoves)
    (hauto : s.autoOrganize) (r : Run) {content : Content} {parsed : ParsedTags}
    (hnew : job.existing = none) (hread : r.files.read job.path = .ok content)
    (hparsed : w.readTags r.moment job.path content = .ok parsed) (hsome : parsed.isEmpty = false) :
    ∃ date, Organizes s.musicDir job.key
      (s.template.place s.refs (s.readSong job date parsed.tags) (s.bypass? job.relative)
        s.sanitizer job.path s.musicDir) r.files r.history.moves
      (r.updateFromFile s w job).files (r.updateFromFile s w job).history.moves := by
  have hreads : r.readTags w job.path = (some parsed, r.asked) := by
    simp [readTags, hread, hparsed, Except.toOption]
  have hdone : ∃ date renamed, renamed = r.asked.asked.rename s w (s.readSong job date parsed.tags)
        job.path (s.bypass? job.relative) false ∧
      r.updateFromFile s w job = (renamed.2.store w renamed.1 false).count .processed :=
    ⟨w.now (r.moment + 1), _, rfl, by
      simp [updateFromFile, hreads, hsome, hnew, recordFor, hauto, hmode, Setup.readSong, asked]⟩
  obtain ⟨date, renamed, rfl, hdone⟩ := hdone
  have horganizes := r.asked.asked.rename_organizes (s := s) hw job.path
    (s.bypass? job.relative) (s.readSong_preventRename job date parsed.tags)
  rw [s.readSong_uri job] at horganizes
  refine ⟨date, ?_⟩
  rw [hdone]
  dsimp only [count]
  rw [(store_moves ..).1, (store_moves ..).2]
  exact horganizes

end Run

/-! ## Previews -/

/-- What a configuration settles is what a preview goes by. -/
theorem place_eq_preview {config : Config} {mode : Mode} {musicDir databasePath : Path}
    {platform : Platform} {tags : TagMap} (date : String)
    (hjob : job.IsFresh (.of config mode musicDir databasePath none platform))
    (hbelow : (job.path.stripBase? musicDir).isSome)
    (hcomplete : (Setup.of config mode musicDir databasePath none platform).Complete
      (nameFrom musicDir job.path) tags) :
    let s := Setup.of config mode musicDir databasePath none platform
    s.template.place s.refs (s.readSong job date tags) (s.bypass? job.relative) s.sanitizer
        job.path musicDir =
      config.preview platform musicDir job.path tags := by
  intro s
  have hname : pathFrom musicDir job.path = nameFrom musicDir job.path := by
    obtain ⟨rest, hrest⟩ := Option.isSome_iff_exists.1 hbelow
    rw [pathFrom, nameFrom, hrest]
  have hrelative : job.relative = nameFrom musicDir job.path := hjob.relative.trans hname
  have hkey : job.key = nameFrom musicDir job.path := hjob.key.trans hname
  -- Both read the bypass from the path only if the template mentions it.
  have hbypass : s.bypass? (nameFrom musicDir job.path) =
      if s.template.mentions .bypass then
        ((config.library.bypassOrgPath.map Template.compile).getD s.template).extractBypass?
          (nameFrom musicDir job.path)
      else none := by
    unfold Setup.bypass?
    split
    · next hmentions =>
      have htemplate : (Template.compile config.library.orgPath).mentions .bypass := hmentions
      simp [s, Setup.readingTemplate, Setup.of, htemplate]
    · rfl
  -- The path gives none of the open tags that the template looks at, so it changes nothing.
  have hrender : s.template.render s.refs (s.readSong job date tags) (s.bypass? job.relative)
      s.sanitizer = s.template.render s.refs
        (fillDance s.refs { Song.new (nameFrom musicDir job.path) "" with tags })
        (s.bypass? job.relative) s.sanitizer := by
    refine Template.render_congr s.sanitizer ?_ fun key hkey => ?_
    · rw [s.readSong_uri job, fillDance_uri, hkey]
      rfl
    · have hlevel : key ≠ .danceLevel := by
        rintro rfl
        exact danceLevel_not_consulted _ hkey
      have hsame := get?_fillDance_congr s.refs key (a := { Song.new job.key date with tags })
        (b := { Song.new (nameFrom musicDir job.path) "" with tags }) rfl
      rw [Setup.readSong, get?_fillDerived hlevel, hsame]
      rw [hsame, hrelative]
      exact hcomplete key hkey
  rw [Template.place, hrender, hrelative, hbypass]
  rfl

/-- Which job a state does next. -/
theorem Run.performNext_taken (h : (r.performNext s w).history.taken = job :: r.history.taken) :
    ∃ queue, r.queue.pop? = some (job, queue) := by
  cases hpop : r.queue.pop? with
  | none => simp [performNext, hpop] at h
  | some next =>
    obtain ⟨job', queue⟩ := next
    have hkept := perform_kept s w { r with queue, history.taken := job' :: r.history.taken } job'
    simp only [performNext, hpop, hkept.taken, List.cons.injEq, and_true] at h
    exact ⟨queue, by rw [h]⟩

/-- A step that does a job does it in a state that has the files and moves from before, and
    the properties that last. -/
theorem Run.step_taken {I : Books → Prop} {p : Run.Progress} {r' : Run}
    (hI : Books.Lasting s w files I) (hc : Run.Course s files I r)
    (hs : r.step s w = (r', .ok p)) (htaken : r'.history.taken = job :: r.history.taken) :
    ∃ (r₁ : Run) (queue : Queue Job), I r₁.books ∧ r₁.files = r.files ∧ r₁.history.moves = r.history.moves ∧
      r₁.queue.pop? = some (job, queue) ∧ r'.files = (r₁.performNext s w).files ∧
      r'.history.moves = (r₁.performNext s w).history.moves := by
  have hact := (act_of_step_ok hs).1
  have hidle : r'.history ≠ r.history := by
    intro hsame
    simp [hsame] at htaken
  -- Only the phases that take candidates or do what is left take jobs from the queue.
  cases act_cases hact with
  | start _ hact _ =>
    have hsame := (SameAccounts.start (s := s) (w := w) (r := r)).history
    rw [hact] at hsame
    exact absurd hsame hidle
  | prepare _ hact _ =>
    have hsame := (SameAccounts.prepare (s := s) (w := w) (r := r)).history
    rw [hact] at hsame
    exact absurd hsame hidle
  | gather hphase hact _ =>
    unfold gather at hact
    split at hact
    · cases hact
    · next r₁ hpull =>
      cases hact
      have hlooks := pull_looks (s := s) (w := w) (r := r) s.batch
      rw [hpull] at hlooks
      obtain ⟨hfiles, hmoves, hbefore⟩ := Looks.keeps hlooks
      obtain ⟨phase, hnoted⟩ : ∃ phase,
          (if r₁.source.isNone then { r₁ with phase := .drain } else r₁) = { r₁ with phase } := by
        split
        · exact ⟨.drain, rfl⟩
        · exact ⟨r₁.phase, rfl⟩
      rw [hnoted] at htaken ⊢
      obtain ⟨reported, sent, hkeeps⟩ := ({ r₁ with phase }.performNext s w).reportProgress_keeps
      rw [hkeeps] at htaken ⊢
      dsimp only at hfiles hmoves hbefore
      obtain ⟨queue, hpop⟩ := performNext_taken (r := { r₁ with phase }) (hbefore ▸ htaken)
      have hlasting : I { r₁ with phase }.books :=
        show I r₁.books from pull_books hI (hc.books (by simp [hphase])) hpull
      exact ⟨{ r₁ with phase }, queue, hlasting, hfiles, hmoves, hpop, rfl, rfl⟩
  | drain hphase _ =>
    unfold drain at hidle htaken ⊢
    by_cases hempty : r.queue.isEmpty
    · simp [hempty] at hidle
    · rw [if_neg hempty] at htaken ⊢
      obtain ⟨reported, sent, hkeeps⟩ := (r.performNext s w).reportProgress_keeps
      rw [hkeeps] at htaken ⊢
      obtain ⟨queue, hpop⟩ := performNext_taken htaken
      exact ⟨r, queue, hc.books (by simp [hphase]), rfl, rfl, hpop, rfl, rfl⟩
  | finish _ hact _ =>
    have hsame := (SameAccounts.finish (s := s) (w := w) (r := r)).history
    rw [hact] at hsame
    exact absurd hsame hidle
  | done _ => exact absurd rfl hidle

/-- **A run makes of a new file the place that the preview gives**, if the path of the file
    gives no tag that the template looks at and the file leaves open: the file is moved there
    or stays. -/
theorem preview_agrees {config : Config} {mode : Mode} {musicDir databasePath : Path}
    {platform : Platform} {o : Option Failure} {r' : Run} {p : Run.Progress} {content : Content}
    {parsed : ParsedTags} (hmode : mode.allowsMoves) (hauto : config.library.autoOrganize)
    (hw : w.Reliable) (hwf : files.WellFormed)
    (h : Reachable (.of config mode musicDir databasePath none platform) w files o r)
    (hs : r.step (.of config mode musicDir databasePath none platform) w = (r', .ok p))
    (htaken : r'.history.taken = job :: r.history.taken)
    (hbelow : (job.path.stripBase? musicDir).isSome) (hread : r.files.read job.path = .ok content)
    (hparsed : ∀ n, w.readTags n job.path content = .ok parsed) (hsome : parsed.isEmpty = false)
    (hcomplete : (Setup.of config mode musicDir databasePath none platform).Complete
      (nameFrom musicDir job.path) parsed.tags) :
    Organizes musicDir job.key (config.preview platform musicDir job.path parsed.tags)
      r.files r.history.moves r'.files r'.history.moves := by
  obtain ⟨r₁, queue, ⟨hfresh, -⟩, hfiles, hmoves, hpop, hfiles', hmoves'⟩ :=
    Run.step_taken (fresh_lasting hmode) (Run.course_of_lasting hw hwf (fresh_lasting hmode) h) hs
      htaken
  have hjob : job.IsFresh (.of config mode musicDir databasePath none platform) := by
    refine hfresh job ?_
    rw [Run.books, Queue.toList_of_pop? hpop]
    exact List.mem_cons_self
  have hperform : (Setup.of config mode musicDir databasePath none platform).mode = mode := rfl
  obtain ⟨date, horganizes⟩ := Run.updateFromFile_organizes
    (s := .of config mode musicDir databasePath none platform) hw hmode hauto
    { r₁ with queue, history.taken := job :: r₁.history.taken } hjob.existing (hfiles ▸ hread)
    (hparsed _) hsome
  have hplace := place_eq_preview date hjob hbelow hcomplete
  dsimp only at hplace
  rw [hfiles', hmoves', ← hfiles, ← hmoves, Run.performNext, hpop, ← hplace]
  dsimp only
  unfold Run.perform
  rcases Mode.rebuild_or_checkNew hmode with rfl | rfl
  · exact horganizes
  · exact horganizes

/-- A new file is moved to its title, as the preview says. -/
theorem preview_agrees_sample :
    ∃ (r r' : Run) (job : Job),
      Reachable (sampleSetup .checkNew) sampleServices sampleFiles none r ∧
      r.step (sampleSetup .checkNew) sampleServices = (r', .ok .continue) ∧
      r'.history.taken = job :: r.history.taken ∧
      r'.history.moves = [(.ofString "/music/a.mp3", .ofString "/music/t.mp3")] ∧
      Organizes (.ofString "/music") job.key
        (Config.preview { library := { orgPath := "%TITLE%", autoOrganize := true } } .linux
          (.ofString "/music") job.path (.ofList [(.duration, "180000"), (.title, "t")]))
        r.files r.history.moves r'.files r'.history.moves := by
  have h : Reachable (sampleSetup .checkNew) sampleServices sampleFiles none
      (Run.steps (sampleSetup .checkNew) sampleServices 2
        (.new (sampleSetup .checkNew) sampleFiles)) :=
    Run.reachable_steps .new (by decide +kernel)
  have hgoes : ((Run.steps (sampleSetup .checkNew) sampleServices 2
      (.new (sampleSetup .checkNew) sampleFiles)).step (sampleSetup .checkNew) sampleServices).2 =
        .ok .continue := by decide +kernel
  have hs := Prod.ext (x := (Run.steps (sampleSetup .checkNew) sampleServices 2
      (.new (sampleSetup .checkNew) sampleFiles)).step (sampleSetup .checkNew) sampleServices)
    (y := (_, .ok .continue)) rfl hgoes
  have htaken : ((Run.steps (sampleSetup .checkNew) sampleServices 2
      (.new (sampleSetup .checkNew) sampleFiles)).step (sampleSetup .checkNew)
        sampleServices).1.history.taken =
          ⟨.ofString "/music/a.mp3", "a.mp3", "a.mp3", none⟩ ::
            (Run.steps (sampleSetup .checkNew) sampleServices 2
              (.new (sampleSetup .checkNew) sampleFiles)).history.taken := by decide +kernel
  have hwf : sampleFiles.WellFormed := .of_entries (by decide +kernel) (by decide +kernel)
  have hread : (Run.steps (sampleSetup .checkNew) sampleServices 2
      (.new (sampleSetup .checkNew) sampleFiles)).files.read (.ofString "/music/a.mp3") =
        .ok (.text "a song") := by decide +kernel
  have hparsed : ∀ n, sampleServices.readTags n (.ofString "/music/a.mp3") (.text "a song") =
      .ok ⟨.ofList [(.duration, "180000"), (.title, "t")], false⟩ := fun _ => rfl
  exact ⟨_, _, _, h, hs, htaken, by decide +kernel,
    (preview_agrees rfl rfl sampleServices_reliable hwf h hs htaken (by decide +kernel) hread
      hparsed (by decide +kernel) (by decide +kernel) : Organizes _ _ (Config.preview
        { library := { orgPath := "%TITLE%", autoOrganize := true } } _ _ _ _) _ _ _ _)⟩

/-- A configuration that moves files to the directories of their artists. -/
def byArtist : Config :=
  { library := { orgPath := "%ARTIST%/%TITLE%", autoOrganize := true } }

/-- A run that adds files and moves them to the directories of their artists. -/
def deepSetup : Setup :=
  .of byArtist .checkNew (.ofString "/music") (.ofString "/songs.db") none .linux

/-- A library of one file, in a directory. -/
def deepFiles : FileTree where
  entries :=
    [([.ofString "music"], .directory), ([.ofString "music", .ofString "x"], .directory),
      ([.ofString "music", .ofString "x", .ofString "a.mp3"], .file (.text "a song"))]

/-- The place that the preview gives the file. -/
def nestedPreview : Placement :=
  byArtist.preview .linux (.ofString "/music") (.ofString "/music/x/a.mp3")
    (.ofList [(.duration, "180000"), (.title, "t")])

/-- **A run may find the artist of a file in its path**, where the preview leaves the artist
    out: they come to different places. -/
theorem preview_differs :
    ∃ r r' : Run, Reachable deepSetup sampleServices deepFiles none r ∧
      r.step deepSetup sampleServices = (r', .ok .continue) ∧
      r'.history.moves = [(.ofString "/music/x/a.mp3", .ofString "/music/x/t.mp3")] ∧
      nestedPreview.destination = .ofString "/t.mp3" ∧
      ¬ Organizes (.ofString "/music") "x/a.mp3" nestedPreview r.files r.history.moves r'.files
        r'.history.moves := by
  have h : Reachable deepSetup sampleServices deepFiles none
      (Run.steps deepSetup sampleServices 2 (.new deepSetup deepFiles)) :=
    Run.reachable_steps .new (by decide +kernel)
  have hgoes : ((Run.steps deepSetup sampleServices 2 (.new deepSetup deepFiles)).step
      deepSetup sampleServices).2 = .ok .continue := by decide +kernel
  have hs := Prod.ext (x := (Run.steps deepSetup sampleServices 2
    (.new deepSetup deepFiles)).step deepSetup sampleServices)
    (y := (_, .ok .continue)) rfl hgoes
  have hmoves : ((Run.steps deepSetup sampleServices 2 (.new deepSetup deepFiles)).step
      deepSetup sampleServices).1.history.moves =
        [(.ofString "/music/x/a.mp3", .ofString "/music/x/t.mp3")] := by decide +kernel
  have hnone : (Run.steps deepSetup sampleServices 2
      (.new deepSetup deepFiles)).history.moves = [] := by decide +kernel
  have hplace : nestedPreview.destination = .ofString "/t.mp3" := by decide +kernel
  refine ⟨_, _, h, hs, hmoves, hplace, fun horganizes => ?_⟩
  rw [hmoves, hnone] at horganizes
  -- The one move there is does not go to the place of the preview.
  have hmoved : ∀ {t t' : FileTree} {moves : List (Path × Path)},
      Organizes (.ofString "/music") "x/a.mp3" nestedPreview t [] t' moves →
        ∀ move ∈ moves, move.2 = .ofString "/t.mp3" := by
    intro t t' moves horganizes
    cases horganizes with
    | stays _ => simp
    | failed _ => simp
    | moved _ => simpa using hplace
  exact absurd (hmoved horganizes _ List.mem_cons_self) (by decide +kernel)

end SongLibrary.Reconcile
