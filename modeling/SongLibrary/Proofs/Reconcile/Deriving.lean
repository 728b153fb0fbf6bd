/-
  The record that the tags of a file are read into.

  * `Run.filled` is the record before its file is moved: its tags are filled in
    (`Run.fills_filled`), and the rest is as it was, or that of a new record
    (`Run.filled_eq`);
  * `Run.keepRecord` is what becomes of it;
  * `updateFromFile_fills` is the main statement: the record has the tags of the file and
    those that are filled in, and is otherwise the one that there was, or a new one.
-/
import SongLibrary.Proofs.Reconcile.Outcomes

namespace SongLibrary.Reconcile

variable {w : Services} {r r' : Run} {job : Job} {parsed : ParsedTags}

/-- The template that the paths of a library are read with: the one for the places there were
    before, if the main template has a place for them. -/
def activeTemplate (library : LibrarySettings) : Template :=
  let main := Template.compile library.orgPath
  match library.bypassOrgPath with
  | some old => if main.mentions .bypass then Template.compile old else main
  | none => main

theorem Setup.readingTemplate_of (config : Config) (mode : Mode) (musicDir databasePath : Path)
    (scanDir : Option Path) (platform : Platform) :
    (Setup.of config mode musicDir databasePath scanDir platform).readingTemplate =
      activeTemplate config.library := by
  unfold Setup.readingTemplate Setup.of activeTemplate
  dsimp only
  cases config.library.bypassOrgPath with
  | none => split <;> rfl
  | some old => split <;> rfl

/-- What becomes of a record into which the tags of a file have been read: its file is moved,
    if the run moves files, and it is stored, if it is another than before. -/
def Run.keepRecord (s : Setup) (w : Services) (r : Run) (job : Job) (existing : Option Song)
    (song : Song) : Run :=
  let (song, r) :=
    if s.autoOrganize && s.mode.allowsMoves then
      r.rename s w song job.path (s.bypass? job.relative) false
    else (song, r)
  (if existing = some song then r else r.store w song existing.isSome).count .processed

/-- The record that the tags of a file are read into, before its file is moved. -/
def Run.filled (s : Setup) (w : Services) (r : Run) (job : Job) (tags : TagMap) : Song :=
  fillDerived s.refs s.readingTemplate job.relative
    { (r.recordFor w job (s.recordBefore? job)).1 with tags }

theorem Run.updateFromFile_eq {s : Setup} (hread : r.readTags w job.path = (some parsed, r'))
    (hsome : parsed.isEmpty = false) :
    r.updateFromFile s w job = (r'.recordFor w job (s.recordBefore? job)).2.keepRecord s w job
      (s.recordBefore? job) (r'.filled s w job parsed.tags) := by
  unfold Run.updateFromFile
  rw [hread]
  dsimp only
  rw [if_neg (by simp [hsome])]
  rfl

theorem Run.fills_filled (s : Setup) (w : Services) (r : Run) (job : Job) (tags : TagMap) :
    Fills s.refs s.readingTemplate job.relative tags (r.filled s w job tags).tags :=
  fills_fillDerived s.refs s.readingTemplate job.relative
    { (r.recordFor w job (s.recordBefore? job)).1 with tags }

/-- Apart from its tags, the record is the one that there was, or a new one. -/
theorem Run.filled_eq (s : Setup) (w : Services) (r : Run) (job : Job) (tags : TagMap) :
    r.filled s w job tags =
      match s.recordBefore? job with
      | some old => { old with uri := job.key, tags := (r.filled s w job tags).tags }
      | none =>
        { Song.new job.key (w.now r.moment) with tags := (r.filled s w job tags).tags } := by
  unfold Run.filled
  obtain ⟨g, hg⟩ := onTags_fillDerived s.refs s.readingTemplate job.relative
  rw [hg]
  cases s.recordBefore? job <;> rfl

/-- **The tags of a file win, and gaps are filled.**  The record that the tags of a file are read
    into has, before its file is moved, the values of the file, and beside them those that are
    filled in; in everything else it is the record that there was, or a new one. -/
theorem updateFromFile_fills {config : Config} {mode : Mode} {musicDir databasePath : Path}
    {scanDir : Option Path} {platform : Platform} {s : Setup}
    (hs : s = .of config mode musicDir databasePath scanDir platform)
    (hread : r.readTags w job.path = (some parsed, r')) (hsome : parsed.isEmpty = false) :
    ∃ song : Song,
      r.updateFromFile s w job = (r'.recordFor w job (s.recordBefore? job)).2.keepRecord s w job
        (s.recordBefore? job) song ∧
      Fills config.reference (activeTemplate config.library) job.relative parsed.tags song.tags ∧
      song.uri = job.key ∧
      match s.recordBefore? job with
      | some old => song.id = old.id ∧ song.dateAdded = old.dateAdded ∧
          song.prefixLength = old.prefixLength ∧ song.preventRename = old.preventRename
      | none => song.id = none ∧ song.dateAdded = w.now r'.moment ∧
          song.prefixLength = 0 ∧ song.preventRename = false := by
  have hfills := Run.fills_filled s w r' job parsed.tags
  have hrefs : s.refs = config.reference := by
    rw [hs]
    rfl
  have htemplate : s.readingTemplate = activeTemplate config.library := by
    rw [hs, Setup.readingTemplate_of]
  rw [hrefs, htemplate] at hfills
  refine ⟨r'.filled s w job parsed.tags, Run.updateFromFile_eq hread hsome, hfills, ?_⟩
  rw [Run.filled_eq]
  cases s.recordBefore? job <;> simp [Song.new]

/-- A configuration that moves files to the directories of their dances. -/
def byDance : Config :=
  { library := { orgPath := "%DANCE%/%ARTIST% - %TITLE%" } }

/-- A run that reads the tags of the files of the library in `/music`. -/
def danceSetup : Setup :=
  .of byDance .updateTags (.ofString "/music") (.ofString "/songs.db") none .linux

/-- A job for the file of the sample library, with a path that tells its dance. -/
def danceJob : Job :=
  ⟨.ofString "/music/a.mp3", "Waltz/x - y.mp3", "Waltz/x - y.mp3",
    some ⟨some 7, "a.mp3", .ofList [(.genre, "Pop")], "2019-01-01", 3, true⟩⟩

theorem updateFromFile_fills_dance :
    ∃ (r : Run) (parsed : ParsedTags) (r' : Run),
      r.readTags sampleServices danceJob.path = (some parsed, r') ∧ parsed.isEmpty = false ∧
      ∃ song : Song,
        r.updateFromFile danceSetup sampleServices danceJob =
          r'.keepRecord danceSetup sampleServices danceJob danceJob.existing song ∧
        song.tags.get? .title = some "t" ∧ song.tags.get? .artist = some "x" ∧
        song.tags.get? .dance = some "Waltz" ∧ song.tags.get? .danceLevel = some "Normal" ∧
        song.tags.get? .genre = none ∧ song.id = some 7 ∧ song.preventRename = true := by
  have hread : (Run.new danceSetup sampleFiles).readTags sampleServices danceJob.path =
      (some ⟨.ofList [(.duration, "180000"), (.title, "t")], false⟩,
        ((Run.new danceSetup sampleFiles).readTags sampleServices danceJob.path).2) :=
    Prod.ext (by decide) rfl
  obtain ⟨song, hrun, hfills, -, hid, -, -, hprevent⟩ :=
    updateFromFile_fills (rfl : danceSetup = .of byDance .updateTags _ _ _ _) hread (by decide)
  refine ⟨_, _, _, hread, by decide, song, hrun, ?_, ?_, ?_, ?_, ?_, hid, hprevent⟩
  · exact (hfills.kept .title (by decide)).trans (by decide)
  · exact (hfills.path .artist (by decide +kernel) (by decide) (by decide)).trans
      (by decide +kernel)
  · exact (hfills.dance (by decide)).trans (by decide +kernel)
  · exact (hfills.level (by decide)).trans (by decide)
  · exact (hfills.others .genre (by decide +kernel) (by decide) (by decide)).trans (by decide)

end SongLibrary.Reconcile
