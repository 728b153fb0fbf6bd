/-
  Runs that copy the records of the files they find.

  * `Scanning` is the invariant: every record at the key of a file seen so far is in the
    new table, unless a new song has its id; and the rows of that table are such records,
    and new songs where the library had none;
  * `compact_keeps_found` is the main statement: the records that are kept are the first
    ones at the keys of files that the scan comes to;
  * a record whose file is elsewhere is lost (`compact_loses_unscanned`).
-/
import SongLibrary.Proofs.Reconcile.Compact

namespace SongLibrary.Reconcile

open FileTree (Retabled)

variable {s : Setup} {w : Services} {files : FileTree} {b b' : Books} {r r' : Run}

/-- Where files of tables come and go, a scan comes to the other files as before. -/
theorem mem_walk_iff {gone new : List Location} {t : FileTree} {p root : Path}
    (h : Retabled gone new files t) (hwf : files.WellFormed) (hlisted : files.Listed)
    (hd : files.KeepsDirectories t) (hplace : files.destination p ∉ gone) :
    p ∈ t.walk root ↔ p ∈ files.walk root := by
  have hsame : t.get? (files.destination p) = files.get? (files.destination p) := h.get? _ hplace
  have hdest : t.destination p = files.destination p := FileTree.destination_congr h.workingDir p
  constructor
  · intro hp
    obtain ⟨c, hget⟩ := FileTree.file_of_mem_walk h.wellFormed (h.listed hlisted) hp
    rw [hdest, hsame] at hget
    exact FileTree.mem_walk_of h.wellFormed (h.listed hlisted) h.workingDir h.directory hp hget
  · intro hp
    obtain ⟨c, hget⟩ := FileTree.file_of_mem_walk hwf hlisted hp
    rw [← hsame, ← hdest] at hget
    exact FileTree.mem_walk_of hwf hlisted h.workingDir.symm hd hp hget

/-! ## Records that are settled -/

/-- A scan comes to a file with a key, and there is no reason to leave it out. -/
def Setup.IsFound (s : Setup) (t : FileTree) (uri : String) : Prop :=
  ∃ p ∈ t.walk s.root, keyOf s.musicDir p = uri ∧ s.classifier.skipReason? p true = none

instance (s : Setup) (t : FileTree) (uri : String) : Decidable (s.IsFound t uri) :=
  inferInstanceAs (Decidable (∃ p ∈ t.walk s.root, _ ∧ _))

/-- A song is among some rows, or one that is elsewhere has its id. -/
def IsSettled (rows : List Row) (song : Song) : Prop :=
  ∃ row ∈ rows, song.id = some row.id ∧ (row.song = song ∨ row.uri ≠ song.uri)

theorem IsSettled.mono {rows rows' : List Row} {song : Song} (h : IsSettled rows song)
    (hsub : rows ⊆ rows') : IsSettled rows' song := by
  obtain ⟨row, hrow, hsettled⟩ := h
  exact ⟨row, hsub hrow, hsettled⟩

/-- A row of the new table is the first record at the key of a file that is found, or that
    of a song where the library has none. -/
def IsTransferred (s : Setup) (t : FileTree) (table : SongTable) (row : Row) : Prop :=
  (∃ old ∈ table.rows, row = old.recoded ∧ table.songAt? old.uri = some old.song ∧
      s.IsFound t old.uri) ∨
    table.songAt? row.uri = none

/-- The scan of a library: the files seen so far, and those to come. -/
structure Scanned (s : Setup) (b : Books) (last : Option String) (table target : SongTable)
    (seen rest : List Path) : Prop where
  walk : b.files.walk s.root = seen ++ rest
  coming : ∀ source ∈ b.source, source = .files rest
  ended : b.source = none → rest = []
  rows : ∀ row ∈ target.rows, IsTransferred s b.files table row
  settled : ∀ p ∈ seen, s.classifier.skipReason? p true = none →
    ∀ song, table.songAt? (keyOf s.musicDir p) = some song → IsSettled target.rows song
  copied : ∀ uri ∈ last, ∀ song, table.songAt? uri = some song → IsSettled target.rows song

/-- What holds of a run that copies the records of the files it finds. -/
structure Scanning (s : Setup) (files : FileTree) (b : Books) (last : Option String) : Prop where
  retabled : Retabled (s.places files) (s.tablePlaces files) files b.files
  directories : files.KeepsDirectories b.files
  moves : b.moves = []
  scanned : ∃ primary target, b.primary = some primary ∧ b.target = some target ∧
    primary.table.rows = s.rows files ∧
    (∀ job ∈ b.jobs, job.existing = none ∧ primary.table.songAt? job.key = none) ∧
    ∃ seen rest, Scanned s b last primary.table target.table seen rest

/-! ## The course of such a run -/

/-- A record that is not taken has its id in use. -/
theorem isSettled_of_refused {table target : SongTable} {song : Song} {uri : String}
    (hrows : ∀ row ∈ target.rows, IsTransferred s b.files table row)
    (hsong : table.songAt? uri = some song) (hnone : target.insert? song = none) :
    IsSettled target.rows song := by
  obtain ⟨old, -, rfl, huri, -⟩ := SongTable.songAt?_eq_some_iff.1 hsong
  rcases target.insert?_cases (show old.song.id = some old.id from rfl) with
    ⟨_, hsome, -⟩ | ⟨-, row, hrow, hid⟩
  · rw [hnone] at hsome
    cases hsome
  · refine ⟨row, hrow, congrArg some hid.symm, ?_⟩
    rcases hrows row hrow with ⟨first, -, rfl, hfirst, -⟩ | hnew
    · refine or_iff_not_imp_right.2 fun hsame => ?_
      have hplace : first.uri = uri := (not_not.1 hsame).trans huri
      rw [Row.song_recoded]
      rw [hplace, hsong] at hfirst
      exact (Option.some.inj hfirst).symm
    · refine .inr fun hsame => ?_
      have hplace : row.uri = uri := hsame.trans huri
      rw [hplace, hsong] at hnew
      cases hnew

/-- The new table may have another row. -/
theorem Scanned.grows {last : Option String} {table target target' : SongTable}
    {seen rest : List Path} {row : Row} (h : Scanned s b last table target seen rest)
    (hfiles : b'.files = b.files) (hsource : b'.source = b.source)
    (hrows : target'.rows.Perm (row :: target.rows)) (hrow : IsTransferred s b.files table row) :
    Scanned s b' last table target' seen rest := by
  have hsub : target.rows ⊆ target'.rows := fun other hother =>
    hrows.symm.subset (List.mem_cons_of_mem _ hother)
  refine ⟨hfiles ▸ h.walk, hsource ▸ h.coming, hsource ▸ h.ended, fun other hother => ?_,
    fun p hp hreason song hat => (h.settled p hp hreason song hat).mono hsub,
    fun uri hlast song hat => (h.copied uri hlast song hat).mono hsub⟩
  rw [hfiles]
  rcases List.mem_cons.1 (hrows.subset hother) with rfl | hother
  · exact hrow
  · exact h.rows other hother

/-- A file has been seen once the record at its key is settled. -/
theorem Scanned.next {last last' : Option String} {table target : SongTable}
    {seen rest : List Path} {p : Path} (h : Scanned s b last table target seen (p :: rest))
    (hfiles : b'.files = b.files) (hsource : b'.source = some (.files rest))
    (hp : s.classifier.skipReason? p true = none → ∀ song,
      table.songAt? (keyOf s.musicDir p) = some song → IsSettled target.rows song)
    (hlast : ∀ uri ∈ last', ∀ song, table.songAt? uri = some song → IsSettled target.rows song) :
    Scanned s b' last' table target (seen ++ [p]) rest := by
  refine ⟨?_, ?_, by simp [hsource], hfiles ▸ h.rows, fun q hq hreason song hat => ?_, hlast⟩
  · rw [hfiles, h.walk, List.append_assoc, List.singleton_append]
  · rintro source hsome
    rw [hsource] at hsome
    cases hsome
    rfl
  · rcases List.mem_append.1 hq with hq | hq
    · exact h.settled q hq hreason song hat
    · obtain rfl := List.mem_singleton.1 hq
      exact hp hreason song hat

/-- Looking at a file settles the record at its key. -/
theorem Scanned.consider {last last' : Option String} {primary target : OpenTable}
    {seen rest : List Path} {p : Path}
    (h : Scanned s b last primary.table target.table seen (p :: rest))
    (hprimary : b.primary = some primary) (htarget : b.target = some target)
    (hconsiders : Books.Considers s { b with source := some (.files rest) }
      ⟨p, keyOf s.musicDir p, none⟩ last b' last') :
    ∃ target', b'.target = some target' ∧
      Scanned s b' last' primary.table target'.table (seen ++ [p]) rest := by
  have hsong : ∀ {song : Song}, { b with source := some (.files rest) }.IsRecordOf
      ⟨p, keyOf s.musicDir p, none⟩ song →
        primary.table.songAt? (keyOf s.musicDir p) = some song ∧ song.uri = keyOf s.musicDir p := by
    rintro song (hsome | ⟨-, primary', hprimary', hat⟩)
    · cases hsome
    · obtain rfl := Option.some.inj (hprimary.symm.trans hprimary')
      obtain ⟨row, -, rfl, huri, -⟩ := SongTable.songAt?_eq_some_iff.1 hat
      exact ⟨hat, huri⟩
  -- The record that is considered is the only one at the key of the file.
  have hone : ∀ {song : Song} {rows : List Row},
      primary.table.songAt? (keyOf s.musicDir p) = some song → IsSettled rows song →
        ∀ other, primary.table.songAt? (keyOf s.musicDir p) = some other → IsSettled rows other := by
    intro song rows hat hsettled other hother
    obtain rfl := Option.some.inj (hat.symm.trans hother)
    exact hsettled
  cases hconsiders with
  | skipped hdead =>
    exact ⟨target, htarget, h.next rfl rfl (fun hreason => absurd ⟨hreason, by simp⟩ hdead) h.copied⟩
  | repeated _ hrecord hlast =>
    obtain ⟨-, huri⟩ := hsong hrecord
    exact ⟨target, htarget, h.next rfl rfl (fun _ => h.copied _ (huri ▸ hlast)) h.copied⟩
  | @copied song target' id _ hlive hrecord hlast hsome hinsert =>
    obtain rfl := Option.some.inj (htarget.symm.trans hsome)
    obtain ⟨hat, huri⟩ := hsong hrecord
    obtain ⟨old, hold, rfl, -⟩ := SongTable.songAt?_eq_some_iff.1 hat
    rcases target.table.insert?_cases (show old.song.id = some old.id from rfl) with
      ⟨table, hsame, hrows⟩ | ⟨hnone, -⟩
    · obtain ⟨-, rfl⟩ := Prod.mk.inj (Option.some.inj (hsame.symm.trans hinsert))
      have hfound : s.IsFound b.files old.uri := ⟨p, by simp [h.walk], huri.symm, hlive.1⟩
      have hgrown : Scanned s b last primary.table table seen (p :: rest) :=
        h.grows rfl rfl hrows (.inl ⟨old, hold, rfl, (congrArg _ huri).trans hat, hfound⟩)
      have hkept := hone hat
        ⟨old.recoded, hrows.symm.subset (List.mem_cons_self ..), rfl, .inl old.song_recoded⟩
      refine ⟨_, rfl, hgrown.next rfl rfl (fun _ => hkept) ?_⟩
      rintro _ ⟨⟩
      exact huri ▸ hkept
    · rw [hnone] at hinsert
      cases hinsert
  | refused hlive hrecord hlast hnone =>
    obtain ⟨hat, huri⟩ := hsong hrecord
    have hkept := hone hat (isSettled_of_refused h.rows hat (hnone target htarget))
    refine ⟨target, htarget, h.next rfl rfl (fun _ => hkept) ?_⟩
    rintro _ ⟨⟩
    exact huri ▸ hkept
  | unknown hlive _ hnone _ =>
    refine ⟨target, htarget, h.next rfl rfl (fun _ song hat => ?_) h.copied⟩
    rw [hnone primary hprimary] at hat
    cases hat

/-- A job stores a song where the library has none. -/
theorem Scanned.work {checkNew : Bool} {last : Option String} {primary target : OpenTable}
    {seen rest : List Path} {job : Job} (hmode : s.mode = .compact checkNew)
    (h : Scanned s b last primary.table target.table seen rest) (htarget : b.target = some target)
    (hjob : job.existing = none ∧ primary.table.songAt? job.key = none)
    (hworks : Books.Works s w b job b') :
    b'.files = b.files ∧ b'.jobs = b.jobs ∧ b'.moves = b.moves ∧ b'.primary = b.primary ∧
      ∃ target', b'.target = some target' ∧
        Scanned s b' last primary.table target'.table seen rest := by
  have hidle : b.files = b.files ∧ b.jobs = b.jobs ∧ b.moves = b.moves ∧ b.primary = b.primary ∧
      ∃ target', b.target = some target' ∧
        Scanned s b last primary.table target'.table seen rest :=
    ⟨rfl, rfl, rfl, rfl, target, htarget, h⟩
  cases hworks with
  | idle => exact hidle
  | written hwrite _ _ _ => simp [hmode] at hwrite
  | tracks hitunes _ _ _ => simp [hmode] at hitunes
  | reorganized hreorganize _ _ _ => simp [hmode] at hreorganize
  | @read content n tags song song' b₁ b₂ _ _ _ huri hmoves hstores =>
    obtain ⟨rfl, rfl⟩ := hmoves.resolve_left (by simp [hmode, Mode.allowsMoves])
    cases hstores.resolve_left (by simp [hjob.1]) with
    | refused _ => exact hidle
    | saved hnone _ _ =>
      rw [htarget] at hnone
      cases hnone
    | @added target' table id given hsome hinsert =>
      obtain rfl := Option.some.inj (htarget.symm.trans hsome)
      refine ⟨rfl, rfl, rfl, rfl, _, rfl, h.grows rfl rfl (SongTable.perm_of_insert? hinsert) (.inr ?_)⟩
      rw [show (Song.row { song' with id := given } id).uri = job.key from huri, hjob.2]

/-- A run that copies the records of files keeps `Scanning`. -/
theorem scanning_copying (hmode : s.mode = .compact true) (hleft : s.leftover files = []) :
    Books.Copying s w files (Scanning s files) where
  begin := by
    intro b source hready hdirs hbegins
    obtain ⟨primary, hprimary, hrows, -⟩ := hready.primary
    obtain ⟨target, htarget, hempty⟩ := hready.newTable (by rw [hmode]; rfl) hleft
    refine ⟨hready.retabled, hdirs, hready.moves, primary, target, hprimary, htarget, hrows,
      by simp [hready.jobs], [], b.files.walk s.root, rfl, ?_, by simp, by simp [hempty], by simp,
      by simp⟩
    rintro _ ⟨⟩
    cases hbegins with
    | files horigin => rfl
    | table horigin _ =>
      rw [hmode] at horigin
      cases horigin
  consider := by
    intro b b' last last' c source h htakes hconsiders
    obtain ⟨primary, target, hprimary, htarget, hrows, hjobs, seen, rest, hscanned⟩ := h.scanned
    cases htakes with
    | visited hsource _ _ => cases hscanned.coming _ hsource
    | @file p paths hsource =>
      cases hscanned.coming _ hsource
      obtain ⟨target', htarget', hscanned'⟩ := hscanned.consider hprimary htarget hconsiders
      have hsame : b'.files = b.files ∧ b'.moves = b.moves ∧ b'.primary = b.primary ∧
          ∀ job ∈ b'.jobs, job.existing = none ∧ primary.table.songAt? job.key = none := by
        cases hconsiders with
        | unknown _ _ hnone hnew =>
          refine ⟨rfl, rfl, rfl, fun job hjob => ?_⟩
          rcases List.mem_append.1 hjob with hjob | hjob
          · exact hjobs job hjob
          · obtain ⟨-, hkey, hexisting⟩ := hnew job hjob
            exact ⟨hexisting, hkey ▸ hnone primary hprimary⟩
        | _ => exact ⟨rfl, rfl, rfl, hjobs⟩
      obtain ⟨hfiles, hmoves, hprimaries, hjobs'⟩ := hsame
      exact ⟨hfiles ▸ h.retabled, hfiles ▸ h.directories, hmoves.trans h.moves, primary, target',
        hprimaries.trans hprimary, htarget', hrows, hjobs', _, _, hscanned'⟩
  close := by
    intro b last h hend
    obtain ⟨primary, target, hprimary, htarget, hrows, hjobs, seen, rest, hscanned⟩ := h.scanned
    refine ⟨h.retabled, h.directories, h.moves, primary, target, hprimary, htarget, hrows, hjobs,
      seen, rest, hscanned.walk, by simp, fun _ => ?_, hscanned.rows, hscanned.settled,
      hscanned.copied⟩
    cases hend with
    | none hsource => exact hscanned.ended hsource
    | files hsource =>
      cases hscanned.coming _ hsource
      rfl
    | table hsource _ _ => cases hscanned.coming _ hsource
  work := by
    intro b b' last job jobs h hqueue hworks
    obtain ⟨primary, target, hprimary, htarget, hrows, hjobs, seen, rest, hscanned⟩ := h.scanned
    obtain ⟨hfiles, hjobs', hmoves, hprimaries, target', htarget', hscanned'⟩ :=
      Scanned.work (b := { b with jobs }) hmode
        ⟨hscanned.walk, hscanned.coming, hscanned.ended, hscanned.rows, hscanned.settled,
          hscanned.copied⟩ htarget (hjobs job (by simp [hqueue])) hworks
    refine ⟨hfiles ▸ h.retabled, hfiles ▸ h.directories, hmoves.trans h.moves, primary, target',
      hprimaries.trans hprimary, htarget', hrows, ?_, seen, rest, hscanned'⟩
    rw [hjobs']
    exact fun job' hjob' => hjobs job' (by simp [hqueue, hjob'])

/-! ## What it leaves -/

/-- **A run that copies the records of the files it finds keeps the records with the
    lowest id at the key of such a file, as they were**, but for those whose id a new song
    has taken.  Which files it finds does not depend on the tables being open, where they
    are not those of tables. -/
theorem compact_keeps_found (hmode : s.mode = .compact true) (hw : w.Sound) (hwf : files.WellFormed)
    (hleft : s.leftover files = []) (h : Reachable s w files none r) (hphase : r.phase = .finish)
    (hstop : r.stopped = false) (hs : r.step s w = (r', .ok .done)) :
    (∀ row ∈ s.rows files, (∃ row' ∈ s.rows r'.files, row'.song = row.song) ↔
      (∀ other ∈ s.rows files, other.uri = row.uri → row.id ≤ other.id) ∧
        s.IsFound r.files row.uri ∧
        ∀ row' ∈ s.rows r'.files, row'.id = row.id → row'.uri = row.uri) ∧
      (files.Listed → ∀ p, files.destination p ∉ s.places files →
        (p ∈ r.files.walk s.root ↔ p ∈ files.walk s.root)) := by
  have hd : s.mode.isDestructive := by rw [hmode]; rfl
  have hunstopped := (Run.copying_of_reachable hw hwf hmode (scanning_copying hmode hleft) h).2
    (by simp [hphase]) hstop
  have hend := hunstopped.holds
  obtain ⟨primary, target, hprimary, htarget, hrows, -, seen, rest, hscanned⟩ := hend.scanned
  have hreplaces := replaces_of_reachable hd hw.toReliable hwf h hphase hstop hend.moves hs
  refine ⟨fun row hrow => ?_, fun hlisted p hplace =>
    mem_walk_iff hend.retabled hwf hlisted hend.directories hplace⟩
  have hfile : ¬ FileTree.isFileless s.databasePath := fun hfile => by
    simp [Setup.rows, hfile] at hrow
  obtain ⟨target', htarget', hleaves⟩ := hreplaces.rows
  obtain rfl := Option.some.inj (htarget.symm.trans htarget')
  rw [if_neg hfile] at hleaves
  have hseen : r.files.walk s.root = seen := by
    have hwalk := hscanned.walk
    rwa [hscanned.ended (hunstopped.seen (by simp [hphase])), List.append_nil] at hwalk
  -- The song that a table gives for a key is that of the row with the lowest id there.
  have hlowest : primary.table.songAt? row.uri = some row.song ↔
      ∀ other ∈ s.rows files, other.uri = row.uri → row.id ≤ other.id := by
    rw [SongTable.songAt?_eq_some_iff, hrows]
    constructor
    · rintro ⟨first, hfirst, hsong, -, hleast⟩ other hother huri
      have hid : first.id = row.id := Option.some.inj (congrArg Song.id hsong)
      exact hid ▸ hleast other hother huri
    · exact fun hleast => ⟨row, hrow, rfl, rfl, hleast⟩
  rw [← hlowest]
  constructor
  · rintro ⟨row', hrow', hsong⟩
    have hid : row'.id = row.id := Option.some.inj (congrArg Song.id hsong)
    have huri : row'.uri = row.uri := congrArg Song.uri hsong
    refine ⟨?_, ?_, fun row'' hrow'' hid' => ?_⟩
    · rcases hscanned.rows row' (hleaves.subset hrow') with ⟨old, -, rfl, hat, -⟩ | hnone
      · rw [Row.song_recoded] at hsong
        rw [← hsong, ← huri]
        exact hat
      · exact absurd huri.symm (SongTable.songAt?_eq_none_iff.1 hnone row (hrows ▸ hrow))
    · rcases hscanned.rows row' (hleaves.subset hrow') with ⟨old, -, rfl, -, hfound⟩ | hnone
      · exact huri ▸ hfound
      · exact absurd huri.symm (SongTable.songAt?_eq_none_iff.1 hnone row (hrows ▸ hrow))
    · rw [SongTable.eq_of_id (hleaves.subset hrow'') (hleaves.subset hrow') (hid'.trans hid.symm)]
      exact huri
  · rintro ⟨hat, ⟨p, hp, hkey, hreason⟩, hfree⟩
    obtain ⟨row', hrow', hid, hsettled⟩ :=
      hscanned.settled p (hseen ▸ hp) hreason row.song (hkey ▸ hat)
    have hmem := hleaves.symm.subset hrow'
    refine ⟨row', hmem, hsettled.resolve_right fun hne => hne ?_⟩
    exact hfree row' hmem (Option.some.inj hid).symm

/-- The record of a song in the music directory is kept. -/
theorem compact_keeps_found_recorded :
    ∃ r r' : Run, Reachable (sampleSetup (.compact true)) sampleServices recordedFiles none r ∧
      r.phase = .finish ∧ r.stopped = false ∧
      r.step (sampleSetup (.compact true)) sampleServices = (r', .ok .done) ∧
      ((sampleSetup (.compact true)).rows recordedFiles).length = 1 ∧
      ∀ row ∈ (sampleSetup (.compact true)).rows recordedFiles,
        ∃ row' ∈ (sampleSetup (.compact true)).rows r'.files, row'.song = row.song := by
  have h : Reachable (sampleSetup (.compact true)) sampleServices recordedFiles none
      (Run.steps (sampleSetup (.compact true)) sampleServices 4
        (.new (sampleSetup (.compact true)) recordedFiles)) :=
    Run.reachable_steps .new (by decide +kernel)
  refine ⟨_, _, h, by decide +kernel, by decide +kernel, Prod.ext rfl (by decide +kernel),
    by decide +kernel, fun row hrow => ?_⟩
  refine ((compact_keeps_found rfl sampleServices_sound (recordedFiles_orderly .rebuild).wellFormed
    (by decide +kernel) h (by decide +kernel) (by decide +kernel)
    (Prod.ext rfl (by decide +kernel))).1 row hrow).2 ⟨?_, ?_, ?_⟩
  · revert row
    decide +kernel
  · revert row
    decide +kernel
  · revert row
    decide +kernel

/-- A run on the library in `/music` that scans the directory `sub` of it. -/
def partialSetup : Setup :=
  .of {} (.compact true) (.ofString "/music") (.ofString "/songs.db")
    (some (.ofString "/music/sub")) .linux

/-- A library with records of two songs, one of them in the directory `sub`. -/
def nestedFiles : FileTree where
  entries :=
    [([.ofString "music"], .directory),
      ([.ofString "music", .ofString "a.mp3"], .file (.text "a song")),
      ([.ofString "music", .ofString "sub"], .directory),
      ([.ofString "music", .ofString "sub", .ofString "b.mp3"], .file (.text "a song")),
      ([.ofString "songs.db"], .file (.songs
        ⟨[(Song.new "a.mp3" "2020-01-01").row 1, (Song.new "sub/b.mp3" "2020-01-01").row 2],
          by decide⟩))]

/-- **A record whose file is not in the directory scanned is lost**, though its file is
    there and is one of those to be kept. -/
theorem compact_loses_unscanned :
    ∃ r r' : Run, Reachable partialSetup sampleServices nestedFiles none r ∧
      r.phase = .finish ∧ r.stopped = false ∧
      r.step partialSetup sampleServices = (r', .ok .done) ∧
      ∃ row ∈ partialSetup.rows nestedFiles,
        (∀ other ∈ partialSetup.rows nestedFiles, other.uri = row.uri → row.id ≤ other.id) ∧
        (nestedFiles.read (resolve partialSetup.musicDir row.uri)).isOk ∧
        partialSetup.classifier.skipReason? (resolve partialSetup.musicDir row.uri) true = none ∧
        ∀ row' ∈ partialSetup.rows r'.files, row'.uri ≠ row.uri := by
  have h : Reachable partialSetup sampleServices nestedFiles none
      (Run.steps partialSetup sampleServices 4 (.new partialSetup nestedFiles)) :=
    Run.reachable_steps .new (by decide +kernel)
  exact ⟨_, _, h, by decide +kernel, by decide +kernel, Prod.ext rfl (by decide +kernel),
    by decide +kernel⟩

end SongLibrary.Reconcile
