/-
  Runs that differ in tuning.

  `tuning_changes_nothing`: how many candidates a run takes at a time, and how many jobs its
  queue may hold, is nothing to what it comes to, as long as each song leads directly to a
  file of its own (`Setup.Tunable`).  A way back through `..` may end where the run has
  removed a directory (`tuning_decides`).
-/
import SongLibrary.Proofs.Reconcile.Concluding
import SongLibrary.Proofs.Reconcile.Unaltered

namespace SongLibrary.Reconcile

variable {s : Setup} {w : Services} {files : FileTree} {r r' r₀ r₁ : Run}

/-! ## Libraries where tuning does not matter -/

namespace Setup

/-- The files that a scan comes to, once the tables are open. -/
def scan (s : Setup) (w : Services) (files : FileTree) : List Path :=
  ((Run.new s files).start s w).1.files.walk s.root

/-- A library where tuning does not matter: the names of files are text, and each song leads
    directly to a file of its own. -/
structure Tunable (s : Setup) (w : Services) (files : FileTree) : Prop where
  wellFormed : files.WellFormed
  listed : files.Listed
  music : s.musicDir.isAbsolute
  root : s.root.isAbsolute
  text : ∀ p ∈ s.scan w files, p.IsText
  leads : ∀ row ∈ s.rows files, files.Leads (resolve s.musicDir row.uri)
  there : ∀ row ∈ s.rows files, files.HasFile (s.place files row.uri)
  distinct : ((s.rows files).map fun row => s.place files row.uri).Nodup
  /-- Where records are copied and new songs added, there are ids for these. -/
  room : s.mode = .compact true →
    largestId (s.rows files) + (s.scan w files).length ≤ Int64.maxValue.toInt

end Setup

/-! ## Verdicts are known when a run has prepared -/

/-- Where no record is copied, it is enough that verdicts are known. -/
theorem foreseeable_of_uncopied (hcompact : ∀ checkNew, s.mode ≠ .compact checkNew)
    {isThere : Candidate → Bool} {record : Candidate → Option Song}
    {J : List Candidate → Books → Prop}
    (hF : Foreseen s w (fun c => s.verdict c (isThere c) (record c)) J) (candidates : List Candidate)
    (hJ : J candidates r₁.books) : r₁.Foreseeable s w := by
  refine ⟨_, J, candidates, hF, hJ, ?_⟩
  intro _ seen rest c song taken jobs _ hcopy _
  rw [Setup.copy_verdict hcompact] at hcopy
  cases hcopy

/-- A run that looks at files begins with those that a scan comes to. -/
theorem Run.Begun.books_files (h : Run.Begun s r₀ r₁) (horigin : s.mode.origin = .fileTree) :
    r₁.books = { r₀.books with source := some (.files (r₀.files.walk s.root)) } := by
  cases h with
  | files _ _ => rfl
  | table htable _ _ =>
    rw [horigin] at htable
    cases htable

/-- A run that looks at the songs of the table begins with the first of them. -/
theorem Run.Begun.books_table {order : SongTable.Order} (h : Run.Begun s r₀ r₁)
    (horigin : s.mode.origin = .table order) : ∃ primary, r₀.primary = some primary ∧ r₁.books =
      { r₀.books with source := some (.table (primary.table.visit order Run.pageSize)) } := by
  cases h with
  | files hfiles _ =>
    rw [horigin] at hfiles
    cases hfiles
  | table htable hprimary _ =>
    obtain rfl := Origin.table.inj (htable.symm.trans horigin)
    exact ⟨_, hprimary, rfl⟩

theorem rebuild_foreseeable (hmode : s.mode = .rebuild) (hready : r₀.books.Ready s files)
    (hbegun : Run.Begun s r₀ r₁) : r₁.Foreseeable s w := by
  obtain ⟨primary, hprimary, -⟩ := hready.primary
  refine foreseeable_of_uncopied (by simp [hmode]) (rebuild_foreseen hmode)
    ((r₀.files.walk s.root).map s.ofFile) ?_
  rw [hbegun.books_files (by rw [hmode]; rfl)]
  exact ⟨by rw [hprimary]; rfl, _, .of_source s r₀.books _⟩

/-- A run that adds new files begins with all that a scan comes to. -/
theorem checkNew_awaits {primary : OpenTable} (hmode : s.mode = .checkNew) (hlisted : files.Listed)
    (hready : r₀.books.Ready s files) (hprimary : r₀.primary = some primary)
    (hbegun : Run.Begun s r₀ r₁) :
    ∃ paths, Scans s ((r₀.files.walk s.root).map s.ofFile) r₁.books paths ∧
      Awaited s r₀.files primary.table r₁.books paths := by
  have hwf := hready.retabled.wellFormed
  have htarget : r₀.books.target = none := by
    have htarget := hready.target
    rwa [if_neg (by rw [hmode]; decide)] at htarget
  rw [hbegun.books_files (by rw [hmode]; rfl)]
  have hahead : Books.ahead { r₀.books with source := some (.files (r₀.files.walk s.root)) } =
      r₀.files.walk s.root := by
    simp [Books.ahead, Books.paths, hready.jobs]
  refine ⟨_, .of_source s r₀.books _, hwf, rfl, htarget, ⟨primary, hprimary, fun _ _ => rfl⟩, ?_,
    fun _ hp => hp, fun p hp => hahead ▸ hp, fun p hp => ?_, ?_⟩
  · simp [hready.jobs]
  · exact FileTree.file_of_mem_walk hwf (hready.retabled.listed hlisted) (hahead ▸ hp)
  · rw [hahead]
    exact FileTree.nodup_walk hwf (hready.retabled.listed hlisted) s.root

theorem checkNew_foreseeable (hmode : s.mode = .checkNew) (ht : s.Tunable w files)
    (hstart : (Run.new s files).start s w = (r₀, .ok ())) (hready : r₀.books.Ready s files)
    (hbegun : Run.Begun s r₀ r₁) : r₁.Foreseeable s w := by
  have htext : ∀ p ∈ r₀.files.walk s.root, p.IsText := by
    have htext := ht.text
    rwa [Setup.scan, hstart] at htext
  obtain ⟨primary, hprimary, -⟩ := hready.primary
  exact foreseeable_of_uncopied (by simp [hmode])
    (checkNew_foreseen hmode hready.retabled.wellFormed (hready.retabled.listed ht.listed) ht.music
      ht.root htext primary.table)
    ((r₀.files.walk s.root).map s.ofFile)
    (checkNew_awaits hmode ht.listed hready hprimary hbegun)

/-- Opening the tables leaves every file there, where no new table is written. -/
theorem Books.Ready.hasFile {b : Books} {l : Location} (h : b.Ready s files)
    (hd : s.mode.isDestructive = false) (hfile : files.HasFile l) : b.files.HasFile l := by
  by_cases hl : l ∈ s.places files
  · have hplace : l ∈ s.tablePlaces files := (Setup.mem_places.1 hl).resolve_right (by simp [hd])
    obtain ⟨table, htable⟩ := Option.isSome_iff_exists.1 (h.tables l hplace)
    exact ⟨_, FileTree.tableAt?_eq_some.1 htable⟩
  · exact (h.retabled.hasFile hl).2 hfile

theorem byId_foreseeable (horigin : s.mode.origin = .table .byId) (ht : s.Tunable w files)
    (hready : r₀.books.Ready s files) (hbegun : Run.Begun s r₀ r₁) : r₁.Foreseeable s w := by
  obtain ⟨hd, hmode, hcompact⟩ : s.mode.isDestructive = false ∧ s.mode ≠ .rebuild ∧
      ∀ checkNew, s.mode ≠ .compact checkNew := by
    generalize s.mode = mode at horigin
    cases mode with
    | compact checkNew => cases checkNew <;> cases horigin
    | rebuild => cases horigin
    | _ => simp [Mode.isDestructive]
  obtain ⟨primary, hprimary, hbooks⟩ := hbegun.books_table horigin
  obtain ⟨primary', hprimary', hrows, -⟩ := hready.primary
  obtain rfl := Option.some.inj (hprimary.symm.trans hprimary')
  have htarget : r₀.books.target = none := by
    have htarget := hready.target
    rwa [if_neg (by simp [hd])] at htarget
  -- The songs to come are those of some of the rows, in their order.
  obtain ⟨rows, hsub, hrest⟩ : ∃ rows : List Row, rows.Sublist (s.rows files) ∧
      (primary.table.visit .byId Run.pageSize).rest primary.table = rows.map Row.song :=
    ⟨_, hrows ▸ List.filter_sublist, SongTable.Visit.rest_visit _ _ _⟩
  refine foreseeable_of_uncopied hcompact (byId_foreseen hmode hcompact files)
    ((rows.map Row.song).map s.ofSong) ?_
  rw [hbooks]
  have hpending : Books.pending { r₀.books with
      source := some (.table (primary.table.visit .byId Run.pageSize)) } = [] := by
    simp [Books.pending, hready.jobs]
  refine ⟨_, rfl, hready.retabled.wellFormed, hready.retabled.workingDir, htarget, ?_,
    ⟨primary, hprimary, ?_⟩, by simp, ?_, ?_, ?_⟩
  · simp [hready.jobs]
  · rintro _ ⟨⟩
    refine ⟨_, rfl, rfl, Nat.lt_of_lt_of_le Nat.one_pos (Nat.le_max_right _ 1), hrest, ?_⟩
    rw [hpending, List.nil_append]
    simp [SongTable.visit]
  · rw [hpending, List.nil_append]
    intro song hsong
    obtain ⟨row, hrow, rfl⟩ := List.mem_map.1 hsong
    exact ht.leads row (hsub.subset hrow)
  · rw [hpending, List.nil_append]
    intro song hsong
    obtain ⟨row, hrow, rfl⟩ := List.mem_map.1 hsong
    exact hready.hasFile hd (ht.there row (hsub.subset hrow))
  · rw [hpending, List.nil_append, List.map_map]
    exact ht.distinct.sublist (hsub.map _)

/-- Some candidates of a run that copies records: files without records, and songs of the
    table, with ids for all of the former. -/
structure Copyable (s : Setup) (t : FileTree) (primary : OpenTable) (candidates : List Candidate)
    (b : Books) : Prop where
  unaltered : Unaltered s t primary candidates b
  files : ∀ c ∈ candidates, c.record = none → c = s.ofFile c.path
  records : ∀ c ∈ candidates, ∀ song ∈ c.record, ∃ row ∈ primary.table.rows, song = row.song
  room : primary.table.maxId.toInt + (candidates.filter fun c => c.record.isNone).length ≤
    Int64.maxValue.toInt

theorem copyable_files {primary : OpenTable} (hmode : s.mode = .compact true)
    (hprimary : r₀.primary = some primary) (htarget : r₀.target.isSome)
    (hroom : largestId primary.table.rows + (r₀.files.walk s.root).length ≤ Int64.maxValue.toInt)
    (hbegun : Run.Begun s r₀ r₁) :
    Copyable s r₀.files primary ((r₀.files.walk s.root).map s.ofFile) r₁.books := by
  rw [hbegun.books_files (by rw [hmode]; rfl)]
  refine ⟨⟨rfl, hprimary, htarget, .inl ⟨_, .of_source s r₀.books _⟩⟩, ?_, ?_, ?_⟩
  · intro c hc _
    obtain ⟨p, -, rfl⟩ := List.mem_map.1 hc
    rfl
  · intro c hc song hsong
    obtain ⟨p, -, rfl⟩ := List.mem_map.1 hc
    cases hsong
  · have hmax := primary.table.toInt_maxId_le
    have hlength := List.length_filter_le (fun c : Candidate => c.record.isNone)
      ((r₀.files.walk s.root).map s.ofFile)
    rw [List.length_map] at hlength
    omega

theorem copyable_songs {primary : OpenTable} (hmode : s.mode = .compact false)
    (hprimary : r₀.primary = some primary) (htarget : r₀.target.isSome)
    (hbegun : Run.Begun s r₀ r₁) :
    Copyable s r₀.files primary
      (((primary.table.visit .byLocation Run.pageSize).rest primary.table).map s.ofSong) r₁.books := by
  obtain ⟨primary', hprimary', hbooks⟩ := hbegun.books_table (by rw [hmode]; rfl)
  obtain rfl := Option.some.inj (hprimary.symm.trans hprimary')
  rw [hbooks]
  refine ⟨⟨rfl, hprimary, htarget, .inr ⟨_, rfl, by simp, ?_⟩⟩, ?_, ?_, ?_⟩
  · rintro _ ⟨⟩
    exact ⟨_, rfl, Nat.lt_of_lt_of_le Nat.one_pos (Nat.le_max_right _ 1), rfl⟩
  · intro c hc hnone
    obtain ⟨song, -, rfl⟩ := List.mem_map.1 hc
    cases hnone
  · intro c hc song hsong
    obtain ⟨song', hsong', rfl⟩ := List.mem_map.1 hc
    cases hsong
    rw [SongTable.Visit.rest_visit] at hsong'
    obtain ⟨row, hrow, rfl⟩ := List.mem_map.1 hsong'
    exact ⟨row, (primary.table.perm_ordered _).subset (List.mem_filter.1 hrow).1, rfl⟩
  · have hnone : (((primary.table.visit .byLocation Run.pageSize).rest primary.table).map
        s.ofSong).filter (fun c => c.record.isNone) = [] := by
      refine List.filter_eq_nil_iff.2 fun c hc => ?_
      obtain ⟨song, -, rfl⟩ := List.mem_map.1 hc
      simp [Setup.ofSong]
    rw [hnone]
    exact Int.le_trans (Int.le_of_eq (Int.add_zero _)) primary.table.maxId.toInt_le

theorem compact_foreseeable {checkNew : Bool} (hw : w.Steady) (hmode : s.mode = .compact checkNew)
    (ht : s.Tunable w files) (hstart : (Run.new s files).start s w = (r₀, .ok ()))
    (hready : r₀.books.Ready s files) (hbegun : Run.Begun s r₀ r₁) : r₁.Foreseeable s w := by
  obtain ⟨primary, hprimary, hrows, -⟩ := hready.primary
  have htarget : r₀.target.isSome := by
    have htarget := hready.target
    rw [if_pos (by rw [hmode]; rfl)] at htarget
    obtain ⟨target, hsome, -⟩ := htarget
    exact Option.isSome_iff_exists.2 ⟨target, hsome⟩
  have htarget₁ : r₁.target.isSome := hbegun.sameTables.target_isSome.trans htarget
  have hnext : r₁.nextId = some (primary.table.maxId + 1) := by
    obtain ⟨nextId, hnextId, hid⟩ : ∃ nextId, r₁.nextId = nextId ∧ Run.FirstId s r₀ nextId := by
      cases hbegun with
      | files _ hid => exact ⟨_, rfl, hid⟩
      | table _ _ hid => exact ⟨_, rfl, hid⟩
    obtain ⟨primary', hprimary', rfl⟩ := hid.resolve_left fun hno => hno.1 checkNew hmode
    rw [hnextId, Option.some.inj (hprimary'.symm.trans hprimary)]
  obtain ⟨candidates, hcopyable⟩ : ∃ candidates,
      Copyable s r₀.files primary candidates r₁.books := by
    cases checkNew with
    | true =>
      have hroom := ht.room hmode
      rw [Setup.scan, hstart, ← hrows] at hroom
      exact ⟨_, copyable_files hmode hprimary htarget hroom hbegun⟩
    | false => exact ⟨_, copyable_songs hmode hprimary htarget hbegun⟩
  exact ⟨_, _, candidates, unaltered_foreseen ⟨checkNew, hmode⟩ r₀.files primary,
    hcopyable.unaltered, fun queue => unaltered_swappable (r := r₁.requeue queue) hw ⟨checkNew, hmode⟩
      htarget₁ hnext hcopyable.files hcopyable.records hcopyable.room⟩

/-- **The verdicts on all candidates are known when a run has prepared.** -/
theorem foreseeable (hw : w.Steady) (ht : s.Tunable w files)
    (hstart : (Run.new s files).start s w = (r₀, .ok ())) (hprepare : r₀.prepare s w = (r₁, .ok ())) :
    r₁.Foreseeable s w := by
  have hready : r₀.books.Ready s files := Run.start_ready hw.toReliable ht.wellFormed rfl rfl hstart
  have hbegun := Run.prepare_begun (Run.start_unstopped hstart) hprepare
  cases hmode : s.mode with
  | rebuild => exact rebuild_foreseeable hmode hready hbegun
  | checkNew => exact checkNew_foreseeable hmode ht hstart hready hbegun
  | compact checkNew => exact compact_foreseeable hw hmode ht hstart hready hbegun
  | updateTags | updateItunes | writeTags | reorganize =>
    exact byId_foreseeable (by rw [hmode]; rfl) ht hready hbegun

/-- **Tuning does not change results**: runs that differ in how many candidates they take at a
    time and in how many jobs their queues may hold end with the same files, the same songs,
    aside from dates, and the same counters, but for the longest queue. -/
theorem tuning_changes_nothing {o o' : Option Failure} (hw : w.Steady) (ht : s.Tunable w files)
    (batch queueLimit : Nat) (h : Reachable s w files o r) (hphase : r.phase = .done)
    (hstop : r.stopped = false) (h' : Reachable { s with batch, queueLimit } w files o' r')
    (hphase' : r'.phase = .done) (hstop' : r'.stopped = false) :
    o' = o ∧ r'.files.undated = r.files.undated ∧
      (s.rows r'.files).map Row.undated = (s.rows r.files).map Row.undated ∧
      ∀ counter, counter ≠ .queueHighWater → r'.counters.get counter = r.counters.get counter := by
  obtain ⟨houtcome, hagrees⟩ := Run.concludes_alike hw (fun _ _ => foreseeable hw ht)
    (Run.concludes_of_reachable hw.toSound h hphase hstop)
    (Run.concludes_of_reachable hw.toSound h' hphase' hstop')
  refine ⟨houtcome, hagrees.files, ?_, hagrees.counts⟩
  have hlibrary : s.library r'.files = s.library r.files :=
    FileTree.destination_congr (congrArg FileTree.workingDir hagrees.files) _
  unfold Setup.rows
  split
  · rfl
  · rw [hlibrary, ← FileTree.rowsAt_undated, ← FileTree.rowsAt_undated, hagrees.files]

/-- The sample library, of which a part is scanned. -/
def partSetup (mode : Mode) : Setup :=
  { sampleSetup mode with scanDir := some (.ofString "/music/d") }

/-- A library of two songs, of which a scan finds one. -/
def twoSongs : FileTree where
  entries :=
    [([.ofString "music"], .directory),
      ([.ofString "music", .ofString "a.mp3"], .file (.text "a song")),
      ([.ofString "music", .ofString "d"], .directory),
      ([.ofString "music", .ofString "d", .ofString "b.mp3"], .file (.text "a song")),
      ([.ofString "songs.db"], .file (.songs ⟨[(titled "a.mp3").row 1,
        { titled "d/b.mp3" with tags := .ofList [(.title, "u")] }.row 2], by decide⟩))]

theorem twoSongs_tunable : (partSetup .reorganize).Tunable sampleServices twoSongs where
  wellFormed := .of_entries (by decide +kernel) (by decide +kernel)
  listed := by decide +kernel
  music := by decide +kernel
  root := by decide +kernel
  text := by decide +kernel
  leads := by decide +kernel
  there := by decide +kernel
  distinct := by decide +kernel
  room hmode := by cases hmode

/-- Two songs are moved to their titles, whether both are taken at once or one at a time. -/
theorem tuning_changes_nothing_twoSongs :
    ∃ r r' : Run, Reachable (partSetup .reorganize) sampleServices twoSongs none r ∧
      Reachable { partSetup .reorganize with batch := 1, queueLimit := 1 } sampleServices twoSongs
        none r' ∧
      r.history.moves.length = 2 ∧ r'.files.undated = r.files.undated ∧
      r'.counters.get .renamed = r.counters.get .renamed := by
  have h : Reachable (partSetup .reorganize) sampleServices twoSongs none
      (Run.steps (partSetup .reorganize) sampleServices 6 (.new (partSetup .reorganize) twoSongs)) :=
    Run.reachable_steps .new (by decide +kernel)
  have h' : Reachable { partSetup .reorganize with batch := 1, queueLimit := 1 } sampleServices
      twoSongs none (Run.steps { partSetup .reorganize with batch := 1, queueLimit := 1 }
        sampleServices 7 (.new { partSetup .reorganize with batch := 1, queueLimit := 1 } twoSongs)) :=
    Run.reachable_steps .new (by decide +kernel)
  obtain ⟨-, hfiles, -, hcounters⟩ := tuning_changes_nothing sampleServices_steady twoSongs_tunable 1 1
    h (by decide +kernel) (by decide +kernel) h' (by decide +kernel) (by decide +kernel)
  exact ⟨_, _, h, h', by decide +kernel, hfiles, hcounters .renamed (by decide)⟩

/-! ## Libraries where tuning matters -/

/-- Each song is at the key of a file, and no two are at the same. -/
structure Setup.Keyed (s : Setup) (w : Services) (files : FileTree) : Prop where
  wellFormed : files.WellFormed
  listed : files.Listed
  music : s.musicDir.isAbsolute
  root : s.root.isAbsolute
  text : ∀ p ∈ s.scan w files, p.IsText
  key : ∀ row ∈ s.rows files, .up ∉ (Path.ofString row.uri).names ∧
    (files.read (resolve s.musicDir row.uri)).isOk ∧
    row.uri = keyOf s.musicDir (resolve s.musicDir row.uri)
  distinct : (s.rows files).Pairwise (·.uri ≠ ·.uri)

/-- Runs that take so many candidates at a time and so many do not count the same. -/
def Setup.Differs (s : Setup) (files : FileTree) (n m : Nat) : Prop :=
  ∃ r r' : Run, Reachable { s with batch := n } sampleServices files none r ∧
    Reachable { s with batch := m } sampleServices files none r' ∧
    (r.phase = .done ∧ r.stopped = false) ∧ (r'.phase = .done ∧ r'.stopped = false) ∧
    ∃ counter, counter ≠ .queueHighWater ∧ r'.counters.get counter ≠ r.counters.get counter

/-- A library in `/lib`, which is reached through the directory of a song and back. -/
def returningSetup : Setup :=
  .of { library := { orgPath := "%TITLE%" } } .reorganize (.ofString "/lib/x/..")
    (.ofString "/songs.db") (some (.ofString "/lib/x")) .linux

def returningFiles : FileTree where
  entries :=
    [([.ofString "lib"], .directory),
      ([.ofString "lib", .ofString "x"], .directory),
      ([.ofString "lib", .ofString "x", .ofString "a.mp3"], .file (.text "a song")),
      ([.ofString "lib", .ofString "b.mp3"], .file (.text "a song")),
      ([.ofString "songs.db"], .file (.songs ⟨[(titled "x/a.mp3").row 1,
        { titled "b.mp3" with tags := .ofList [(.title, "u")] }.row 2], by decide⟩))]

/-- A library where two songs share a file. -/
def sharedFile : FileTree where
  entries :=
    [([.ofString "music"], .directory),
      ([.ofString "music", .ofString "d"], .directory),
      ([.ofString "music", .ofString "d", .ofString "a.mp3"], .file (.text "a song")),
      ([.ofString "songs.db"], .file (.songs
        ⟨[(titled "d/a.mp3").row 1, (titled "d//a.mp3").row 2], by decide⟩))]

/-- A library where no id is left after the last one. -/
def lastId : FileTree where
  entries :=
    [([.ofString "music"], .directory),
      ([.ofString "music", .ofString "c.mp3"], .file (.text "a song")),
      ([.ofString "music", .ofString "d"], .directory),
      ([.ofString "music", .ofString "d", .ofString "a.mp3"], .file (.text "a song")),
      ([.ofString "music", .ofString "d", .ofString "b.mp3"], .file (.text "a song")),
      ([.ofString "songs.db"], .file (.songs ⟨[(titled "d/b.mp3").row Int64.minValue,
        (titled "c.mp3").row Int64.maxValue], by decide⟩))]

namespace lastId

/-- The run on this library when its tables are open. -/
def opened : Run :=
  ((Run.new (partSetup (.compact true)) lastId).start (partSetup (.compact true)) sampleServices).1

/-- The files that are scanned. -/
def paths : List Path :=
  [.ofString "/music/d/a.mp3", .ofString "/music/d/b.mp3"]

theorem walk_opened : opened.files.walk (.ofString "/music/d") = paths := by
  have hbelow : (opened.files.entries.filter FileTree.isFile).filterMap
      (FileTree.namesBelow? [.ofString "music", .ofString "d"]) =
      [[.ofString "a.mp3"], [.ofString "b.mp3"]] := by decide +kernel
  rw [FileTree.walk_of_pairwise (by decide +kernel) hbelow (by decide +kernel)]
  decide +kernel

/-- The run when it has prepared. -/
def prepared : Run :=
  { opened with
    source := some (.files paths), total := paths.length
    nextId := opened.primary.map (·.table.maxId + 1), moment := opened.moment + 1
    sent := opened.sent ++ [.progress 0], phase := .gather }

theorem prepare_opened (n : Nat) : opened.prepare { partSetup (.compact true) with batch := n }
    sampleServices = (prepared, .ok ()) := by
  obtain ⟨primary, hprimary⟩ := Option.isSome_iff_exists.1
    (show opened.primary.isSome by decide +kernel)
  have hnext : opened.primary.map (·.table.maxId + 1) = some (primary.table.maxId + 1) := by
    rw [hprimary]
    rfl
  have hchoose : opened.chooseNextId { partSetup (.compact true) with batch := n } sampleServices =
      ({ opened.asked with nextId := opened.primary.map (·.table.maxId + 1) }, .ok ()) := by
    rw [hnext]
    simp [Run.chooseNextId, partSetup, sampleSetup, Setup.of, sampleServices_sound.tableFails, hprimary]
  have hstop : opened.asked.stopped = false := by decide +kernel
  unfold Run.prepare
  rw [hchoose]
  simp only [Run.openSource, hstop, Bool.false_eq_true, if_false]
  change (({ opened.asked with
    source := some (.files (opened.files.walk (.ofString "/music/d")))
    nextId := opened.primary.map (·.table.maxId + 1)
    total := (opened.files.walk (.ofString "/music/d")).length, sent := opened.sent ++ [.progress 0]
    phase := .gather } : Run), Except.ok ()) = _
  rw [walk_opened]
  rfl

theorem reachable_prepared (n : Nat) :
    Reachable { partSetup (.compact true) with batch := n } sampleServices lastId none prepared := by
  have hstart : (Run.new { partSetup (.compact true) with batch := n } lastId).start
      { partSetup (.compact true) with batch := n } sampleServices = (opened, .ok ()) :=
    Prod.ext rfl (show ((Run.new (partSetup (.compact true)) lastId).start (partSetup (.compact true))
      sampleServices).2 = .ok () by decide +kernel)
  have hgoes : ∀ {r r' : Run}, r.act { partSetup (.compact true) with batch := n } sampleServices =
      (r', .ok ()) → r'.phase ≠ .done →
      r.step { partSetup (.compact true) with batch := n } sampleServices = (r', .ok .continue) := by
    intro r r' hact hphase
    rw [Run.step, hact]
    simp [Run.progress, hphase]
  have hphase : opened.phase = .prepare := Run.start_phase hstart
  refine .step (.step .new (hgoes hstart (by simp [hphase]))) (hgoes ?_ (by simp [prepared]))
  rw [Run.act, hphase]
  exact prepare_opened n

end lastId

theorem lastId_differs : (partSetup (.compact true)).Differs lastId 1 2 := by
  exact ⟨_, _, Run.reachable_steps (n := 6) (lastId.reachable_prepared 1) (by decide +kernel),
      Run.reachable_steps (n := 6) (lastId.reachable_prepared 2) (by decide +kernel),
      by decide +kernel, by decide +kernel, .new, by decide, by decide +kernel⟩

theorem lastId_keyed : (partSetup (.compact true)).Keyed sampleServices lastId where
  wellFormed := .of_entries (by decide +kernel) (by decide +kernel)
  listed := by decide +kernel
  music := by decide +kernel
  root := by decide +kernel
  text := by
    rw [show (partSetup (.compact true)).scan sampleServices lastId = lastId.paths from
      lastId.walk_opened]
    decide +kernel
  key := by decide +kernel
  distinct := by decide +kernel

theorem returning_keyed : returningSetup.Keyed sampleServices returningFiles where
  wellFormed := .of_entries (by decide +kernel) (by decide +kernel)
  listed := by decide +kernel
  music := by decide +kernel
  root := by decide +kernel
  text := by decide +kernel
  key := by decide +kernel
  distinct := by decide +kernel

theorem sharedFile_keyed : (sampleSetup .reorganize).Keyed sampleServices sharedFile where
  wellFormed := .of_entries (by decide +kernel) (by decide +kernel)
  listed := by decide +kernel
  music := by decide +kernel
  root := by decide +kernel
  text := by decide +kernel
  key := by decide +kernel
  distinct := by decide +kernel

/-- **Tuning may decide what a run comes to**: where the way to the files of other songs goes
    through a directory that a song leaves empty; where two songs have one file; and where a
    song is given an id that another one has, for want of greater ones. -/
theorem tuning_decides :
    (returningSetup.Keyed sampleServices returningFiles ∧
      returningSetup.Differs returningFiles 1 2) ∧
    ((sampleSetup .reorganize).Keyed sampleServices sharedFile ∧
      (sampleSetup .reorganize).Differs sharedFile 1 2) ∧
    ((partSetup (.compact true)).Keyed sampleServices lastId ∧
      (partSetup (.compact true)).Differs lastId 1 2) := by
  refine ⟨⟨returning_keyed, ?_⟩, ⟨sharedFile_keyed, ?_⟩, ⟨lastId_keyed, lastId_differs⟩⟩
  · exact ⟨_, _, Run.reachable_steps (n := 7) .new (by decide +kernel),
      Run.reachable_steps (n := 6) .new (by decide +kernel), by decide +kernel, by decide +kernel,
      .renamed, by decide, by decide +kernel⟩
  · exact ⟨_, _, Run.reachable_steps (n := 7) .new (by decide +kernel),
      Run.reachable_steps (n := 6) .new (by decide +kernel), by decide +kernel, by decide +kernel,
      .missing, by decide, by decide +kernel⟩

end SongLibrary.Reconcile
