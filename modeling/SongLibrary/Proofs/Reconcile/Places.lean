/-
  Where the records of a run point.

  * `Setup.Orderly` says what a library is before a run: the location of every
    record is the key of a file, and keys lead back to files;
  * `Backed` says that a record points to a file;
  * `Kept` is what every run keeps: the tables, and every file but those that are
    moved;
  * a record follows its file, where that is moved to a path that leads directly to
    it (`Kept.moves`).
-/
import SongLibrary.Proofs.Reconcile.Course
import SongLibrary.Proofs.SongTable.Rows

namespace SongLibrary.Reconcile

/-! ## Libraries in order -/

namespace Setup

variable (s : Setup) (files : FileTree)

/-- Where the file of a song is. -/
def place (uri : String) : Location :=
  files.destination (resolve s.musicDir uri)

/-- The files that a run may find. -/
def scanned : List Path :=
  files.walk s.musicDir ++ files.walk s.root

/-- A library in order: its songs are at the keys of files that a scan finds, each
    at its own. -/
structure Orderly : Prop where
  wellFormed : files.WellFormed
  listed : files.Listed
  found : ∀ row ∈ s.rows files, ∃ p ∈ s.scanned files, row.uri = keyOf s.musicDir p
  distinct : (s.rows files).Pairwise (·.uri ≠ ·.uri)
  /-- The key of a file leads back to it. -/
  leads : ∀ p ∈ s.scanned files, files.Leads (resolve s.musicDir (keyOf s.musicDir p)) ∧
    s.place files (keyOf s.musicDir p) = files.destination p
  /-- A file has one key. -/
  same : ∀ p ∈ s.scanned files, ∀ q ∈ s.scanned files,
    files.destination p = files.destination q → keyOf s.musicDir p = keyOf s.musicDir q
  /-- No song is where the files of tables come and go. -/
  apart : ∀ row ∈ s.rows files, s.place files row.uri ∉ s.places files
  /-- No earlier run has left rows where the new table is written. -/
  leftover : s.mode.isDestructive → s.leftover files = []

end Setup

/-- The file at a location has been moved away, and none has come there since:
    moves are given by their paths, the last first. -/
def Vacated (files : FileTree) (l : Location) : List (Path × Path) → Prop
  | [] => False
  | (source, place) :: moves => files.destination place ≠ l ∧
      (files.destination source = l ∨ Vacated files l moves)

/-- The location of a song leads to a file that is not that of a table. -/
structure Backed (s : Setup) (files t : FileTree) (uri : String) : Prop where
  leads : files.Leads (resolve s.musicDir uri)
  file : t.HasFile (s.place files uri)
  apart : s.place files uri ∉ s.tablePlaces files

/-- A path that a scan may come to. -/
def Sought (s : Setup) (files : FileTree) (p : Path) : Prop :=
  p ∈ s.scanned files ∨ files.destination p ∈ s.tablePlaces files

/-- What every run keeps once its tables are open. -/
structure Kept (s : Setup) (files : FileTree) (b : Books) : Prop where
  wellFormed : b.files.WellFormed
  workingDir : b.files.workingDir = files.workingDir
  tables : ∀ l ∈ s.tablePlaces files, (b.files.tableAt? l).isSome
  primary : b.primary.map (·.location) =
    some (if FileTree.isFileless s.databasePath then none else some (s.library files))
  target : b.target.map (fun target => (target.path, target.location)) =
    if s.mode.isDestructive then some (s.newDatabasePath, some (s.draft files)) else none
  present : ∀ m ∉ s.places files, files.HasFile m →
    (b.files.HasFile m ↔ ¬ Vacated files m b.moves)
  spared : ∀ l ∈ s.tablePlaces files, ∀ move ∈ b.moves, files.destination move.2 ≠ l

variable {s : Setup} {w : Services} {files : FileTree} {b b' : Books}

namespace Kept

/-- Tables may change, and jobs and candidates come and go. -/
theorem congr (h : Kept s files b) (hfiles : b'.files = b.files) (hmoves : b'.moves = b.moves)
    (hprimary : b'.primary.map (·.location) = b.primary.map (·.location))
    (htarget : b'.target.map (fun target => (target.path, target.location)) =
      b.target.map (fun target => (target.path, target.location))) : Kept s files b' := by
  refine ⟨?_, ?_, ?_, hprimary.trans h.primary, htarget.trans h.target, ?_, ?_⟩
  · exact hfiles ▸ h.wellFormed
  · exact hfiles ▸ h.workingDir
  · exact hfiles ▸ h.tables
  · rw [hfiles, hmoves]
    exact h.present
  · rw [hmoves]
    exact h.spared

theorem of_ready (h : b.Ready s files) : Kept s files b := by
  obtain ⟨primary, hprimary, -, hlocation⟩ := h.primary
  refine ⟨h.retabled.wellFormed, h.retabled.workingDir, h.tables, ?_, ?_, ?_, ?_⟩
  · rw [hprimary, Option.map_some, hlocation]
  · have htarget := h.target
    split at htarget
    · next hd =>
      obtain ⟨target, hsome, hpath, hplace, -⟩ := htarget
      simp [hsome, hpath, hplace, hd]
    · next hd => simp [htarget, hd]
  · intro m hm hfile
    rw [h.retabled.hasFile hm, h.moves]
    exact iff_of_true hfile id
  · simp [h.moves]

theorem stores {song : Song} (h : Kept s files b) (hs : Books.Stores b song b') :
    Kept s files b' := by
  cases hs with
  | refused _ => exact h
  | added _ hsome _ => exact h.congr rfl rfl rfl (by simp [hsome])
  | saved _ hsome _ => exact h.congr rfl rfl (by simp [hsome]) rfl

theorem settles {c : Candidate} (h : Kept s files b) (hs : Books.Settles s b c b') :
    Kept s files b' := by
  cases hs with
  | idle => exact h
  | copied _ _ hsome _ => exact h.congr rfl rfl rfl (by simp [hsome])
  | queuedNew _ _ => exact h.congr rfl rfl rfl rfl
  | queuedOld _ _ _ => exact h.congr rfl rfl rfl rfl

/-- A file whose tags are read is not that of a table. -/
theorem not_tablePlace {path : Path} {content : Content} {l : Location} {n : Nat} {tags : ParsedTags}
    (h : Kept s files b) (hw : w.Reliable) (hfind : b.files.find path = .ok (l, .file content))
    (htags : w.readTags n path content = .ok tags) : l ∉ s.tablePlaces files := by
  intro hl
  obtain ⟨table, htable⟩ := Option.isSome_iff_exists.1 (h.tables l hl)
  obtain ⟨-, -, -, -, hget⟩ := FileTree.find_file_iff.1 hfind
  rw [FileTree.tableAt?_eq_some, hget] at htable
  cases htable
  exact hw.readTags _ _ _ _ htags

theorem destination_of_find {path : Path} {l : Location} {e : Entry} (h : Kept s files b)
    (hfind : b.files.find path = .ok (l, e)) : l = files.destination path :=
  (FileTree.route_of_find hfind).2.trans (FileTree.destination_congr h.workingDir path)

/-- A file whose tags are read backs its key. -/
theorem backed_key {path : Path} {content : Content} {n : Nat} {tags : ParsedTags}
    (h : Kept s files b) (hw : w.Reliable) (ho : s.Orderly files) (hp : Sought s files path)
    (hread : b.files.read path = .ok content) (htags : w.readTags n path content = .ok tags) :
    Backed s files b.files (keyOf s.musicDir path) ∧
      s.place files (keyOf s.musicDir path) = files.destination path := by
  obtain ⟨l, hfind⟩ := FileTree.read_eq_ok_iff.1 hread
  obtain ⟨-, -, -, -, hget⟩ := FileTree.find_file_iff.1 hfind
  have hapart := h.not_tablePlace hw hfind htags
  rw [h.destination_of_find hfind] at hapart hget
  obtain ⟨hleads, hplace⟩ := ho.leads path (hp.resolve_right hapart)
  refine ⟨⟨hleads, ?_, ?_⟩, hplace⟩
  · rw [hplace]
    exact ⟨content, hget⟩
  · rw [hplace]
    exact hapart

/-- A file may be written again. -/
theorem written {path : Path} {before content : Content} {t : FileTree} {n : Nat}
    {tags : ParsedTags} (h : Kept s files b) (hw : w.Reliable)
    (hread : b.files.read path = .ok before) (htags : w.readTags n path before = .ok tags)
    (hwrite : b.files.write path content = .ok t) :
    Kept s files { b with files := t } ∧ ∀ m, t.HasFile m ↔ b.files.HasFile m := by
  obtain ⟨l, hfind⟩ := FileTree.read_eq_ok_iff.1 hread
  obtain ⟨-, -, -, -, hget⟩ := FileTree.find_file_iff.1 hfind
  have hapart := h.not_tablePlace hw hfind htags
  obtain ⟨k, hlands, rfl⟩ := FileTree.write_eq_ok_iff.1 hwrite
  obtain rfl := hlands.unique (.of_find hfind)
  have hne := hlands.ne_nil
  have hsame : ∀ m, (b.files.put k (.file content)).HasFile m ↔ b.files.HasFile m := by
    intro m
    rw [FileTree.HasFile, FileTree.HasFile, FileTree.get?_put _ hne]
    by_cases hm : m = k
    · simp [hm, hget]
    · simp [hm]
  refine ⟨⟨h.wellFormed.rewrite_file hget, h.workingDir, ?_, h.primary, h.target,
    ?_, h.spared⟩, hsame⟩
  · intro l hl
    have hlk : l ≠ k := by
      rintro rfl
      exact hapart hl
    rw [FileTree.tableAt?_put_ne hne _ hlk]
    exact h.tables l hl
  · intro m hm hfile
    exact (hsame m).trans (h.present m hm hfile)

end Kept

/-! ## Moves -/

theorem Mode.rebuild_or_checkNew {mode : Mode} (h : mode.allowsMoves) :
    mode = .rebuild ∨ mode = .checkNew := by
  cases mode <;> first | exact .inl rfl | exact .inr rfl | cases h

/-- The file at a location has moved to another where no file was, or stayed. -/
structure Shifted (s : Setup) (files : FileTree) (b b' : Books) (l k : Location) : Prop where
  hasFile : ∀ m, b'.files.HasFile m ↔ m = k ∨ m ≠ l ∧ b.files.HasFile m
  free : b.files.HasFile k → k = l
  apart : k ∉ s.tablePlaces files
  primary : b'.primary = b.primary
  target : b'.target = b.target
  jobs : b'.jobs = b.jobs
  source : b'.source = b.source

theorem Shifted.refl {l : Location} (h : b.files.HasFile l) (hl : l ∉ s.tablePlaces files) :
    Shifted s files b b l l :=
  ⟨h.iff, fun _ => rfl, hl, rfl, rfl, rfl, rfl⟩

theorem Shifted.hasFile_of_ne {l k m : Location} (h : Shifted s files b b' l k)
    (hm : b.files.HasFile m) (hne : m ≠ l) : b'.files.HasFile m :=
  (h.hasFile m).2 (.inr ⟨hne, hm⟩)

/-- A record points to its file as before, if that has not moved. -/
theorem Shifted.backed {l k : Location} {uri : String} (h : Shifted s files b b' l k)
    (hb : Backed s files b.files uri) (hne : s.place files uri ≠ l) :
    Backed s files b'.files uri :=
  ⟨hb.leads, h.hasFile_of_ne hb.file hne, hb.apart⟩

/-- The place where a file has moved is that of no other file. -/
theorem Shifted.place_ne {l k m : Location} (h : Shifted s files b b' l k) (hm : b.files.HasFile m)
    (hne : m ≠ l) : m ≠ k := by
  rintro rfl
  exact hne (h.free hm)

/-- What a song and its file come to: it stays, or its record points to the new
    place. -/
inductive Followed (s : Setup) (files : FileTree) (song : Song) (l k : Location) : Song → Prop where
  | stays (h : k = l) : Followed s files song l k song
  | moved (relative : String) (hne : relative ≠ song.uri) (h : k = s.place files relative)
      (hleads : files.Leads (resolve s.musicDir relative)) :
      Followed s files song l k { song with uri := relative }

/-- The record points to where the file is now, if it pointed to the file. -/
theorem Followed.place_eq {song song' : Song} {l k : Location} (h : Followed s files song l k song')
    (hl : s.place files song.uri = l) : k = s.place files song'.uri := by
  cases h with
  | stays hk => exact hk.trans hl.symm
  | moved _ _ hk _ => exact hk

theorem Followed.leads {song song' : Song} {l k : Location} (h : Followed s files song l k song')
    (hsong : files.Leads (resolve s.musicDir song.uri)) :
    files.Leads (resolve s.musicDir song'.uri) := by
  cases h with
  | stays _ => exact hsong
  | moved _ _ _ hleads => exact hleads

/-- A move that fails adds directories at most. -/
theorem Kept.unmoved {t : FileTree} {path : Path} {relative : String} {failure : Failure}
    (h : Kept s files b) (hmove : organizeFile b.files path s.musicDir relative = (t, .error failure)) :
    Kept s files { b with files := t } := by
  obtain ⟨hadds, hwf⟩ := organizeFile_error_adds hmove
  refine ⟨hwf h.wellFormed, hadds.workingDir.trans h.workingDir, ?_, h.primary, h.target, ?_, h.spared⟩
  · intro l hl
    obtain ⟨table, htable⟩ := Option.isSome_iff_exists.1 (h.tables l hl)
    exact Option.isSome_iff_exists.2
      ⟨table, FileTree.tableAt?_eq_some.2 (hadds.some (FileTree.tableAt?_eq_some.1 htable))⟩
  · intro m hm hbefore
    rw [hadds.hasFile]
    exact h.present m hm hbefore

/-- A file moves to a place that the record has from then on. -/
theorem Kept.moved {t : FileTree} {path place : Path} {relative : String} {l : Location} {c : Content}
    (h : Kept s files b) (hfind : b.files.find path = .ok (l, .file c))
    (hl : l ∉ s.tablePlaces files)
    (hmove : organizeFile b.files path s.musicDir relative = (t, .ok place))
    (hleads : files.Leads place) :
    Kept s files { b with files := t, moves := (path, place) :: b.moves } ∧
      Shifted s files b { b with files := t, moves := (path, place) :: b.moves } l
        (files.destination place) := by
  have hdest : ∀ p, b.files.destination p = files.destination p :=
    FileTree.destination_congr h.workingDir
  obtain ⟨hwf, hdir, helse⟩ := organizeFile_elsewhere hfind h.wellFormed hmove
  obtain ⟨-, hfree, hhas⟩ := organizeFile_ok hfind h.wellFormed hmove
    ((FileTree.leads_congr h.workingDir).2 hleads)
  rw [hdest] at hfree hhas
  -- No table is at the place: no other file is there, and the one that moves is no table.
  have hapart : files.destination place ∉ s.tablePlaces files := by
    intro hmem
    obtain ⟨table, htable⟩ := Option.isSome_iff_exists.1 (h.tables _ hmem)
    rw [hfree ⟨_, FileTree.tableAt?_eq_some.1 htable⟩] at hmem
    exact hl hmem
  refine ⟨⟨hwf, hdir.trans h.workingDir, ?_, h.primary, h.target, ?_, ?_⟩,
    ⟨hhas, hfree, hapart, rfl, rfl, rfl, rfl⟩⟩
  · intro m hm
    have hml : m ≠ l := by
      rintro rfl
      exact hl hm
    have hmk : (Except.ok place : Except Failure Path).toOption.map b.files.destination ≠ some m := by
      simp only [Except.toOption, Option.map_some, hdest, ne_eq, Option.some.injEq]
      rintro rfl
      exact hapart hm
    rw [FileTree.tableAt?_of_iff fun d => helse m d hml hmk]
    exact h.tables m hm
  · intro m hm hfile
    rw [hhas, h.present m hm hfile, Vacated, h.destination_of_find hfind]
    by_cases hmk : m = files.destination place
    · simp [hmk]
    · simp [hmk, Ne.symm hmk, eq_comm]
  · intro m hm move hmove
    rcases List.mem_cons.1 hmove with rfl | hmove
    · rintro rfl
      exact hapart hm
    · exact h.spared m hm move hmove

/-- **A record follows its file.** -/
theorem Kept.moves {song song' : Song} {path : Path} {l : Location} {c : Content}
    (h : Kept s files b) (hfind : b.files.find path = .ok (l, .file c))
    (hl : l ∉ s.tablePlaces files) (hm : Books.Moves s b song path (song', b'))
    (hd : b'.Direct files) :
    Kept s files b' ∧ ∃ k, Shifted s files b b' l k ∧ Followed s files song l k song' := by
  obtain ⟨-, -, -, -, hget⟩ := FileTree.find_file_iff.1 hfind
  cases hm with
  | stays => exact ⟨h, l, .refl ⟨c, hget⟩ hl, .stays rfl⟩
  | @failed t relative failure hmove =>
    have hsame := (organizeFile_error_adds hmove).1.hasFile
    exact ⟨h.unmoved hmove, l,
      ⟨fun m => (hsame m).trans (FileTree.HasFile.iff ⟨c, hget⟩ m), fun _ => rfl, hl, rfl, rfl, rfl, rfl⟩,
      .stays rfl⟩
  | @moved t relative place hne hmove =>
    have hleads : files.Leads place := hd (path, place) (by simp)
    obtain ⟨hkept, hshifted⟩ := h.moved hfind hl hmove hleads
    obtain rfl := organizeFile_place hmove
    exact ⟨hkept, _, hshifted, .moved relative hne rfl hleads⟩

/-- Where a file may be moved or not, its record is where the file is. -/
theorem Kept.moves_or_stays {song song' : Song} {path : Path} {l : Location} {c : Content} {P : Prop}
    (h : Kept s files b) (hfind : b.files.find path = .ok (l, .file c))
    (hl : l ∉ s.tablePlaces files)
    (hm : P ∧ Books.Moves s b song path (song', b') ∨ song' = song ∧ b' = b) (hd : b'.Direct files) :
    Kept s files b' ∧ ∃ k, Shifted s files b b' l k ∧ Followed s files song l k song' := by
  rcases hm with ⟨-, hmoves⟩ | ⟨rfl, rfl⟩
  · exact h.moves hfind hl hmoves hd
  · obtain ⟨-, -, -, -, hget⟩ := FileTree.find_file_iff.1 hfind
    exact ⟨h, l, .refl ⟨c, hget⟩ hl, .stays rfl⟩

/-! ## The beginning -/

theorem Setup.Orderly.hasFile {p : Path} (ho : s.Orderly files) (hp : p ∈ s.scanned files) :
    files.HasFile (files.destination p) := by
  rcases List.mem_append.1 hp with hp | hp
  · exact FileTree.file_of_mem_walk ho.wellFormed ho.listed hp
  · exact FileTree.file_of_mem_walk ho.wellFormed ho.listed hp

/-- The songs that a library had are where their records say. -/
theorem Books.Ready.backed {row : Row} (h : b.Ready s files) (ho : s.Orderly files)
    (hrow : row ∈ s.rows files) : Backed s files b.files row.uri := by
  obtain ⟨p, hp, huri⟩ := ho.found row hrow
  obtain ⟨hleads, hplace⟩ := ho.leads p hp
  have hapart := ho.apart row hrow
  refine ⟨huri ▸ hleads, ?_, fun hmem => hapart (Setup.mem_places.2 (.inl hmem))⟩
  rw [h.retabled.hasFile hapart, huri, hplace]
  exact ho.hasFile hp

/-- A scan comes to files that it would have come to before the tables were opened,
    and to those of tables. -/
theorem Books.Ready.sought {p : Path} (h : b.Ready s files) (hlisted : files.Listed)
    (hp : p ∈ b.files.walk s.root) :
    Sought s files p ∧ b.files.HasFile (files.destination p) := by
  have hwf := h.retabled.wellFormed
  have hlisted' := h.retabled.listed hlisted
  have hw := h.retabled.workingDir
  obtain ⟨c, hget⟩ := FileTree.file_of_mem_walk hwf hlisted' hp
  rw [FileTree.destination_congr hw] at hget
  refine ⟨?_, c, hget⟩
  rcases h.retabled.file _ _ hget with hnew | hold
  · exact .inr hnew
  · have hmem : p ∈ files.walk s.root :=
      FileTree.mem_walk_of hwf hlisted' hw h.retabled.directory hp hold
    exact .inl (List.mem_append.2 (.inr hmem))

theorem Books.Ready.nodup_walk (h : b.Ready s files) (hlisted : files.Listed) :
    ((b.files.walk s.root).map files.destination).Nodup := by
  have hnodup := FileTree.nodup_walk h.retabled.wellFormed (h.retabled.listed hlisted) s.root
  have hsame : b.files.destination = files.destination := by
    funext p
    exact FileTree.destination_congr h.retabled.workingDir p
  rwa [hsame] at hnodup

/-- A new table is empty at first, if no earlier run has left rows there. -/
theorem Books.Ready.target_rows {t : OpenTable} (h : b.Ready s files)
    (hleft : s.mode.isDestructive → s.leftover files = []) (ht : b.target = some t) :
    t.table.rows = [] := by
  have htarget := h.target
  split at htarget
  · next hd =>
    obtain ⟨target, hsome, -, -, hrows⟩ := htarget
    obtain rfl := Option.some.inj (hsome.symm.trans ht)
    exact hrows.trans (hleft hd)
  · rw [htarget] at ht
    cases ht

/-! ## What is written, and what is to come -/

/-- A song is stored in the new table, or else in that of the library, and there under
    its own id if it has one: other rows were there before. -/
theorem Books.Stores.table_cases {song : Song} (h : Books.Stores b song b') :
    b' = b ∨ ∃ (t t' : OpenTable) (id : Int64),
      (∀ row ∈ t'.table.rows, (row.id = id ∧ row.uri = song.uri) ∨ row ∈ t.table.rows) ∧
      (b.target = some t ∧ b' = { b with target := some t' } ∨
        b.target = none ∧ b.primary = some t ∧ b' = { b with primary := some t' } ∧
          ∀ given, song.id = some given → given = id) := by
  cases h with
  | refused _ => exact .inl rfl
  | @added target table id given hsome hinsert =>
    refine .inr ⟨target, _, id, ?_, .inl ⟨hsome, rfl⟩⟩
    intro row hrow
    rcases List.mem_cons.1 ((SongTable.perm_of_insert? hinsert).subset hrow) with rfl | hold
    · exact .inl ⟨rfl, rfl⟩
    · exact .inr hold
  | @saved primary table how hnone hsome hsave =>
    obtain ⟨id, hid, hrows⟩ := SongTable.mem_of_save? hsave
    exact .inr ⟨primary, _, id, hrows, .inr ⟨hnone, hsome, rfl, hid⟩⟩

theorem Books.Stores.keeps {song : Song} (h : Books.Stores b song b') :
    b'.files = b.files ∧ b'.jobs = b.jobs ∧ b'.source = b.source := by
  cases h <;> exact ⟨rfl, rfl, rfl⟩

/-- The table that a run writes. -/
def Books.live (b : Books) : Option OpenTable :=
  b.target.or b.primary

/-- The table that a run writes has the records that there were, if it is not a new one. -/
theorem Books.Ready.mem_live {t : OpenTable} {row : Row} (h : b.Ready s files)
    (hleft : s.mode.isDestructive → s.leftover files = []) (ht : t ∈ b.live)
    (hrow : row ∈ t.table.rows) : row ∈ s.rows files ∧ ¬ s.mode.isDestructive := by
  rcases Option.or_eq_some_iff.1 ht with htarget | ⟨hnone, hprimary⟩
  · rw [h.target_rows hleft htarget] at hrow
    cases hrow
  · obtain ⟨primary, hsome, hrows, -⟩ := h.primary
    obtain rfl := Option.some.inj (hsome.symm.trans hprimary)
    exact ⟨hrows ▸ hrow, fun hd => by simpa [hd, hnone] using h.target⟩

theorem Books.Stores.mem_live {song : Song} {t : OpenTable} {row : Row}
    (h : Books.Stores b song b') (ht : t ∈ b'.live) (hrow : row ∈ t.table.rows) :
    row.uri = song.uri ∨ ∃ t₀ ∈ b.live, row ∈ t₀.table.rows := by
  rcases h.table_cases with rfl | ⟨old, new, _, hrows, ⟨hsome, rfl⟩ | ⟨hnone, hsome, rfl, -⟩⟩
  · exact .inr ⟨t, ht, hrow⟩
  · obtain rfl : new = t := by simpa [Books.live] using ht
    exact (hrows row hrow).imp And.right fun hold => ⟨old, by simp [Books.live, hsome], hold⟩
  · obtain rfl : new = t := by simpa [Books.live, hnone] using ht
    exact (hrows row hrow).imp And.right fun hold => ⟨old, by simp [Books.live, hnone, hsome], hold⟩

/-- The paths that a run still has to look at. -/
def Books.paths (b : Books) : List Path :=
  match b.source with
  | some (.files paths) => paths
  | _ => []

/-- The paths of the files to come. -/
def Books.ahead (b : Books) : List Path :=
  b.jobs.map Job.path ++ b.paths

/-- A file that is looked at is one of those to come until there is a job for it, or none
    is needed. -/
theorem Books.ahead_files {path : Path} {paths : List Path}
    (h : b.source = some (.files (path :: paths))) :
    (Books.ahead { b with source := some (.files paths) }).Sublist b.ahead ∧
      ∀ key relative existing, Books.ahead { b with
        source := some (.files paths), jobs := b.jobs ++ [⟨path, key, relative, existing⟩] } =
          b.ahead := by
  have hpaths : b.paths = path :: paths := by simp [Books.paths, h]
  rw [Books.ahead, Books.ahead, hpaths]
  refine ⟨(List.sublist_cons_self path paths).append_left _, fun key relative existing => ?_⟩
  simp [Books.ahead, Books.paths]

/-- The file of the next job is the first of those to come. -/
theorem Books.ahead_jobs {job : Job} {jobs : List Job} (h : b.jobs = job :: jobs) :
    b.ahead = job.path :: Books.ahead { b with jobs } := by
  simp [Books.ahead, h, Books.paths]

/-- The other files to come are elsewhere. -/
theorem Books.nodup_ahead_jobs {job : Job} {jobs : List Job} (h : b.jobs = job :: jobs)
    (hdistinct : (b.ahead.map files.destination).Nodup) :
    ((Books.ahead { b with jobs }).map files.destination).Nodup ∧
      ∀ p ∈ Books.ahead { b with jobs }, files.destination p ≠ files.destination job.path := by
  rw [ahead_jobs h, List.map_cons, List.nodup_cons] at hdistinct
  exact ⟨hdistinct.2, fun p hp heq => hdistinct.1 (heq ▸ List.mem_map_of_mem hp)⟩

theorem Books.Stores.ahead {song : Song} (h : Books.Stores b song b') : b'.ahead = b.ahead := by
  cases h <;> rfl

theorem Shifted.ahead {l k : Location} (h : Shifted s files b b' l k) : b'.ahead = b.ahead := by
  rw [Books.ahead, Books.ahead, Books.paths, Books.paths, h.jobs, h.source]

theorem Shifted.live {l k : Location} (h : Shifted s files b b' l k) : b'.live = b.live := by
  rw [Books.live, Books.live, h.target, h.primary]

/-- The songs of the page at hand. -/
def Books.page (b : Books) : List Song :=
  match b.source with
  | some (.table visit) => visit.page
  | _ => []

end SongLibrary.Reconcile
