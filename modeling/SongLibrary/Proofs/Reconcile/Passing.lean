/-
  Files that a run passes over.

  A run that adds files has nothing to do for a file that is left out, has a record or has
  no tags with a length (`Setup.Passes`).

  * `Entering` is the invariant of such a run: it has still to look at each file that a scan
    would come to now, has a job for it, or passes it over;
  * in the end it passes over all of them, also those that it has moved, as long as their
    records have plain keys (`Entering.of_reachable`).
-/
import SongLibrary.Proofs.FileTree.Revisit
import SongLibrary.Proofs.PlainKey
import SongLibrary.Proofs.Reconcile.Alike
import SongLibrary.Proofs.Reconcile.CheckingNew
import SongLibrary.Proofs.Reconcile.Upcoming

namespace SongLibrary

open FileTree (Retabled)

/-! ## Full tables -/

/-- Rows that leave no id for another song. -/
def IsFull (rows : List Row) : Prop :=
  Int64.maxValue.toInt ≤ largestId rows

namespace SongTable

variable {t t' : SongTable} {song : Song} {id : Int64}

/-- A full table takes no song without an id. -/
theorem insert?_of_isFull (h : IsFull t.rows) (hid : song.id = none) : t.insert? song = none := by
  have hmax : max t.maxId 0 = Int64.maxValue := by
    have hle := (max t.maxId 0).toInt_le
    rw [IsFull, ← t.toInt_largest] at h
    exact Int64.toInt_inj.1 (by omega)
  have hnone : t.nextId? = none := by simp [nextId?, hmax]
  simp [insert?, insertWithTags?, hid, hnone]

/-- A table that does not take a song without an id is full. -/
theorem isFull_of_insert? (hid : song.id = none) (h : t.insert? song = none) : IsFull t.rows := by
  by_contra hroom
  obtain ⟨id, table, hinsert, -⟩ := insert?_new hid (Int.not_le.1 hroom)
  rw [h] at hinsert
  cases hinsert

/-- The row of a song that is added is another than those that were there. -/
theorem row_not_mem_of_insert? (h : t.insert? song = some (id, t')) : song.row id ∉ t.rows := by
  intro hmem
  have hnodup := t'.sorted.imp (S := (·.id ≠ ·.id)) fun hlt heq => by simp [heq] at hlt
  have hperm := (perm_of_insert? h).pairwise_iff (R := (·.id ≠ ·.id)) Ne.symm
  exact (List.pairwise_cons.1 (hperm.1 hnodup)).1 _ hmem rfl

end SongTable

namespace Reconcile

variable {s : Setup} {w : Services} {files t t' : FileTree} {b b₁ b' : Books} {r r' : Run}
  {primary : OpenTable} {rows rows' : List Row} {rest : List Path} {p q : Path} {l : Location}
  {e : Entry}

/-! ## Files with nothing new -/

/-- A run that adds files to some rows has nothing to do for a file: that is left out, has a
    record, or has no tags with a length. -/
def Setup.Passes (s : Setup) (w : Services) (rows : List Row) (t : FileTree) (p : Path) : Prop :=
  ¬ s.IsNew rows p ∨ s.newSong? w t p = none

theorem Setup.Passes.mono (h : s.Passes w rows t p) (hrows : rows ⊆ rows') :
    s.Passes w rows' t p :=
  h.imp_left fun hnew hnew' => hnew ⟨hnew'.1, fun row hrow => hnew'.2.1 row (hrows hrow), hnew'.2.2⟩

/-- A file with a record is passed over. -/
theorem Setup.Passes.of_row {row : Row} (hrow : row ∈ rows) (hkey : row.uri = keyOf s.musicDir p) :
    s.Passes w rows t p :=
  .inl fun hnew => hnew.2.1 row hrow hkey

/-- A file without new tags has none in another tree where it is the same, as long as a walk
    comes to another file there. -/
theorem Setup.Passes.elsewhere (hwf : t.WellFormed) (hlisted : t.Listed) (hwf' : t'.WellFormed)
    (hlisted' : t'.Listed) (hdir : t'.workingDir = t.workingDir) (hroot : s.root.isAbsolute)
    (hp : p ∈ t.walk s.root) (hfind : t.find p = .ok (l, e)) (hq : q ∈ t'.walk s.root)
    (hne : t.destination q ≠ l) (hsame : ∀ d, t'.get? (t.destination q) = some (.file d) ↔
      t.get? (t.destination q) = some (.file d)) :
    q ∈ t.walk s.root ∧ ∀ rows, s.Passes w rows t q → s.Passes w rows t' q := by
  obtain ⟨d, hget⟩ := FileTree.file_of_mem_walk hwf' hlisted' hq
  rw [FileTree.destination_congr hdir] at hget
  obtain ⟨hmem, hfound⟩ := FileTree.mem_walk_sibling hwf hlisted hwf' hlisted' hdir hroot hp hfind hq
    hne ((hsame d).1 hget)
  refine ⟨hmem, fun rows hpasses => hpasses.imp_right fun hnone => ?_⟩
  unfold newSong? at hnone ⊢
  cases hread : t'.read q with
  | error fault => rfl
  | ok c =>
    obtain ⟨m, hthere⟩ := FileTree.read_eq_ok_iff.1 hread
    have hd : d = c := by
      obtain ⟨-, -, -, -, hget'⟩ := FileTree.find_file_iff.1 hthere
      rw [(FileTree.route_of_find hthere).2, FileTree.destination_congr hdir, hget] at hget'
      simpa using hget'
    have hbefore : t.read q = .ok c := FileTree.read_eq_ok_iff.2 ⟨m, hd ▸ hfound hthere⟩
    rwa [hbefore] at hnone

/-! ## Doing a job -/

/-- The library and the scan are reached by names from one directory. -/
def Setup.Aligned (s : Setup) : Prop :=
  ∃ (base : Path) (names others : List Name), base.isAbsolute ∧ (∀ name ∈ names, name.IsProper) ∧
    (∀ name ∈ others, name.IsProper) ∧ s.musicDir = names.foldl Path.child base ∧
    s.root = others.foldl Path.child base

theorem Setup.Aligned.root_isAbsolute (h : s.Aligned) : s.root.isAbsolute := by
  obtain ⟨base, -, others, hbase, -, hothers, -, hroot⟩ := h
  rw [hroot]
  exact (FileTree.names_foldl_child base hothers).2 hbase

/-- A plain key is that of the path by which a scan comes to the file. -/
theorem Setup.Aligned.keyOf_eq {key : String} (h : s.Aligned) (hwf : t.WellFormed)
    (hlisted : t.Listed) (hq : q ∈ t.walk s.root) (hkey : IsPlainKey key)
    (hplace : t.destination q = t.destination (resolve s.musicDir key)) :
    keyOf s.musicDir q = key := by
  obtain ⟨base, names, others, hbase, hnames, hothers, hmusic, hroot⟩ := h
  obtain ⟨below, hbelow, rfl, -⟩ := FileTree.exists_names_of_mem hwf hlisted hq
  have habsolute : s.musicDir.isAbsolute := by
    rw [hmusic]
    exact (FileTree.names_foldl_child base hnames).2 hbase
  rw [hroot, ← List.foldl_append] at hplace ⊢
  exact keyOf_eq_of_plain habsolute hnames (List.forall_mem_append.2 ⟨hothers, hbelow⟩) hmusic hkey
    hplace

/-- What the job for a new file comes to: nothing, or its song is stored, perhaps after the
    file has moved. -/
inductive Books.Enters (s : Setup) (w : Services) (b : Books) (p : Path) : Books → Prop where
  | passed (h : s.newSong? w b.files p = none) : Enters s w b p b
  | stored {content : Content} {parsed : ParsedTags} {song song' : Song} {b₁ b₂ : Books}
      (hread : b.files.read p = .ok content) (htags : w.readTags 0 p content = .ok parsed)
      (hid : song.id = none) (huri : song.uri = keyOf s.musicDir p)
      (hmoves : s.autoOrganize ∧ Moves s b song p (song', b₁) ∨ song' = song ∧ b₁ = b)
      (hstores : Stores b₁ song' b₂) : Enters s w b p b₂

theorem Run.perform_enters (hw : w.Steady) (hmode : s.mode = .checkNew) (r : Run) (p : Path) :
    Books.Enters s w r.books p (r.perform s w (s.newJob p)).books := by
  obtain ⟨moment, ⟨hnone, heq⟩ | ⟨content, parsed, song, date, hread, htags, hsong, heq⟩⟩ :=
    r.perform_fresh (s := s) (p := p) hw (.inl hmode)
  · rw [heq]
    exact .passed hnone
  · have hid : ({ song with dateAdded := date } : Song).id = none ∧
        ({ song with dateAdded := date } : Song).uri = keyOf s.musicDir p := by
      obtain ⟨tags, rfl⟩ := Setup.newSong?_eq_some hsong
      exact ⟨rfl, rfl⟩
    rw [heq]
    generalize ({ song with dateAdded := date } : Song) = song at hid ⊢
    by_cases hauto : s.autoOrganize && s.mode.allowsMoves
    · rw [if_pos hauto]
      have hmoves := Run.rename_books (s := s) hw.toReliable { r with moment } song p
        (s.bypass? (pathFrom s.root p)) false
      generalize Run.rename s w { r with moment } song p _ false = renamed at hmoves ⊢
      exact .stored hread htags hid.1 hid.2 (.inl ⟨(Bool.and_eq_true_iff.1 hauto).1, hmoves⟩)
        (Run.store_books hw.toSound renamed.2 renamed.1 false)
    · rw [if_neg hauto]
      exact .stored hread htags hid.1 hid.2 (.inr ⟨rfl, rfl⟩)
        (Run.store_books hw.toSound { r with moment } song false)

/-- Another file than that of a job: a walk came to it before, and it is passed over now if it
    was then. -/
def Setup.Stands (s : Setup) (w : Services) (t t' : FileTree) (p q : Path) : Prop :=
  q ≠ p ∧ q ∈ t.walk s.root ∧ ∀ rows, s.Passes w rows t q → s.Passes w rows t' q

section Organizing

variable {content : Content} {relative : String} (hwf : t.WellFormed) (hlisted : t.Listed)
  (hroot : s.root.isAbsolute) (hp : p ∈ t.walk s.root) (hfind : t.find p = .ok (l, .file content))
include hwf hlisted hroot hp hfind

theorem Setup.Stands.of_elsewhere (hwf' : t'.WellFormed) (hlisted' : t'.Listed)
    (hdir : t'.workingDir = t.workingDir) (hq : q ∈ t'.walk s.root) (hne : t.destination q ≠ l)
    (hsame : ∀ d, t'.get? (t.destination q) = some (.file d) ↔
      t.get? (t.destination q) = some (.file d)) : s.Stands w t t' p q := by
  obtain ⟨hmem, hpasses⟩ := Setup.Passes.elsewhere hwf hlisted hwf' hlisted' hdir hroot hp hfind hq
    hne hsame
  refine ⟨fun hqp => hne ?_, hmem, hpasses⟩
  rw [hqp, (FileTree.route_of_find hfind).2]

/-- After a move that fails a walk comes to the file at the path that it had. -/
theorem walk_of_failed {failure : Failure}
    (hmove : organizeFile t p s.musicDir relative = (t', .error failure))
    (hq : q ∈ t'.walk s.root) : q = p ∨ s.Stands w t t' p q := by
  have hlisted' := organizeFile_listed s.musicDir relative hlisted hfind
  rw [hmove] at hlisted'
  obtain ⟨hwf', hdir, hothers⟩ := organizeFile_elsewhere hfind hwf hmove
  by_cases hql : t.destination q = l
  · refine .inl (FileTree.eq_of_mem_walk hwf hlisted hwf' hlisted' hdir hp hq ?_)
    rw [FileTree.destination_congr hdir, FileTree.destination_congr hdir, hql,
      (FileTree.route_of_find hfind).2]
  · exact .inr (.of_elsewhere hwf hlisted hroot hp hfind hwf' hlisted' hdir hq hql fun d =>
      hothers _ d hql (by simp [Except.toOption]))

/-- After a move a walk comes to the file where it is now. -/
theorem walk_of_moved {place : Path} (hmove : organizeFile t p s.musicDir relative = (t', .ok place))
    (hleads : t.Leads place) (hq : q ∈ t'.walk s.root) :
    t'.destination q = t'.destination place ∨ s.Stands w t t' p q := by
  have hlisted' := organizeFile_listed s.musicDir relative hlisted hfind
  rw [hmove] at hlisted'
  obtain ⟨hwf', hdir, hothers⟩ := organizeFile_elsewhere hfind hwf hmove
  obtain ⟨-, -, hhas⟩ := organizeFile_ok hfind hwf hmove hleads
  simp only [FileTree.destination_congr hdir]
  by_cases hplace : t.destination q = t.destination place
  · exact .inl hplace
  · have hfile : t'.HasFile (t.destination q) := by
      rw [← FileTree.destination_congr hdir]
      exact FileTree.file_of_mem_walk hwf' hlisted' hq
    have hql := ((hhas _).1 hfile).resolve_left hplace
    exact .inr (.of_elsewhere hwf hlisted hroot hp hfind hwf' hlisted' hdir hq hql.1 fun d =>
      hothers _ d hql.1 (by simpa [Except.toOption] using Ne.symm hplace))

end Organizing

/-- **Where a walk comes once a job has moved a file or not**: to that file at the key of its
    record, and to files that it came to before. -/
theorem walk_of_moves {content : Content} {parsed : ParsedTags} {song song' : Song}
    (hw : w.Reliable) (hwf : files.WellFormed) (hlisted : files.Listed) (hkept : Kept s files b)
    (hb : b.files.Listed) (haligned : s.autoOrganize → s.Aligned)
    (hp : p ∈ (s.opened files).walk s.root) (hread : b.files.read p = .ok content)
    (htags : w.readTags 0 p content = .ok parsed) (huri : song.uri = keyOf s.musicDir p)
    (hmoves : s.autoOrganize ∧ Books.Moves s b song p (song', b₁) ∨ song' = song ∧ b₁ = b)
    (hd : b₁.Direct files) :
    Kept s files b₁ ∧ b₁.files.Listed ∧
      (((∃ move ∈ b₁.moves, move.2 = resolve s.musicDir song'.uri) → IsPlainKey song'.uri) →
        ∀ q ∈ b₁.files.walk s.root,
          song'.uri = keyOf s.musicDir q ∨ s.Stands w b.files b₁.files p q) := by
  have hunmoved : ∀ q ∈ b.files.walk s.root,
      song.uri = keyOf s.musicDir q ∨ s.Stands w b.files b.files p q := by
    intro q hq
    by_cases hqp : q = p
    · exact .inl (hqp ▸ huri)
    · exact .inr ⟨hqp, hq, fun _ => id⟩
  obtain ⟨l, hfind⟩ := FileTree.read_eq_ok_iff.1 hread
  have hl : l ∉ s.tablePlaces files := hkept.not_tablePlace hw hfind htags
  -- A walk comes to what it came to before, but for the file where that has moved.
  rcases hmoves with ⟨hauto, hmoves⟩ | ⟨rfl, rfl⟩
  · have hroot := (haligned hauto).root_isAbsolute
    have hopened := s.opened_retabled hwf
    have hagain : p ∈ b.files.walk s.root :=
      FileTree.mem_walk_again hopened.wellFormed (hopened.listed hlisted) hkept.wellFormed
        (hkept.workingDir.trans hopened.workingDir.symm) hroot hp hfind
    obtain ⟨hkept', -⟩ := hkept.moves hfind hl hmoves hd
    cases hmoves with
    | stays => exact ⟨hkept', hb, fun _ => hunmoved⟩
    | @failed t relative failure hmove =>
      have hlisted' := organizeFile_listed s.musicDir relative hb hfind
      rw [hmove] at hlisted'
      refine ⟨hkept', hlisted', fun _ q hq => ?_⟩
      rcases walk_of_failed hkept.wellFormed hb hroot hagain hfind hmove hq with rfl | hstands
      · exact .inl huri
      · exact .inr hstands
    | @moved t relative place hne hmove =>
      have hlisted' := organizeFile_listed s.musicDir relative hb hfind
      rw [hmove] at hlisted'
      have hleads := (FileTree.leads_congr hkept.workingDir).2 (hd (p, place) (by simp))
      obtain rfl := organizeFile_place hmove
      refine ⟨hkept', hlisted', fun hplain q hq => ?_⟩
      rcases walk_of_moved hkept.wellFormed hb hroot hagain hfind hmove hleads hq with
        hplace | hstands
      · exact .inl ((haligned hauto).keyOf_eq hkept'.wellFormed hlisted' hq
          (hplain ⟨_, List.mem_cons_self .., rfl⟩) hplace).symm
      · exact .inr hstands
  · exact ⟨hkept, hb, fun _ => hunmoved⟩

/-- Storing a song leaves the files alone. -/
theorem Books.Stores.sameFiles {song : Song} (h : Books.Stores b song b') : b'.files = b.files := by
  cases h <;> rfl

/-- A song without an id is stored in the table of the library, unless that is full. -/
theorem Books.Stores.new {song : Song} (h : Books.Stores b song b') (htarget : b.target = none)
    (hprimary : b.primary = some primary) (hid : song.id = none) :
    IsFull primary.table.rows ∧ b' = b ∨ ∃ table id, ¬ IsFull primary.table.rows ∧
      table.rows.Perm (song.row id :: primary.table.rows) ∧ song.row id ∉ primary.table.rows ∧
      b' = { b with primary := some { primary with table } } := by
  have hsave : primary.table.save? song =
      (primary.table.insert? song).map (Prod.map .inserted id) :=
    SongTable.save?_of_new (by simp [hid])
  cases h with
  | refused hrefused =>
    have hnone := hrefused.resolve_left (by simp [htarget]) primary hprimary
    rw [hsave, Option.map_eq_none_iff] at hnone
    exact .inl ⟨SongTable.isFull_of_insert? hid hnone, rfl⟩
  | added _ hsome _ =>
    rw [htarget] at hsome
    cases hsome
  | @saved opened _ how _ hopened hsaved =>
    obtain rfl := Option.some.inj (hprimary.symm.trans hopened)
    rw [hsave] at hsaved
    obtain ⟨⟨id, table⟩, hinsert, heq⟩ := Option.map_eq_some_iff.1 hsaved
    cases heq
    refine .inr ⟨table, id, fun hfull => ?_, SongTable.perm_of_insert? hinsert,
      SongTable.row_not_mem_of_insert? hinsert, rfl⟩
    rw [SongTable.insert?_of_isFull hfull hid] at hinsert
    cases hinsert

/-! ## The course of a run -/

theorem Books.Direct.mono (h : b'.Direct files) (hmoves : b.moves ⊆ b'.moves) : b.Direct files :=
  fun move hmove => h move (hmoves hmove)

theorem Books.Direct.same (h : b'.Direct files) (hmoves : b'.moves = b.moves) : b.Direct files :=
  h.mono fun _ hmove => hmoves ▸ hmove

/-- Files have been moved directly, and the songs that have been added for these have plain
    keys. -/
structure Tidy (s : Setup) (files : FileTree) (b : Books) (primary : OpenTable) : Prop where
  direct : b.Direct files
  plain : ∀ row ∈ primary.table.rows, row ∉ s.rows files →
    (∃ move ∈ b.moves, move.2 = resolve s.musicDir row.uri) → IsPlainKey row.uri

theorem Tidy.mono {primary' : OpenTable} (h : Tidy s files b' primary') (hmoves : b.moves ⊆ b'.moves)
    (hrows : primary.table.rows ⊆ primary'.table.rows) : Tidy s files b primary :=
  ⟨h.direct.mono hmoves, fun row hrow hnew ⟨move, hmove, heq⟩ =>
    h.plain row (hrows hrow) hnew ⟨move, hmoves hmove, heq⟩⟩

theorem Tidy.same (h : Tidy s files b' primary) (hmoves : b'.moves = b.moves) :
    Tidy s files b primary :=
  h.mono (fun _ hmove => hmoves ▸ hmove) (List.Subset.refl _)

/-- What holds of a run that adds new files, and may move them: each file that a scan would
    come to now is still to be looked at, has a job, or is passed over, unless the table takes
    no more songs. -/
structure Entering (s : Setup) (w : Services) (files : FileTree) (r : Run) (primary : OpenTable)
    (rest : List Path) : Prop where
  opened : r.primary = some primary
  target : r.target = none
  rows : s.rows files ⊆ primary.table.rows
  feeds : r.Feeds rest
  jobs : ∀ job ∈ r.queue.toList, job = s.newJob job.path
  scanned : ∀ p ∈ rest ++ r.queue.toList.map Job.path, p ∈ (s.opened files).walk s.root
  kept : r.books.Direct files → Kept s files r.books ∧ r.files.Listed
  passed : Tidy s files r.books primary → IsFull primary.table.rows ∨ ∀ p ∈ r.files.walk s.root,
    p ∈ rest ∨ s.newJob p ∈ r.queue.toList ∨ s.Passes w primary.table.rows r.files p

namespace Entering

theorem look (hw : w.Steady) (hmode : s.mode = .checkNew)
    (h : Entering s w files r primary (p :: rest)) (hopen : r.queue.closed = false)
    (hclassify : ({ r with source := some (.files rest) } : Run).classify s w
      ⟨p, keyOf s.musicDir p, none⟩ = (r', .ok ())) : Entering s w files r' primary rest := by
  have hregards := Run.classify_regards (r := { r with source := some (.files rest) }) hw.toSound
    hmode h.opened hopen hclassify
  -- A file that is passed over is done with, and there is a job for any other.
  cases hregards with
  | passed counters moment history hold hmoves _ =>
    refine ⟨h.opened, h.target, h.rows, ⟨by simp, by simp⟩, h.jobs,
      fun q hq => h.scanned q (List.mem_cons_of_mem _ hq), fun hd => ?_,
      fun htidy => (h.passed (htidy.same hmoves)).imp_right fun hpassed q hq => ?_⟩
    · obtain ⟨hkept, hlisted⟩ := h.kept (hd.same hmoves)
      exact ⟨hkept.congr rfl hmoves rfl rfl, hlisted⟩
    · rcases hpassed q hq with hmem | hothers
      · rcases List.mem_cons.1 hmem with rfl | hmem
        · exact .inr (.inr (.inl hold))
        · exact .inl hmem
      · exact .inr hothers
  | queued counters moment history hold hpush hmoves _ =>
    have hqueue := Queue.toList_push hpush
    refine ⟨h.opened, h.target, h.rows, ⟨by simp, by simp⟩, ?_, ?_, fun hd => ?_,
      fun htidy => (h.passed (htidy.same hmoves)).imp_right fun hpassed q hq => ?_⟩
    · rw [hqueue]
      intro job hjob
      rcases List.mem_append.1 hjob with hjob | hjob
      · exact h.jobs job hjob
      · rw [List.mem_singleton.1 hjob]
        rfl
    · rw [hqueue]
      refine fun q hq => h.scanned q ?_
      simp only [List.map_append, List.mem_append, List.cons_append, List.mem_cons] at hq ⊢
      simpa [Setup.newJob, or_left_comm, or_comm] using hq
    · obtain ⟨hkept, hlisted⟩ := h.kept (hd.same hmoves)
      exact ⟨hkept.congr rfl hmoves rfl rfl, hlisted⟩
    · rw [hqueue]
      rcases hpassed q hq with hmem | hmem | hpasses
      · rcases List.mem_cons.1 hmem with rfl | hmem
        · exact .inr (.inl (by simp))
        · exact .inl hmem
      · exact .inr (.inl (List.mem_append_left _ hmem))
      · exact .inr (.inr hpasses)

/-- What is left of the files to look at and of the jobs when a job has been done. -/
structure Done (s : Setup) (files : FileTree) (r r' : Run) (job : Job) (rest : List Path) :
    Prop where
  feeds : r'.Feeds rest
  jobs : ∀ job ∈ r'.queue.toList, job = s.newJob job.path
  scanned : ∀ p ∈ rest ++ r'.queue.toList.map Job.path, p ∈ (s.opened files).walk s.root
  others : ∀ p, p ≠ job.path → s.newJob p ∈ r.queue.toList → s.newJob p ∈ r'.queue.toList

theorem done {job : Job} (h : Entering s w files r primary rest) (hsource : r'.source = r.source)
    (hqueue : r.queue.toList = job :: r'.queue.toList) : Done s files r r' job rest where
  feeds := ⟨fun source hsome => h.feeds.coming source (hsource ▸ hsome),
    fun hnone => h.feeds.ended (hsource ▸ hnone)⟩
  jobs job hjob := h.jobs job (hqueue ▸ List.mem_cons_of_mem _ hjob)
  scanned p hp := by
    refine h.scanned p ?_
    rw [hqueue]
    simp only [List.mem_append, List.map_cons, List.mem_cons] at hp ⊢
    exact hp.imp_right .inr
  others p hp hmem := by
    rw [hqueue] at hmem
    exact (List.mem_cons.1 hmem).resolve_left fun heq => hp (congrArg Job.path heq)

/-- The job of a file that is passed over changes no books. -/
theorem work_passed {job : Job} {jobs : List Job} (h : Entering s w files r primary rest)
    (hdone : Done s files r r' job rest) (hbooks : r'.books = { r.books with jobs })
    (hnone : s.newSong? w r.files job.path = none) : Entering s w files r' primary rest := by
  have hfiles : r'.files = r.files := congrArg Books.files hbooks
  have hmoves : r'.books.moves = r.books.moves := by rw [hbooks]
  refine ⟨(congrArg Books.primary hbooks).trans h.opened, (congrArg Books.target hbooks).trans h.target,
    h.rows, hdone.feeds, hdone.jobs, hdone.scanned, fun hd => ?_,
    fun htidy => (h.passed (htidy.same hmoves)).imp_right fun hpassed q hq => ?_⟩
  · obtain ⟨hkept, hlisted⟩ := h.kept (hd.same hmoves)
    exact ⟨hbooks ▸ hkept.congr rfl rfl rfl rfl, hfiles ▸ hlisted⟩
  · rw [hfiles] at hq ⊢
    by_cases hqp : q = job.path
    · exact .inr (.inr (.inr (hqp ▸ hnone)))
    · exact (hpassed q hq).imp_right fun hothers => hothers.imp_left (hdone.others q hqp)

/-- The job of a file whose song is stored: the table is full, or has the song, which leads
    to where the file is now. -/
theorem work_stored {job : Job} {jobs : List Job} {content : Content} {parsed : ParsedTags}
    {song song' : Song}
    (hw : w.Reliable) (hwf : files.WellFormed) (hlisted : files.Listed)
    (haligned : s.autoOrganize → s.Aligned) (h : Entering s w files r primary rest)
    (hdone : Done s files r r' job rest) (hp : job.path ∈ (s.opened files).walk s.root)
    (hread : r.files.read job.path = .ok content) (htags : w.readTags 0 job.path content = .ok parsed)
    (hid : song.id = none) (huri : song.uri = keyOf s.musicDir job.path)
    (hmoves : s.autoOrganize ∧ Books.Moves s { r.books with jobs } song job.path (song', b₁) ∨
      song' = song ∧ b₁ = { r.books with jobs })
    (hstores : Books.Stores b₁ song' r'.books) :
    ∃ primary', Entering s w files r' primary' rest := by
  -- A move leaves the tables alone, and the record has no id yet.
  have hsame : b₁.primary = some primary ∧ b₁.target = none ∧ song'.id = none ∧
      r.books.moves ⊆ b₁.moves := by
    rcases hmoves with ⟨-, hmoves⟩ | ⟨rfl, rfl⟩
    · refine ⟨hmoves.keeps.2.2.1.trans h.opened, hmoves.keeps.2.2.2.trans h.target, ?_,
        hmoves.moves_subset⟩
      rw [← hid]
      cases hmoves <;> rfl
    · exact ⟨h.opened, h.target, hid, List.Subset.refl _⟩
  obtain ⟨hprimary, htarget, hid', hsubset⟩ := hsame
  have hmoved : r'.books.moves = b₁.moves := hstores.moves
  have hwalk : r'.books.Direct files → _ := fun hd => by
    obtain ⟨hkept, hlisted'⟩ := h.kept (hd.mono (hmoved ▸ hsubset))
    exact walk_of_moves hw hwf hlisted (b := { r.books with jobs }) (hkept.congr rfl rfl rfl rfl)
      hlisted' haligned hp hread htags huri hmoves (hd.same hmoved)
  have hfiles : r'.files = b₁.files := hstores.sameFiles
  have hkept : r'.books.Direct files → Kept s files r'.books ∧ r'.files.Listed := fun hd =>
    ⟨(hwalk hd).1.stores hstores, hfiles ▸ (hwalk hd).2.1⟩
  obtain ⟨hfull, hbooks⟩ | ⟨table, id, hroom, hrows, hnew, hbooks⟩ := hstores.new htarget hprimary hid'
  · exact ⟨primary, (congrArg Books.primary hbooks).trans hprimary,
      (congrArg Books.target hbooks).trans htarget, h.rows, hdone.feeds, hdone.jobs, hdone.scanned,
      hkept, fun _ => .inl hfull⟩
  · have hmore : primary.table.rows ⊆ table.rows := fun row hrow =>
      hrows.mem_iff.2 (List.mem_cons_of_mem _ hrow)
    have hrow : song'.row id ∈ table.rows := hrows.mem_iff.2 (List.mem_cons_self ..)
    refine ⟨{ primary with table }, congrArg Books.primary hbooks,
      (congrArg Books.target hbooks).trans htarget, fun row hold => hmore (h.rows hold), hdone.feeds,
      hdone.jobs, hdone.scanned, hkept, fun htidy => .inr fun q hq => ?_⟩
    have hpassed := h.passed (htidy.mono (hmoved ▸ hsubset) hmore)
    have hkey := htidy.plain _ hrow fun hold => hnew (h.rows hold)
    rw [hmoved] at hkey
    rw [hfiles] at hq ⊢
    rcases (hwalk htidy.direct).2.2 hkey q hq with huri | ⟨hne, hbefore, hpasses⟩
    · exact .inr (.inr (.of_row hrow huri))
    · rcases hpassed.resolve_left hroom q hbefore with hmem | hmem | hold
      · exact .inl hmem
      · exact .inr (.inl (hdone.others q hne hmem))
      · exact .inr (.inr ((hpasses _ hold).mono hmore))

theorem work (hw : w.Steady) (hmode : s.mode = .checkNew) (hwf : files.WellFormed)
    (hlisted : files.Listed) (haligned : s.autoOrganize → s.Aligned)
    (h : Entering s w files r primary rest) {job : Job} {queue : Queue Job}
    (hpop : r.queue.pop? = some (job, queue))
    (hr : r' = { r with queue, history.taken := job :: r.history.taken }.perform s w job) :
    ∃ primary', Entering s w files r' primary' rest := by
  have hjobs := Queue.toList_of_pop? hpop
  have hjob := h.jobs job (by simp [hjobs])
  have hp := h.scanned job.path (by simp [hjobs])
  have hsame := Run.perform_kept s w { r with queue, history.taken := job :: r.history.taken } job
  have henters := Run.perform_enters (s := s) hw hmode
    { r with queue, history.taken := job :: r.history.taken } job.path
  rw [← hjob, ← hr] at henters
  rw [← hr] at hsame
  have hqueue : r.queue.toList = job :: r'.queue.toList := hsame.queue ▸ hjobs
  have hdone := h.done hsame.source hqueue
  generalize hbooks : r'.books = b' at henters
  cases henters with
  | passed hnone => exact ⟨primary, h.work_passed hdone hbooks hnone⟩
  | stored hread htags hid huri hmoves hstores =>
    exact h.work_stored hw.toReliable hwf hlisted haligned hdone hp hread htags hid huri hmoves
      (hbooks ▸ hstores)

/-- A slice of such a run. -/
theorem slice (hw : w.Steady) (hmode : s.mode = .checkNew) (hwf : files.WellFormed)
    (hlisted : files.Listed) (haligned : s.autoOrganize → s.Aligned)
    (h : Entering s w files r primary rest) (hslice : Run.Slice s w r r') :
    ∃ primary' rest', Entering s w files r' primary' rest' := by
  cases hslice with
  | note phase reported sent =>
    exact ⟨primary, rest, h.opened, h.target, h.rows, ⟨h.feeds.coming, h.feeds.ended⟩, h.jobs,
      h.scanned, h.kept, h.passed⟩
  | exhaust hopen hnext =>
    obtain ⟨rfl, rfl⟩ := h.feeds.exhaust hnext
    exact ⟨primary, [], h.opened, h.target, h.rows, ⟨by simp, fun _ => rfl⟩, h.jobs, h.scanned,
      fun hd => ⟨(h.kept hd).1.congr rfl rfl rfl rfl, (h.kept hd).2⟩, fun htidy => h.passed (htidy.same rfl)⟩
  | look hopen hnext hclassify =>
    obtain ⟨p, paths, rfl, rfl, rfl⟩ := h.feeds.next hnext
    exact ⟨primary, paths, h.look hw hmode hopen hclassify⟩
  | work hpop =>
    obtain ⟨primary', h'⟩ := h.work hw hmode hwf hlisted haligned hpop rfl
    exact ⟨primary', rest, h'⟩

/-- Such a run when its tables are open and it has prepared. -/
theorem begin {r₀ : Run} (hw : w.Reliable) (hmode : s.mode = .checkNew) (hwf : files.WellFormed)
    (hlisted : files.Listed) (hstart : (Run.new s files).start s w = (r₀, .ok ()))
    (hprepare : r₀.prepare s w = (r, .ok ())) :
    ∃ primary rest, Entering s w files r primary rest := by
  have hready := Run.start_ready (s := s) hw hwf rfl rfl hstart
  obtain ⟨table, moment, hopened, rfl⟩ := Run.start_opens (by rw [hmode]; rfl) hstart
  obtain ⟨primary, hprimary, hrows, -⟩ := hready.primary
  cases Run.prepare_begun rfl hprepare with
  | files horigin hid =>
    refine ⟨primary, (s.opened files).walk s.root, hprimary, rfl, ?_, ⟨?_, by simp⟩, ?_, ?_,
      fun _ => ⟨(Kept.of_ready hready).congr rfl rfl rfl rfl, (s.opened_retabled hwf).listed hlisted⟩,
      fun _ => .inr fun p hp => .inl hp⟩
    · rw [hrows]
      exact List.Subset.refl _
    · rintro _ ⟨⟩
      rfl
    · intro job hjob
      cases hjob
    · intro p hp
      rcases List.mem_append.1 hp with hp | hp
      · exact hp
      · cases hp
  | table horigin _ _ =>
    rw [hmode] at horigin
    cases horigin

/-- Such a run when it is to close its tables. -/
theorem of_reachable (hw : w.Steady) (hmode : s.mode = .checkNew) (hwf : files.WellFormed)
    (hlisted : files.Listed) (haligned : s.autoOrganize → s.Aligned)
    (h : Reachable s w files none r) (hphase : r.phase = .finish) (hstop : r.stopped = false) :
    ∃ primary, Entering s w files r primary [] ∧ r.queue.toList = [] := by
  have hworking := Run.working_of_reachable h hstop (by simp [hphase])
  obtain ⟨r₀, r₁, hstart, hprepare, hslices⟩ := hworking.slices
  obtain ⟨primary, rest, hentering⟩ : ∃ primary rest, Entering s w files r primary rest := by
    have hbegin := begin hw.toReliable hmode hwf hlisted hstart hprepare
    clear hworking h hphase hstop
    induction hslices with
    | refl => exact hbegin
    | tail _ hslice ih =>
      obtain ⟨primary, rest, hentering⟩ := ih
      exact hentering.slice hw hmode hwf hlisted haligned hslice
  have hrest : rest = [] := hentering.feeds.ended (hworking.seen (by simp [hphase]))
  exact ⟨primary, hrest ▸ hentering, hworking.done hphase⟩

end Entering

end Reconcile

end SongLibrary
