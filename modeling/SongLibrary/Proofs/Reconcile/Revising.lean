/-
  What a run over the songs of a table changes.

  * `Revised` is what such a run may make of a song, by its mode, and `Leaves` what it
    leaves of the files;
  * `Retouches` lists what doing a job does to a song and its file (`perform_retouches`),
    and `Retouched` is the invariant: every row is one that there was, revised;
  * `songs_are_revised` is the main statement, for every state of a run, as long as no move
    takes the table of the library along or takes its place.
-/
import SongLibrary.Proofs.Json.RoundTrip
import SongLibrary.Proofs.Reconcile.Distinct
import SongLibrary.Proofs.Relocation
import SongLibrary.Proofs.SongTable.Visit

namespace SongLibrary.Reconcile

/-! ## What may change -/

/-- What a run may make of a song, by its mode. -/
structure Revised (s : Setup) (w : Services) (a b : Song) : Prop where
  id : b.id = a.id
  dateAdded : b.dateAdded = a.dateAdded
  prefixLength : b.prefixLength = a.prefixLength
  preventRename : b.preventRename = a.preventRename
  uri : s.mode ≠ .reorganize → b.uri = a.uri
  tags : s.mode = .writeTags ∨ s.mode = .reorganize → b.tags = a.tags
  /-- A value that the track list changes is one that is wanted and that it has. -/
  taken : s.mode = .updateItunes → ∀ key, b.tags.get? key = a.tags.get? key ∨
    w.wants key ∧ ∃ n fields value, w.trackTags? n (Run.nameOf (resolve s.musicDir a.uri)) = some fields ∧
      fields.get? key = some value ∧ value ≠ "" ∧ b.tags.get? key = some value

/-- What a run leaves of the files, by its mode: where the tables are not, only writing
    tags changes what files hold, and only moving songs takes files elsewhere. -/
structure Leaves (s : Setup) (files : FileTree) (moves : List (Path × Path)) (t : FileTree) :
    Prop where
  same : s.mode = .updateTags ∨ s.mode = .updateItunes →
    ∀ l ∉ s.tablePlaces files, t.get? l = files.get? l
  written : s.mode = .writeTags → ∀ l ∉ s.tablePlaces files, t.get? l = files.get? l ∨
    files.HasFile l ∧ t.HasFile l ∧
      ∃ row ∈ s.rows files, l = files.destination (resolve s.musicDir row.uri)
  /-- Files come from where files were. -/
  carried : s.mode = .reorganize → ∀ l c, t.get? l = some (.file c) →
    l ∈ s.tablePlaces files ∨ ∃ k, files.get? k = some (.file c)
  /-- Files stay that no move takes along, and whose place none takes. -/
  stays : s.mode = .reorganize → ∀ l c, l ∉ s.tablePlaces files →
    (∀ move ∈ moves, ¬ files.destination move.1 <+: l ∧ files.destination move.2 ≠ l) →
    files.get? l = some (.file c) → t.get? l = some (.file c)
  unmoved : s.mode ≠ .reorganize → moves = []

/-- A move leaves the table of the library alone: it takes neither it nor its place. -/
def Setup.Clears (s : Setup) (files : FileTree) (move : Path × Path) : Prop :=
  ¬ files.destination move.1 <+: s.library files ∧ files.destination move.2 ≠ s.library files

instance (s : Setup) (files : FileTree) (move : Path × Path) : Decidable (s.Clears files move) :=
  inferInstanceAs (Decidable (_ ∧ _))

variable {s : Setup} {w : Services} {files : FileTree}

namespace Revised

theorem refl (a : Song) : Revised s w a a :=
  ⟨rfl, rfl, rfl, rfl, fun _ => rfl, fun _ => rfl, fun _ _ => .inl rfl⟩

/-- The tags may be read again. -/
theorem of_tags (hmode : s.mode = .updateTags) (a : Song) (tags : TagMap) :
    Revised s w a { a with tags } :=
  ⟨rfl, rfl, rfl, rfl, fun _ => rfl, by simp [hmode], by simp [hmode]⟩

/-- The song may be somewhere else. -/
theorem of_uri (hmode : s.mode = .reorganize) (a : Song) (uri : String) :
    Revised s w a { a with uri } :=
  ⟨rfl, rfl, rfl, rfl, fun hne => absurd hmode hne, fun _ => rfl, by simp [hmode]⟩

/-- What is taken over from a list of fields: the values are wanted, and are on the list. -/
theorem takeOver_taken (w : Services) (list : List (TagKey × String)) (a : Song) (key : TagKey) :
    (list.foldl (Run.takeOver w) a).tags.get? key = a.tags.get? key ∨
      w.wants key ∧ ∃ value, (key, value) ∈ list ∧ value ≠ "" ∧
        (list.foldl (Run.takeOver w) a).tags.get? key = some value := by
  induction list generalizing a with
  | nil => exact .inl rfl
  | cons field rest ih =>
    rw [List.foldl_cons]
    rcases ih (Run.takeOver w a field) with hsame | ⟨hwants, value, hmem, hne, hget⟩
    · rw [hsame]
      unfold Run.takeOver
      split
      · next htaken =>
        simp only [Bool.and_eq_true, Bool.not_eq_true', String.isEmpty_eq_false_iff] at htaken
        by_cases hkey : key = field.1
        · subst hkey
          exact .inr ⟨htaken.1.2, field.2, List.mem_cons_self .., htaken.1.1, by simp [Song.set]⟩
        · exact .inl (by simp [Song.set, hkey])
      · exact .inl rfl
    · exact .inr ⟨hwants, value, List.mem_cons_of_mem _ hmem, hne, hget⟩

/-- Fields of the track list may be taken over. -/
theorem of_tracks {fields : TagMap} {n : Nat} (hmode : s.mode = .updateItunes) (a : Song)
    (hfields : w.trackTags? n (Run.nameOf (resolve s.musicDir a.uri)) = some fields) :
    Revised s w a (fields.toList.foldl (Run.takeOver w) a) := by
  have htaken := takeOver_taken w fields.toList a
  obtain ⟨tags, heq⟩ := Run.takeOver_tags w fields.toList a
  rw [heq] at htaken ⊢
  refine ⟨rfl, rfl, rfl, rfl, fun _ => rfl, by simp [hmode], fun _ key => ?_⟩
  rcases htaken key with hsame | ⟨hwants, value, hmem, hne, hget⟩
  · exact .inl hsame
  · refine .inr ⟨hwants, n, fields, value, hfields, ?_, hne, hget⟩
    obtain ⟨key', -, hvalue⟩ := List.mem_filterMap.1 hmem
    obtain ⟨_, hvalue, heq⟩ := Option.map_eq_some_iff.1 hvalue
    cases heq
    exact hvalue

end Revised

/-! ## Jobs -/

namespace Books

/-- A song is saved in the table of the library, or not. -/
inductive Saves (b : Books) (song : Song) : Books → Prop where
  | refused : Saves b song b
  | saved {primary : OpenTable} {table : SongTable} {how : SongTable.Saved}
      (h : b.primary = some primary) (hsave : primary.table.save? song = some (how, table)) :
      Saves b song { b with primary := some { primary with table } }

/-- What doing the job of a song does, where there is no new table. -/
inductive Retouches (s : Setup) (w : Services) (b : Books) (job : Job) (a : Song) : Books → Prop where
  | idle : Retouches s w b job a b
  /-- The tags of the song are written into the file. -/
  | written {before content : Content} {files : FileTree} {n : Nat} {tags : ParsedTags}
      (hmode : s.mode = .writeTags) (hread : b.files.read job.path = .ok before)
      (htags : w.readTags n job.path before = .ok tags)
      (h : b.files.write job.path content = .ok files) : Retouches s w b job a { b with files }
  /-- The file may be moved, and the song is saved as it is then. -/
  | revised {song : Song} {b₁ b₂ : Books}
      (hmoves : b₁ = b ∨ s.mode = .reorganize ∧ Moves s b a job.path (song, b₁))
      (hsong : Revised s w a song) (hsaves : Saves b₁ song b₂) : Retouches s w b job a b₂

end Books

namespace Run

open Books

variable {r r' : Run} {job : Job} {a : Song}

theorem store_saves (ht : r.target = none) (song : Song) (existed : Bool) :
    Saves r.books song (r.store w song existed).books := by
  obtain ⟨r₁, counter, hstored, -, heq⟩ := r.store_cases w song existed
  rw [heq]
  cases hstored with
  | failed _ _ _ => exact .refused
  | added _ _ _ h _ =>
    rw [ht] at h
    cases h
  | saved _ _ h hsave => exact .saved h hsave

theorem updateFromFile_retouches (hmode : s.mode = .updateTags) (he : job.existing = some a)
    (hkey : job.key = a.uri) (ht : r.target = none) :
    Retouches s w r.books job a (r.updateFromFile s w job).books := by
  have hbefore : s.recordBefore? job = some a := by
    rw [Setup.recordBefore?_of_ne (by simp [hmode]), he]
  have hcases := r.updateFromFile_cases s w job
  generalize r.updateFromFile s w job = r' at hcases
  cases hcases with
  | noTags moment => exact .idle
  | @kept _ _ date tags moment song r₁ _ _ hmoved =>
    obtain ⟨rfl, rfl⟩ := hmoved.resolve_left (by simp [hmode, Mode.allowsMoves])
    have hsong : s.recordWith job date tags = { a with tags } := by
      rw [Setup.recordWith, hbefore]
      dsimp only
      rw [hkey]
    split
    · exact .idle
    · rw [hsong]
      exact .revised (.inl rfl) (.of_tags hmode a tags) (store_saves (r := { r with moment }) ht _ _)

theorem writeTags_retouches (hmode : s.mode = .writeTags) :
    Retouches s w r.books job a (r.writeTags w job).books := by
  have hworks := writeTags_books (w := w) (r := r) job hmode
  generalize (r.writeTags w job).books = b at hworks ⊢
  cases hworks with
  | idle => exact .idle
  | written hmode hread htags h => exact .written hmode hread htags h
  | tracks hother _ _ _ _ => simp [hmode] at hother
  | read hother _ _ _ _ _ _ => simp [hmode] at hother
  | reorganized hother _ _ _ => simp [hmode] at hother

theorem updateFromTracks_retouches (hmode : s.mode = .updateItunes) (he : job.existing = some a)
    (hpath : job.path = resolve s.musicDir a.uri) (ht : r.target = none) :
    Retouches s w r.books job a (r.updateFromTracks w job).books := by
  simp only [updateFromTracks, he]
  split
  · exact .idle
  · next fields hfields =>
    rw [hpath] at hfields
    split
    · exact .idle
    · exact .revised (.inl rfl) (.of_tracks hmode a hfields) (store_saves (r := r.asked) ht _ _)

theorem reorganize_retouches (hw : w.Reliable) (hmode : s.mode = .reorganize)
    (he : job.existing = some a) (ht : r.target = none) :
    Retouches s w r.books job a (r.reorganize s w job).books := by
  simp only [reorganize, he]
  have hmoves := rename_books (s := s) hw r a job.path (s.bypass? job.relative) true
  generalize r.rename s w a job.path (s.bypass? job.relative) true = result at hmoves ⊢
  obtain ⟨song, r₁⟩ := result
  dsimp only at hmoves ⊢
  have hsong : Revised s w a song ∧ r₁.target = none := by
    generalize hbooks : r₁.books = b₁ at hmoves
    cases hmoves with
    | stays => exact ⟨.refl a, (congrArg Books.target hbooks).trans ht⟩
    | failed _ => exact ⟨.refl a, (congrArg Books.target hbooks).trans ht⟩
    | moved _ _ => exact ⟨.of_uri hmode a _, (congrArg Books.target hbooks).trans ht⟩
  split
  · exact .revised (.inr ⟨hmode, hmoves⟩) hsong.1 .refused
  · exact .revised (.inr ⟨hmode, hmoves⟩) hsong.1 (store_saves hsong.2 _ _)

/-- **Doing the job of a song revises the song**, or leaves it. -/
theorem perform_retouches (hw : w.Reliable) (hmode : s.mode.origin = .table .byId)
    (he : job.existing = some a) (hkey : job.key = a.uri)
    (hpath : job.path = resolve s.musicDir a.uri) (ht : r.target = none) :
    Retouches s w r.books job a (r.perform s w job).books := by
  unfold perform
  cases hcase : s.mode with
  | writeTags => exact writeTags_retouches hcase
  | updateItunes => exact updateFromTracks_retouches hcase he hpath ht
  | reorganize => exact reorganize_retouches hw hcase he ht
  | updateTags => exact updateFromFile_retouches hcase he hkey ht
  | rebuild => simp [hcase, Mode.origin] at hmode
  | checkNew => simp [hcase, Mode.origin] at hmode
  | compact checkNew => cases checkNew <;> simp [hcase, Mode.origin] at hmode

/-- Moves are not forgotten. -/
theorem Deeds.moves_subset (h : Deeds s w job r r') : r.history.moves ⊆ r'.history.moves := by
  induction h with
  | refl => exact List.Subset.refl _
  | tail _ hdeed ih =>
    refine List.Subset.trans ih ?_
    cases hdeed with
    | ask _ => exact List.Subset.refl _
    | note _ => exact List.Subset.refl _
    | store _ hstored => cases hstored <;> exact List.Subset.refl _
    | move hrenamed _ =>
      cases hrenamed with
      | stays => exact List.Subset.refl _
      | failed _ => exact List.Subset.refl _
      | moved _ _ => exact List.subset_cons_self _ _
    | write _ _ _ => exact List.Subset.refl _

theorem perform_moves_subset (r : Run) (job : Job) :
    r.books.moves ⊆ (r.perform s w job).books.moves := by
  obtain ⟨r₁, hdeeds, hsettled⟩ := perform_deeds s w r job
  refine List.Subset.trans hdeeds.moves_subset ?_
  generalize r.perform s w job = r₂ at hsettled
  cases hsettled <;> exact List.Subset.refl _

end Run

/-! ## The invariant -/

namespace Leaves

variable {moves : List (Path × Path)} {t t' : FileTree}

theorem refl (s : Setup) (files : FileTree) : Leaves s files [] files :=
  ⟨fun _ _ _ => rfl, fun _ _ _ => .inl rfl, fun _ l _ hl => .inr ⟨l, hl⟩, fun _ _ _ _ _ hl => hl,
    fun _ => rfl⟩

/-- The files of tables may come and go. -/
theorem retabled (h : Leaves s files moves t)
    (ht : ∀ l ∉ s.tablePlaces files, t'.get? l = t.get? l) : Leaves s files moves t' where
  same hmode l hl := (ht l hl).trans (h.same hmode l hl)
  written hmode l hl := by
    have hfile : t'.HasFile l ↔ t.HasFile l := FileTree.hasFile_of_iff fun c => by rw [ht l hl]
    rw [hfile, ht l hl]
    exact h.written hmode l hl
  carried hmode l c hc := by
    by_cases hl : l ∈ s.tablePlaces files
    · exact .inl hl
    · exact h.carried hmode l c (ht l hl ▸ hc)
  stays hmode l c hl hleft hc := (ht l hl).trans (h.stays hmode l c hl hleft hc)
  unmoved := h.unmoved

/-- The file of a song may be written. -/
theorem put {l : Location} {c d : Content} {row : Row} (h : Leaves s files moves t)
    (hmode : s.mode = .writeTags) (hget : t.get? l = some (.file d)) (hrow : row ∈ s.rows files)
    (hl : l = files.destination (resolve s.musicDir row.uri)) :
    Leaves s files moves (t.put l (.file c)) where
  same hother := by simp [hmode] at hother
  written _ m hm := by
    have hput := FileTree.get?_put t (FileTree.ne_nil_of_get? hget) (.file c) m
    by_cases hml : m = l
    · subst hml
      rw [if_pos rfl] at hput
      refine .inr ⟨?_, ⟨c, hput⟩, row, hrow, hl⟩
      rcases h.written hmode m hm with hsame | ⟨hfile, -⟩
      · exact ⟨d, hsame ▸ hget⟩
      · exact hfile
    · rw [if_neg hml] at hput
      have hfile : (t.put l (.file c)).HasFile m ↔ t.HasFile m :=
        FileTree.hasFile_of_iff fun c => by rw [hput]
      rw [hfile, hput]
      exact h.written hmode m hm
  carried hother := by simp [hmode] at hother
  stays hother := by simp [hmode] at hother
  unmoved := h.unmoved

/-- A file or a directory may be moved, or an attempt may fail. -/
theorem moved {move : Option (Path × Path)} (h : Leaves s files moves t) (hmode : s.mode = .reorganize)
    (hw : t.workingDir = files.workingDir)
    (hc : Carries (move.map fun m => (t.destination m.1, t.destination m.2)) t t')
    (hclear : ∀ m ∈ move, s.Clears files m) : Leaves s files (move.toList ++ moves) t' where
  same hother := by simp [hmode] at hother
  written hother := by simp [hmode] at hother
  carried _ l c hl := by
    obtain ⟨n, hn, hfrom⟩ := hc.file l c hl
    rcases h.carried hmode n c hn with hplace | hold
    · rcases hfrom with rfl | ⟨_, _, hmoved, hbelow⟩
      · exact .inl hplace
      · obtain ⟨m, hm, heq⟩ := Option.map_eq_some_iff.1 hmoved
        cases heq
        rw [FileTree.destination_congr hw] at hbelow
        rcases Setup.mem_tablePlaces.1 hplace with ⟨-, rfl⟩ | ⟨hd, -⟩
        · exact absurd hbelow (hclear m hm).1
        · simp [hmode, Mode.isDestructive] at hd
    · exact .inr hold
  stays _ l c hl hleft hget := by
    refine hc.stays l c ?_ (h.stays hmode l c hl (fun m hm => hleft m (by simp [hm])) hget)
    intro source place hmoved
    obtain ⟨m, hm, heq⟩ := Option.map_eq_some_iff.1 hmoved
    cases heq
    rw [FileTree.destination_congr hw, FileTree.destination_congr hw]
    exact hleft m (by simp [hm])
  unmoved hne := absurd hmode hne

end Leaves

/-- A row that there was, and one that a run has revised. -/
def RevisedRow (s : Setup) (w : Services) (old new : Row) : Prop :=
  Revised s w old.song new.song

/-- A job for a song that there was. -/
structure IsFor (s : Setup) (job : Job) (row : Row) : Prop where
  existing : job.existing = some row.song
  key : job.key = row.uri
  path : job.path = resolve s.musicDir row.uri

/-- Where the songs come from: from the rows that there were, in the order of their ids, as
    far as they are not behind already. -/
structure Reviewing (s : Setup) (files : FileTree) (jobs : List Job) (primary : Option OpenTable)
    (visit : SongTable.Visit) : Prop where
  order : visit.order = .byId
  page : ∀ song ∈ visit.page, ∃ row ∈ s.rows files, song = row.song ∧ row.id ≤ visit.cursor.id
  jobs : ∀ job ∈ jobs, ∀ row, IsFor s job row → row.id ≤ visit.cursor.id
  later : ∀ table ∈ primary, ∀ row ∈ table.table.rows, visit.cursor.id < row.id → row ∈ s.rows files

namespace Reviewing

variable {jobs : List Job} {primary? : Option OpenTable} {visit visit' : SongTable.Visit}

/-- The next song is one that there was, and is behind then. -/
theorem next {primary : OpenTable} {song : Song} (h : Reviewing s files jobs primary? visit)
    (hprimary : primary? = some primary) (hnext : visit.next primary.table = (some song, visit')) :
    Reviewing s files jobs primary? visit' ∧
      ∃ row ∈ s.rows files, song = row.song ∧ row.id ≤ visit'.cursor.id := by
  obtain ⟨horder, hpage⟩ := SongTable.Visit.next_byId h.order hnext
  -- A page holds songs that have not been saved since, for their ids are ahead.
  have hahead : (∀ x ∈ song :: visit'.page, ∃ row ∈ s.rows files, x = row.song ∧
      row.id ≤ visit'.cursor.id) ∧ visit.cursor.id ≤ visit'.cursor.id := by
    rcases hpage with ⟨hpage, hcursor⟩ | ⟨-, rows, hpage, -, hrows⟩
    · rw [hcursor, hpage]
      exact ⟨h.page, Int64.le_refl _⟩
    · constructor
      · intro x hx
        rw [hpage] at hx
        obtain ⟨row, hrow, rfl⟩ := List.mem_map.1 hx
        obtain ⟨hmem, hlt, hle⟩ := hrows row hrow
        exact ⟨row, h.later primary hprimary row hmem hlt, rfl, hle⟩
      · obtain ⟨row, hrow⟩ : ∃ row, row ∈ rows := by
          cases rows with
          | nil => simp at hpage
          | cons row _ => exact ⟨row, List.mem_cons_self ..⟩
        obtain ⟨-, hlt, hle⟩ := hrows row hrow
        exact Int64.le_trans (Int64.le_of_lt hlt) hle
  obtain ⟨hsongs, hcursor⟩ := hahead
  refine ⟨⟨horder, fun x hx => hsongs x (List.mem_cons_of_mem _ hx), ?_, ?_⟩,
    hsongs song (List.mem_cons_self ..)⟩
  · exact fun job hjob row hfor => Int64.le_trans (h.jobs job hjob row hfor) hcursor
  · exact fun table htable row hrow hlt =>
      h.later table htable row hrow (Int64.lt_of_le_of_lt hcursor hlt)

/-- There may be a job for a song that is behind. -/
theorem queued {job : Job} {row : Row} (h : Reviewing s files jobs primary? visit)
    (hfor : IsFor s job row) (hid : row.id ≤ visit.cursor.id) :
    Reviewing s files (jobs ++ [job]) primary? visit := by
  refine { h with jobs := fun other hother row' hfor' => ?_ }
  rcases List.mem_append.1 hother with hother | hother
  · exact h.jobs other hother row' hfor'
  · rw [List.mem_singleton.1 hother] at hfor'
    have hsong : row'.song = row.song := Option.some.inj (hfor'.existing.symm.trans hfor.existing)
    have hsame : row'.id = row.id := Option.some.inj (congrArg Song.id hsong)
    rwa [hsame]

end Reviewing

/-- Every row is one that there was, revised, and the jobs that are left are for songs that
    there were. -/
structure Retouched (s : Setup) (w : Services) (files : FileTree) (b : Books) : Prop where
  wellFormed : b.files.WellFormed
  workingDir : b.files.workingDir = files.workingDir
  target : b.target = none
  library : ¬ FileTree.isFileless s.databasePath → ∃ table,
    b.files.tableAt? (s.library files) = some table ∧ table.rows = files.rowsAt (s.library files)
  leaves : Leaves s files b.moves b.files
  primary : ∃ primary, b.primary = some primary ∧ primary.location =
      (if FileTree.isFileless s.databasePath then none else some (s.library files)) ∧
    List.Forall₂ (RevisedRow s w) (s.rows files) primary.table.rows
  jobs : ∀ job ∈ b.jobs, ∃ row ∈ s.rows files, IsFor s job row
  source : ∀ source, b.source = some source → ∃ visit, source = .table visit ∧
    Reviewing s files b.jobs b.primary visit

namespace Retouched

variable {b b' : Books}

theorem not_isDestructive (hmode : s.mode.origin = .table .byId) : ¬ s.mode.isDestructive := by
  cases hcase : s.mode with
  | rebuild => simp [hcase, Mode.origin] at hmode
  | compact checkNew => cases checkNew <;> simp [hcase, Mode.origin] at hmode
  | _ => simp [Mode.isDestructive]

theorem forall₂_refl (rows : List Row) : List.Forall₂ (RevisedRow s w) rows rows :=
  List.forall₂_same.2 fun row _ => .refl row.song

/-- Revised rows have the ids that there were. -/
theorem ids_eq {rows rows' : List Row} (h : List.Forall₂ (RevisedRow s w) rows rows') :
    rows'.map (·.id) = rows.map (·.id) := by
  induction h with
  | nil => rfl
  | @cons old new _ _ hrow _ ih =>
    have hid : new.id = old.id := Option.some.inj (show some new.id = some old.id from hrow.id)
    simp [hid, ih]

/-- Once the tables are open, every row is as it was. -/
theorem begin {source : Option Source} (hmode : s.mode.origin = .table .byId) (h : b.Ready s files)
    (hs : Books.Begins s b source) : Retouched s w files { b with source } := by
  have hd := not_isDestructive hmode
  have hplaces : s.places files = s.tablePlaces files := by simp [Setup.places, hd]
  obtain ⟨primary, hprimary, hrows, hlocation⟩ := h.primary
  refine ⟨h.retabled.wellFormed, h.retabled.workingDir, ?_, ?_, ?_, ⟨primary, hprimary, hlocation, ?_⟩,
    by simp [h.jobs], ?_⟩
  · simpa [hd] using h.target
  · intro hfile
    obtain ⟨table, htable⟩ := Option.isSome_iff_exists.1
      (h.tables (s.library files) (Setup.mem_tablePlaces.2 (.inl ⟨hfile, rfl⟩)))
    exact ⟨table, htable, (FileTree.rowsAt_of_table htable).symm.trans h.library⟩
  · rw [h.moves]
    exact (Leaves.refl s files).retabled fun l hl => h.retabled.get? l (hplaces ▸ hl)
  · rw [hrows]
    exact forall₂_refl _
  · rintro _ rfl
    cases hs with
    | files horigin => simp [hmode] at horigin
    | @table order primary' horigin hprimary' =>
      obtain rfl := Option.some.inj (hprimary.symm.trans hprimary')
      rw [hmode] at horigin
      cases horigin
      refine ⟨_, rfl, rfl, by simp [SongTable.visit], by simp [h.jobs], ?_⟩
      intro primary' hsome row hrow _
      obtain rfl := Option.some.inj (hprimary.symm.trans hsome)
      rwa [← hrows]

theorem stop (h : Retouched s w files b) : Retouched s w files { b with source := none } :=
  { h with source := by simp }

/-- The next song is one that there was, and there may be a job for it. -/
theorem settles {c : Candidate} {source : Source} (hmode : s.mode.origin = .table .byId)
    (h : Retouched s w files b) (ht : Books.Takes s b c source)
    (hs : Books.Settles s { b with source := some source } c b') : Retouched s w files b' := by
  cases ht with
  | file hsource =>
    obtain ⟨_, hvisit, -⟩ := h.source _ hsource
    cases hvisit
  | @visited visit visit' primary song hsource hprimary hnext =>
    obtain ⟨_, hvisit, hreviewing⟩ := h.source _ hsource
    cases hvisit
    obtain ⟨hnow, row, hrow, rfl, hid⟩ := hreviewing.next hprimary hnext
    rcases hs.byId_cases hmode with rfl | ⟨relative, rfl⟩
    · refine { h with source := ?_ }
      rintro _ ⟨⟩
      exact ⟨_, rfl, hnow⟩
    · have hfor : IsFor s ⟨resolve s.musicDir row.song.uri, row.song.uri, relative, some row.song⟩ row :=
        ⟨rfl, rfl, rfl⟩
      refine { h with jobs := fun job hjob => ?_, source := ?_ }
      · rcases List.mem_append.1 hjob with hjob | hjob
        · exact h.jobs job hjob
        · rw [List.mem_singleton.1 hjob]
          exact ⟨row, hrow, hfor⟩
      · rintro _ ⟨⟩
        exact ⟨_, rfl, hnow.queued hfor hid⟩

/-- A row that a song replaces is revised, if the song is a revision of the one with its id. -/
theorem forall₂_replaced {row : Row} {song : Song} {rows rows' : List Row} {table : SongTable}
    (hrows : rows = table.rows) (h : List.Forall₂ (RevisedRow s w) rows rows') (hrow : row ∈ rows)
    (hsong : Revised s w row.song song) :
    List.Forall₂ (RevisedRow s w) rows (rows'.map (SongTable.replaceRow · row.id song)) := by
  rw [List.forall₂_map_right_iff]
  rw [List.forall₂_iff_zip] at h ⊢
  refine ⟨h.1, fun {old new} hpair => ?_⟩
  have hrevised := h.2 hpair
  unfold SongTable.replaceRow
  split
  · next hid =>
    have hold : old ∈ rows := (List.of_mem_zip hpair).1
    have hsame : old.id = row.id :=
      (Option.some.inj (show some new.id = some old.id from hrevised.id)).symm.trans hid
    rw [hrows] at hold hrow
    obtain rfl := SongTable.eq_of_id hold hrow hsame
    have hidsong : song.id = some old.id := hsong.id
    rw [RevisedRow, Song.song_row, ← hidsong]
    exact hsong
  · exact hrevised

/-- A revised song may be saved. -/
theorem saves {song : Song} {row : Row} (h : Retouched s w files b) (hrow : row ∈ s.rows files)
    (hsong : Revised s w row.song song)
    (hahead : ∀ visit, b.source = some (.table visit) → row.id ≤ visit.cursor.id)
    (hs : Books.Saves b song b') : Retouched s w files b' := by
  cases hs with
  | refused => exact h
  | @saved primary table how hprimary hsave =>
    obtain ⟨_, hprimary', hlocation, hrows⟩ := h.primary
    obtain rfl := Option.some.inj (hprimary.symm.trans hprimary')
    have hid : song.id = some row.id := hsong.id
    obtain ⟨t, ht⟩ := s.exists_table files
    have hhas : ∃ r ∈ primary.table.rows, r.id = row.id := by
      have hmem : row.id ∈ primary.table.rows.map (·.id) := by
        rw [ids_eq hrows]
        exact List.mem_map_of_mem hrow
      exact List.mem_map.1 hmem
    have hsaved := SongTable.rows_of_save? hid hhas hsave
    refine { h with primary := ⟨_, rfl, hlocation, ?_⟩, source := ?_ }
    · rw [hsaved]
      exact forall₂_replaced ht hrows hrow hsong
    · intro source hsource
      obtain ⟨visit, rfl, hv⟩ := h.source source hsource
      refine ⟨visit, rfl, { hv with later := ?_ }⟩
      rintro _ hsome r hr hlt
      cases hsome
      rw [hsaved] at hr
      rcases SongTable.mem_replaced hr with ⟨heq, -⟩ | ⟨hr, -⟩
      · exact absurd (hahead visit hsource) (Int64.not_le.2 (heq ▸ hlt))
      · exact hv.later primary hprimary r hr hlt

/-- A file or a directory may be moved, as long as that leaves the table of the library
    alone. -/
theorem moves {song song' : Song} {path : Path} (h : Retouched s w files b)
    (hmode : s.mode = .reorganize) (hm : Books.Moves s b song path (song', b'))
    (hclear : ∀ move ∈ b'.moves, s.Clears files move) : Retouched s w files b' := by
  -- Moving carries files along, and the table is none of them.
  have hcarried : ∀ (move : Option (Path × Path)) {t : FileTree},
      Carries (move.map fun m => (b.files.destination m.1, b.files.destination m.2)) b.files t →
      (∀ m ∈ move, s.Clears files m) →
      Retouched s w files { b with files := t, moves := move.toList ++ b.moves } := by
    intro move t hc hclear
    refine { h with
      wellFormed := hc.wellFormed
      workingDir := hc.workingDir.trans h.workingDir
      library := ?_
      leaves := h.leaves.moved hmode h.workingDir hc hclear }
    intro hfile
    obtain ⟨table, htable, hrows⟩ := h.library hfile
    rw [FileTree.tableAt?_eq_some] at htable
    refine ⟨table, FileTree.tableAt?_eq_some.2 (hc.stays _ _ ?_ htable), hrows⟩
    intro source place hmoved
    obtain ⟨m, hm, heq⟩ := Option.map_eq_some_iff.1 hmoved
    cases heq
    rw [FileTree.destination_congr h.workingDir, FileTree.destination_congr h.workingDir]
    exact hclear m hm
  cases hm with
  | stays => exact h
  | @failed t relative failure hmove =>
    exact hcarried none (organizeFile_carries h.wellFormed hmove) (by simp)
  | @moved t relative place _ hmove =>
    refine hcarried (some (path, place)) (organizeFile_carries h.wellFormed hmove) ?_
    rintro _ ⟨⟩
    exact hclear _ (List.mem_cons_self ..)

/-- The file of a song may be written, which is not that of a table. -/
theorem written {path : Path} {before content : Content} {t : FileTree} {n : Nat}
    {tags : ParsedTags} {row : Row} (h : Retouched s w files b) (hw : w.Reliable)
    (hmode : s.mode = .writeTags) (hrow : row ∈ s.rows files)
    (hpath : path = resolve s.musicDir row.uri) (hread : b.files.read path = .ok before)
    (htags : w.readTags n path before = .ok tags) (hwrite : b.files.write path content = .ok t) :
    Retouched s w files { b with files := t } := by
  obtain ⟨l, hfind⟩ := FileTree.read_eq_ok_iff.1 hread
  obtain ⟨_, _, -, -, hget⟩ := FileTree.find_file_iff.1 hfind
  obtain ⟨k, hlands, rfl⟩ := FileTree.write_eq_ok_iff.1 hwrite
  have hk : k = l := by rw [hlands.eq_destination, (FileTree.route_of_find hfind).2]
  subst hk
  have hplace : k = files.destination path := by
    rw [hlands.eq_destination, FileTree.destination_congr h.workingDir]
  refine { h with
    wellFormed := h.wellFormed.put_file hlands content
    workingDir := h.workingDir
    library := ?_
    leaves := h.leaves.put hmode hget hrow (hplace.trans (by rw [hpath])) }
  intro hfile
  obtain ⟨table, htable, hrows⟩ := h.library hfile
  refine ⟨table, ?_, hrows⟩
  rw [← htable]
  refine FileTree.tableAt?_put_ne hlands.ne_nil _ ?_
  rintro rfl
  rw [FileTree.tableAt?_eq_some, hget] at htable
  cases htable
  exact hw.readTags _ _ _ _ htags

/-- Doing a job revises its song. -/
theorem works {job : Job} {jobs : List Job} {row : Row} (hw : w.Reliable)
    (h : Retouched s w files { b with jobs := job :: jobs }) (hjobs : b.jobs = jobs)
    (hrow : row ∈ s.rows files) (hfor : IsFor s job row)
    (hworks : Books.Retouches s w b job row.song b')
    (hclear : ∀ move ∈ b'.moves, s.Clears files move) : Retouched s w files b' := by
  subst hjobs
  have hrest : Retouched s w files b := by
    refine { h with jobs := fun job hjob => h.jobs job (List.mem_cons_of_mem _ hjob), source := ?_ }
    intro source hsource
    obtain ⟨visit, rfl, hv⟩ := h.source source hsource
    exact ⟨visit, rfl, { hv with jobs := fun job hjob => hv.jobs job (List.mem_cons_of_mem _ hjob) }⟩
  have hahead : ∀ visit, b.source = some (.table visit) → row.id ≤ visit.cursor.id := by
    intro visit hsource
    obtain ⟨_, heq, hv⟩ := h.source _ hsource
    cases heq
    exact hv.jobs job (List.mem_cons_self ..) row hfor
  cases hworks with
  | idle => exact hrest
  | written hmode hread htags hwrite =>
    exact hrest.written hw hmode hrow hfor.path hread htags hwrite
  | @revised song b₁ _ hmoves hsong hsaves =>
    have hsame : b'.moves = b₁.moves := by cases hsaves <;> rfl
    rcases hmoves with rfl | ⟨hmode, hmoves⟩
    · exact hrest.saves hrow hsong hahead hsaves
    · have hsource : b₁.source = b.source := by cases hmoves <;> rfl
      rw [hsame] at hclear
      exact (hrest.moves hmode hmoves hclear).saves hrow hsong (hsource ▸ hahead) hsaves

/-- **A run over the songs of a table only revises them**, whatever fails. -/
theorem lasting (hw : w.Reliable) (hmode : s.mode.origin = .table .byId) :
    Books.Lasting s w files fun b =>
      (∀ move ∈ b.moves, s.Clears files move) → Retouched s w files b where
  begin h hbegins _ := begin hmode h hbegins
  stop h hclear := (h hclear).stop
  settle h htakes hsettles hclear :=
    (h (hsettles.moves ▸ hclear)).settles hmode htakes hsettles
  work r job h hclear := by
    have hbefore := h fun move hmove => hclear move (Run.perform_moves_subset r job hmove)
    obtain ⟨row, hrow, hfor⟩ := hbefore.jobs job (List.mem_cons_self ..)
    have hworks := Run.perform_retouches hw hmode (r := r) hfor.existing hfor.key hfor.path
      hbefore.target
    exact hbefore.works hw rfl hrow hfor hworks hclear

end Retouched

/-! ## Whole runs -/

/-- What a run over the songs of a table comes to: every song is revised at most, and the
    files are left as the mode asks. -/
structure Retains (s : Setup) (w : Services) (files : FileTree) (r : Run) : Prop where
  songs : List.Forall₂ (Revised s w) ((s.rows files).map Row.song) ((s.rows r.files).map Row.song)
  leaves : Leaves s files r.history.moves r.files

namespace Retains

variable {r r' : Run}

theorem congr (h : Retains s w files r) (hfiles : r'.files = r.files)
    (hmoves : r'.history.moves = r.history.moves) : Retains s w files r' :=
  ⟨hfiles ▸ h.songs, hfiles ▸ hmoves ▸ h.leaves⟩

/-- The rows in the file are revised, where they are. -/
theorem of_rows {rows : List Row} (h : List.Forall₂ (RevisedRow s w) (s.rows files) rows)
    (hrows : s.rows r.files = rows) (hleaves : Leaves s files r.history.moves r.files) :
    Retains s w files r := by
  refine ⟨?_, hleaves⟩
  rw [hrows, List.forall₂_map_left_iff, List.forall₂_map_right_iff]
  exact h

end Retains

theorem Retouched.rows_eq {b : Books} (h : Retouched s w files b) :
    s.rows b.files = s.rows files := by
  unfold Setup.rows
  split
  · rfl
  · next hfile =>
    obtain ⟨table, htable, hrows⟩ := h.library hfile
    have hlibrary : s.library b.files = s.library files := FileTree.destination_congr h.workingDir _
    rw [hlibrary, FileTree.rowsAt_of_table htable, hrows]

/-- Until the table is closed its file has the rows that there were. -/
theorem Retouched.retains {r : Run} (h : Retouched s w files r.books) : Retains s w files r :=
  .of_rows (forall₂_refl _) h.rows_eq h.leaves

/-- Closing the table of the library, where there is no new one, writes it into its file, or
    does nothing. -/
theorem Run.finish_files {r : Run} {primary : OpenTable} (ht : r.target = none)
    (hp : r.primary = some primary) : (r.finish s w).1.files = r.files ∨
      ∃ l ∈ primary.location, (r.finish s w).1.files = r.files.keepTable l primary.table := by
  have hclosed : { r with source := none }.closeTarget w = ({ r with source := none }, .ok ()) := by
    simp [closeTarget, ht]
  have hcommit : Commits { r with source := none, primary := none } primary
      ({ r with source := none }.closePrimary w) := by
    simp only [closePrimary, hp]
    exact commit_cases w _ primary
  have hfiles : ∀ result, Commits { r with source := none, primary := none } primary result →
      result.1.files = r.files ∨
        ∃ l ∈ primary.location, result.1.files = r.files.keepTable l primary.table := by
    intro result hc
    cases hc with
    | failed _ => exact .inl rfl
    | fileless _ => exact .inl rfl
    | kept hl => exact .inr ⟨_, hl, rfl⟩
  have hfinished := r.finish_cases s w
  generalize r.finish s w = result at hfinished ⊢
  -- There is no new table to close or to put in the place of the old one.
  cases hfinished with
  | targetFails h₁ =>
    rw [hclosed] at h₁
    cases h₁
  | primaryFails h₁ h₂ =>
    rw [hclosed] at h₁
    cases h₁
    rw [h₂] at hcommit
    exact hfiles _ hcommit
  | renameFails _ _ hnew _ => simp [ht] at hnew
  | replaced _ _ hnew _ => simp [ht] at hnew
  | kept h₁ h₂ _ =>
    rw [hclosed] at h₁
    cases h₁
    rw [h₂] at hcommit
    rw [report_files]
    exact hfiles _ hcommit

/-- The rows that the run has revised are in the file once the table is closed. -/
theorem Retouched.finish {r : Run} (h : Retouched s w files r.books) :
    Retains s w files (r.finish s w).1 := by
  obtain ⟨primary, hprimary, hlocation, hrows⟩ := h.primary
  have hhistory := r.finish_history s w
  rcases Run.finish_files (s := s) (w := w) h.target hprimary with hfiles | ⟨l, hl, hfiles⟩
  · exact h.retains.congr hfiles (by rw [hhistory])
  · rw [hlocation] at hl
    split at hl
    · cases hl
    · next hfile =>
      obtain rfl := Option.some.inj hl
      obtain ⟨table, htable, -⟩ := h.library hfile
      have hne : s.library files ≠ [] := FileTree.ne_nil_of_get? (FileTree.tableAt?_eq_some.1 htable)
      have hkept : r.files.keepTable (s.library files) primary.table =
          r.files.put (s.library files) (.file (.songs primary.table)) := by
        rcases r.files.keepTable_cases (s.library files) primary.table with ⟨hnone, -⟩ | ⟨-, hkeep⟩
        · rw [show r.files.tableAt? _ = some table from htable] at hnone
          cases hnone
        · exact hkeep
      refine .of_rows hrows ?_ ?_
      · have hlibrary : s.library (r.finish s w).1.files = s.library files := by
          rw [hfiles, Setup.library, FileTree.destination_congr (FileTree.workingDir_keepTable _ _ _)]
          exact FileTree.destination_congr h.workingDir _
        rw [Setup.rows, if_neg hfile, hlibrary, hfiles, hkept,
          FileTree.rowsAt_of_table (FileTree.tableAt?_put_self hne _)]
      · rw [hhistory, hfiles, hkept]
        refine h.leaves.retabled fun l hl => ?_
        rw [FileTree.get?_put _ hne, if_neg]
        · rfl
        · rintro rfl
          exact hl (Setup.mem_tablePlaces.2 (.inl ⟨hfile, rfl⟩))

/-! ## Failures -/

namespace Run

variable {r r' : Run} {failure : Failure}

/-- Preparing leaves files alone, also if it fails. -/
theorem prepare_files (s : Setup) (w : Services) (r : Run) :
    (r.prepare s w).1.files = r.files ∧ (r.prepare s w).1.history = r.history := by
  let Same : Run → Prop := fun r' => r'.files = r.files ∧ r'.history = r.history
  have hchosen : Same (r.chooseNextId s w).1 := by
    unfold chooseNextId
    split
    · split
      · exact ⟨rfl, rfl⟩
      · split <;> exact ⟨rfl, rfl⟩
    · exact ⟨rfl, rfl⟩
  refine of_andThen (P := Same) hchosen fun r₁ h₁ => ?_
  have hopened : Same (r₁.openSource s w).1 := by
    unfold openSource
    split
    · exact h₁
    · split
      · exact h₁
      · split
        · exact h₁
        · split <;> exact h₁
  exact of_andThen (P := Same) hopened fun r₂ h₂ => h₂

/-- Looking at candidates moves no file and does no job. -/
theorem Looks.keeps (h : Looks s r r') : r'.files = r.files ∧
    r'.history.moves = r.history.moves ∧ r'.history.taken = r.history.taken := by
  induction h with
  | refl => exact ⟨rfl, rfl, rfl⟩
  | tail _ hl ih =>
    rw [← ih.1, ← ih.2.1, ← ih.2.2]
    cases hl with
    | copy _ hcopied _ => cases hcopied <;> exact ⟨rfl, rfl, rfl⟩
    | _ => exact ⟨rfl, rfl, rfl⟩

/-- Looking at candidates leaves files alone where it fails. -/
theorem gather_error (h : r.gather s w = (r', .error failure)) :
    r'.files = r.files ∧ r'.history.moves = r.history.moves := by
  unfold gather at h
  split at h
  · next r₁ hpull =>
    have hlooks := pull_looks (s := s) (w := w) (r := r) s.batch
    rw [hpull] at hlooks
    cases h
    exact ⟨(Looks.keeps hlooks).1, (Looks.keeps hlooks).2.1⟩
  · cases h

end Run

/-- A table that cannot be opened leaves the rows that there were. -/
theorem Retains.of_unopened {r r₁ : Run} {failure : Failure} (hmode : s.mode.origin = .table .byId)
    (hwf : files.WellFormed) (hfiles : r.files = files) (hmoves : r.history.moves = [])
    (h : r.start s w = (r₁, .error failure)) : Retains s w files r₁ := by
  subst hfiles
  have hopens := Run.openTable_cases w r s.databasePath
  have hretabled := hopens.retabled
    (.refl hwf : FileTree.Retabled (s.tablePlaces r.files) (s.tablePlaces r.files) r.files r.files)
    fun hfile =>
      have hplace : s.library r.files ∈ s.tablePlaces r.files :=
        Setup.mem_tablePlaces.2 (.inl ⟨hfile, rfl⟩)
      ⟨hplace, hplace⟩
  rw [Run.start, if_neg (Retouched.not_isDestructive hmode), Run.openPrimary] at h
  split at h
  · next hopen =>
    cases h
    rw [hopen] at hopens hretabled
    cases hopens with
    | @failed t table moment _ hopened =>
      have hrows : s.rows t = s.rows r.files := by
        have hlibrary : s.library t = s.library r.files :=
          FileTree.destination_congr hretabled.workingDir _
        rw [Setup.rows, Setup.rows, hlibrary]
        exact congrArg _ (hopened.rowsAt hwf _)
      refine .of_rows (Retouched.forall₂_refl _) hrows ?_
      rw [show ({ r with files := t, moment } : Run).history.moves = [] from hmoves]
      exact (Leaves.refl s r.files).retabled hretabled.get?
  · cases h

/-! ## Whole runs -/

section Runs

variable {o : Option Failure} {r r' : Run} (hmode : s.mode.origin = .table .byId)
  (hw : w.Reliable) (hwf : files.WellFormed)
include hmode hw hwf

/-- While the tables are open the invariant tells what is in the files. -/
theorem Retains.of_open (h : Reachable s w files o r) (hphase : r.phase ≠ .done)
    (hclear : ∀ move ∈ r.history.moves, s.Clears files move) : Retains s w files r := by
  cases Run.course_of_lasting hw hwf (Retouched.lasting hw hmode) h with
  | fresh _ hbooks hhistory =>
    have hfiles : r.files = files := congrArg Books.files hbooks
    refine .of_rows (Retouched.forall₂_refl _) (by rw [hfiles]) ?_
    rw [hhistory, hfiles]
    exact .refl s files
  | ready _ hr =>
    have hbegun : Retouched s w files { r with source := none }.books := .begin hmode hr .stopped
    exact hbegun.retains.congr rfl rfl
  | working _ hr => exact (hr hclear).retains
  | ended hdone => exact absurd hdone hphase

/-- Closing the tables keeps what they hold, whether it succeeds or fails. -/
theorem Retains.of_finish {result : Except Failure Unit} (h : Reachable s w files o r)
    (hphase : r.phase = .finish) (hfinish : r.finish s w = (r', result))
    (hclear : ∀ move ∈ r'.history.moves, s.Clears files move) : Retains s w files r' := by
  have hkept : r'.history = r.history := by simpa only [hfinish] using r.finish_history s w
  cases Run.course_of_lasting hw hwf (Retouched.lasting hw hmode) h with
  | fresh hstart _ _ => cases hstart.symm.trans hphase
  | ready hprepare _ => cases hprepare.symm.trans hphase
  | working _ hr =>
    have hretains := (hr (show ∀ move ∈ r.history.moves, _ from hkept ▸ hclear)).finish
    rwa [hfinish] at hretains
  | ended hdone => cases hdone.symm.trans hphase

/-- What a step leaves when it fails, by the phase it fails in. -/
theorem Retains.of_failed {failure : Failure} (h : Reachable s w files o r)
    (hact : r.act s w = (r', .error failure))
    (hclear : ∀ move ∈ r'.history.moves, s.Clears files move) : Retains s w files r' := by
  cases Run.act_error_cases hact with
  | start hphase hact =>
    cases Run.course_of_lasting hw hwf (Retouched.lasting hw hmode) h with
    | fresh _ hbooks hhistory =>
      exact .of_unopened hmode hwf (congrArg Books.files hbooks) (by rw [hhistory]) hact
    | ready hprepare _ => cases hprepare.symm.trans hphase
    | working hworking _ => simp [hphase] at hworking
    | ended hdone => cases hdone.symm.trans hphase
  | prepare hphase hact =>
    obtain ⟨hfiles, hhistory⟩ := r.prepare_files s w
    rw [hact] at hfiles hhistory
    exact (Retains.of_open hmode hw hwf h (by simp [hphase]) (hhistory ▸ hclear)).congr hfiles
      (by rw [hhistory])
  | gather hphase hact =>
    obtain ⟨hfiles, hmoves⟩ := Run.gather_error hact
    exact (Retains.of_open hmode hw hwf h (by simp [hphase]) (hmoves ▸ hclear)).congr hfiles hmoves
  | finish hphase hact => exact .of_finish hmode hw hwf h hphase hact hclear

end Runs

/-- A library whose template leads out of the music directory, to the table. -/
def outsideSetup : Setup :=
  .of { library := { orgPath := "x/../../songs" } } .reorganize (.ofString "/music")
    (.ofString "/songs.mp3") none .linux

/-- A library of one file, with its record. -/
def outsideFiles : FileTree where
  entries :=
    [([.ofString "music"], .directory),
      ([.ofString "music", .ofString "a.mp3"], .file (.text "a song")),
      ([.ofString "songs.mp3"], .file (.songs ⟨[(titled "a.mp3").row 1], by decide⟩))]

end SongLibrary.Reconcile
