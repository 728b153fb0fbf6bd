/-
  What matters for where records point.

  * `Books` are the parts of a state that records and files depend on: the files,
    the tables, the jobs that are left, where candidates come from, and the moves
    made so far;
  * `Books.Works` lists what doing a job does to them (`perform_books`),
    `Books.Takes` and `Books.Settles` what taking a candidate and settling it do
    (`nextCandidate_books`, `classify_books`), where no operation on a table fails;
  * a property that all of these keep (`Invariant`) is one of every run, once its
    tables are open (`course_of_reachable`).
-/
import SongLibrary.Proofs.Reconcile.Filling
import SongLibrary.Proofs.Reconcile.Tables

namespace SongLibrary.Reconcile

/-- The parts of a state that records and files depend on. -/
structure Books where
  files : FileTree
  primary : Option OpenTable
  target : Option OpenTable
  jobs : List Job
  source : Option Source
  moves : List (Path × Path)

/-- The books of a state. -/
def Run.books (r : Run) : Books :=
  ⟨r.files, r.primary, r.target, r.queue.toList, r.source, r.history.moves⟩

/-- What a run relies on where its records are concerned: also that no operation
    on a table fails. -/
structure Services.Sound (w : Services) : Prop extends w.Reliable where
  tableFails : ∀ n, w.tableFails n = false

namespace Books

variable (s : Setup) (w : Services) (b : Books)

/-! ## What a job does -/

/-- A file is moved or stays, and its record with it. -/
inductive Moves (song : Song) (path : Path) : Song × Books → Prop where
  | stays : Moves song path (song, b)
  | failed {files : FileTree} {relative : String} {failure : Failure}
      (h : organizeFile b.files path s.musicDir relative = (files, .error failure)) :
      Moves song path (song, { b with files })
  | moved {files : FileTree} {relative : String} {place : Path} (hne : relative ≠ song.uri)
      (h : organizeFile b.files path s.musicDir relative = (files, .ok place)) :
      Moves song path
        ({ song with uri := relative }, { b with files, moves := (path, place) :: b.moves })

/-- A song is stored in the table that the run writes, unless that does not take
    it. -/
inductive Stores (song : Song) : Books → Prop where
  | refused (h : b.target.isSome ∨ ∀ primary ∈ b.primary, primary.table.save? song = none) :
      Stores song b
  | added {target : OpenTable} {table : SongTable} {id : Int64} (given : Option Int64)
      (h : b.target = some target)
      (hinsert : target.table.insert? { song with id := given } = some (id, table)) :
      Stores song { b with target := some { target with table } }
  | saved {primary : OpenTable} {table : SongTable} {how : SongTable.Saved} (ht : b.target = none)
      (h : b.primary = some primary) (hsave : primary.table.save? song = some (how, table)) :
      Stores song { b with primary := some { primary with table } }

/-- What doing a job does. -/
inductive Works (job : Job) : Books → Prop where
  | idle : Works job b
  /-- The tags of the record are written into the file. -/
  | written {before content : Content} {files : FileTree} {n : Nat} {tags : ParsedTags}
      (hmode : s.mode = .writeTags) (hread : b.files.read job.path = .ok before)
      (htags : w.readTags n job.path before = .ok tags)
      (h : b.files.write job.path content = .ok files) : Works job { b with files }
  /-- Fields of the track list are taken over into the record. -/
  | tracks {existing song : Song} {b' : Books} (hmode : s.mode = .updateItunes)
      (he : job.existing = some existing) (huri : song.uri = existing.uri)
      (h : Stores b song b') (hid : song.id = existing.id) : Works job b'
  /-- The tags of the file are read into its record, and the file may be moved. -/
  | read {content : Content} {n : Nat} {tags : ParsedTags} {song song' : Song} {b₁ b₂ : Books}
      (hmode : s.mode ≠ .writeTags ∧ s.mode ≠ .updateItunes ∧ s.mode ≠ .reorganize)
      (hread : b.files.read job.path = .ok content)
      (htags : w.readTags n job.path content = .ok tags) (huri : song.uri = job.key)
      (hmoves : s.mode.allowsMoves ∧ Moves s b song job.path (song', b₁) ∨ song' = song ∧ b₁ = b)
      (hstores : job.existing = some song' ∧ b₂ = b₁ ∨ Stores b₁ song' b₂)
      (hid : s.mode ≠ .rebuild → song.id = job.existing.bind Song.id) : Works job b₂
  /-- The file is moved, and its record follows. -/
  | reorganized {existing song : Song} {b₁ b₂ : Books} (hmode : s.mode = .reorganize)
      (he : job.existing = some existing) (hmoves : Moves s b existing job.path (song, b₁))
      (hstores : song = existing ∧ b₂ = b₁ ∨ song ≠ existing ∧ Stores b₁ song b₂) : Works job b₂

variable {s w b}

theorem Moves.moves_subset {song song' : Song} {path : Path} {b' : Books}
    (h : Moves s b song path (song', b')) : b.moves ⊆ b'.moves := by
  cases h with
  | stays => exact List.Subset.refl _
  | failed _ => exact List.Subset.refl _
  | moved _ _ => exact List.subset_cons_self _ _

theorem Stores.moves {song : Song} {b' : Books} (h : Stores b song b') : b'.moves = b.moves := by
  cases h <;> rfl

/-- Moves are not forgotten. -/
theorem Works.moves_subset {job : Job} {b' : Books} (h : Works s w b job b') :
    b.moves ⊆ b'.moves := by
  have hstored : ∀ {P : Prop} {b₁ b₂ : Books} {song : Song}, P ∧ b₂ = b₁ ∨ Stores b₁ song b₂ →
      b₂.moves = b₁.moves := by
    rintro P b₁ b₂ song (⟨-, rfl⟩ | hstores)
    · rfl
    · exact hstores.moves
  cases h with
  | idle => exact List.Subset.refl _
  | written _ _ _ _ => exact List.Subset.refl _
  | tracks _ _ _ hstores => rw [hstores.moves]; exact List.Subset.refl _
  | read _ _ _ _ hmoves hstores =>
    rw [hstored hstores]
    rcases hmoves with ⟨-, hmoves⟩ | ⟨-, rfl⟩
    · exact hmoves.moves_subset
    · exact List.Subset.refl _
  | reorganized _ _ hmoves hstores =>
    rw [hstored (hstores.imp_right And.right)]
    exact hmoves.moves_subset

variable (s w b)

/-! ## What looking at candidates does -/

/-- The next candidate, and where the others come from. -/
inductive Takes : Candidate → Source → Prop where
  | file {path : Path} {paths : List Path} (h : b.source = some (.files (path :: paths))) :
      Takes ⟨path, keyOf s.musicDir path, none⟩ (.files paths)
  | visited {visit visit' : SongTable.Visit} {primary : OpenTable} {song : Song}
      (h : b.source = some (.table visit)) (hprimary : b.primary = some primary)
      (hnext : visit.next primary.table = (some song, visit')) :
      Takes ⟨resolve s.musicDir song.uri, song.uri, some song⟩ (.table visit')

/-- A song is the record of a candidate: its own, or the one the table has. -/
def IsRecordOf (c : Candidate) (song : Song) : Prop :=
  c.record = some song ∨
    c.record = none ∧ ∃ primary ∈ b.primary, primary.table.songAt? c.key = some song

/-- What settling a candidate does. -/
inductive Settles (c : Candidate) : Books → Prop where
  | idle : Settles c b
  | copied {song : Song} {target : OpenTable} {id : Int64} {table : SongTable}
      (hmode : ∃ checkNew, s.mode = .compact checkNew) (hrecord : b.IsRecordOf c song)
      (h : b.target = some target) (hinsert : target.table.insert? song = some (id, table)) :
      Settles c { b with target := some { target with table } }
  /-- There is no record of the file, or none that matters. -/
  | queuedNew (relative : String) (hrecord : s.mode = .rebuild ∨
      c.record = none ∧ ∀ primary ∈ b.primary, primary.table.songAt? c.key = none)
      (hrelative : relative = pathFrom s.root c.path) :
      Settles c { b with jobs := b.jobs ++ [⟨c.path, c.key, relative, none⟩] }
  | queuedOld {song : Song} (relative : String) (hrecord : b.IsRecordOf c song)
      (hmode : s.mode ≠ .rebuild ∧ s.mode ≠ .checkNew ∧ ∀ checkNew, s.mode ≠ .compact checkNew)
      (hrelative : relative = pathFrom s.root c.path) :
      Settles c { b with jobs := b.jobs ++ [⟨c.path, c.key, relative, some song⟩] }

variable {s b}

theorem Settles.moves {c : Candidate} (h : Settles s b c b') : b'.moves = b.moves := by
  cases h <;> rfl

/-- In a run over the songs of a table a song is passed over, or there will be a job for it. -/
theorem Settles.byId_cases {path : Path} {key : String} {song : Song}
    (hmode : s.mode.origin = .table .byId) (h : Settles s b ⟨path, key, some song⟩ b') :
    b' = b ∨ ∃ relative, b' = { b with jobs := b.jobs ++ [⟨path, key, relative, some song⟩] } := by
  cases h with
  | idle => exact .inl rfl
  | copied hcompact _ _ _ =>
    obtain ⟨checkNew, hcompact⟩ := hcompact
    cases checkNew <;> simp [hcompact, Mode.origin] at hmode
  | queuedNew _ hrecord _ =>
    rcases hrecord with hrebuild | ⟨hnone, -⟩
    · simp [hrebuild, Mode.origin] at hmode
    · cases hnone
  | queuedOld relative hrecord _ _ =>
    rcases hrecord with hown | ⟨hnone, -⟩
    · cases hown
      exact .inr ⟨relative, rfl⟩
    · cases hnone

end Books

namespace Run

open Books

variable {s : Setup} {w : Services} {r r' : Run}

/-! ## Jobs -/

theorem store_books (hw : w.Sound) (r : Run) (song : Song) (existed : Bool) :
    Stores r.books song (r.store w song existed).books := by
  obtain ⟨r₁, counter, hstored, -, heq⟩ := r.store_cases w song existed
  rw [heq]
  cases hstored with
  | failed _ _ h =>
    have hrefused : r.target.isSome ∨ ∀ primary ∈ r.primary, primary.table.save? song = none := by
      simpa [hw.tableFails] using h
    exact .refused hrefused
  | added given _ _ h hinsert => exact .added given h hinsert
  | saved _ ht h hsave => exact .saved ht h hsave

theorem rename_books (hw : w.Reliable) (r : Run) (song : Song) (path : Path) (bypass : Option String)
    (force : Bool) : Moves s r.books song path
      ((r.rename s w song path bypass force).1, (r.rename s w song path bypass force).2.books) := by
  obtain ⟨song', r₁, hrenamed, heq⟩ := r.rename_cases s w song path bypass force
  have hmoves : Moves s r.books song path (song', r₁.books) := by
    cases hrenamed with
    | stays => exact .stays
    | failed h =>
      rw [hw.move] at h
      exact .failed h
    | moved hne h =>
      rw [hw.move] at h
      exact .moved hne h
  rcases heq with heq | ⟨counter, -, heq⟩ <;> rw [heq] <;> exact hmoves

/-- Taking over changes tags alone. -/
theorem takeOver_tags (w : Services) (fields : List (TagKey × String)) (song : Song) :
    ∃ tags, fields.foldl (takeOver w) song = { song with tags } := by
  induction fields generalizing song with
  | nil => exact ⟨song.tags, rfl⟩
  | cons field rest ih =>
    obtain ⟨tags, heq⟩ := ih (takeOver w song field)
    rw [List.foldl_cons, heq]
    unfold takeOver
    split <;> exact ⟨tags, rfl⟩

theorem updateFromFile_books (hw : w.Sound) (job : Job)
    (hmode : s.mode ≠ .writeTags ∧ s.mode ≠ .updateItunes ∧ s.mode ≠ .reorganize) :
    Works s w r.books job (r.updateFromFile s w job).books := by
  have hcases := r.updateFromFile_cases s w job
  generalize r.updateFromFile s w job = r' at hcases
  cases hcases with
  | noTags moment => exact .idle
  | @kept content parsed date tags moment song r₁ hread htags hmoved =>
    have hid : s.mode ≠ .rebuild →
        (s.recordWith job date tags).id = job.existing.bind Song.id := by
      intro hne
      rw [Setup.recordWith_id, Setup.recordBefore?_of_ne hne]
    have hmoves : s.mode.allowsMoves ∧
          Moves s r.books (s.recordWith job date tags) job.path (song, r₁.books) ∨
        song = s.recordWith job date tags ∧ r₁.books = r.books := by
      rcases hmoved with ⟨⟨-, hallows⟩, hrename⟩ | ⟨rfl, rfl⟩
      · have hrenamed := rename_books (s := s) hw.toReliable { r with moment }
          (s.recordWith job date tags) job.path (s.bypass? job.relative) false
        rw [hrename] at hrenamed
        exact .inl ⟨hallows, hrenamed⟩
      · exact .inr ⟨rfl, rfl⟩
    refine .read hmode hread htags (Setup.recordWith_uri date tags) hmoves ?_ hid
    split
    · next hsame => exact .inl ⟨Setup.existing_of_recordBefore? hsame, rfl⟩
    · exact .inr (store_books hw r₁ song _)

theorem writeTags_books (job : Job) (hmode : s.mode = .writeTags) :
    Works s w r.books job (r.writeTags w job).books := by
  obtain ⟨moment, hasked, htags⟩ := r.readTags_cases w job.path
  unfold writeTags
  split
  · exact .idle
  · next song _ =>
    split
    · next r₁ hread =>
      rw [hread] at hasked
      subst hasked
      exact .idle
    · next parsed r₁ hread =>
      rw [hread] at hasked htags
      subst hasked
      obtain ⟨content, hcontent, hparsed⟩ := htags parsed rfl
      unfold writeInto
      split
      · exact .idle
      · split
        · exact .idle
        · exact .idle
        · split
          · exact .idle
          · next files hfiles => exact .written hmode hcontent hparsed hfiles

theorem updateFromTracks_books (hw : w.Sound) (job : Job) (hmode : s.mode = .updateItunes) :
    Works s w r.books job (r.updateFromTracks w job).books := by
  unfold updateFromTracks
  split
  · exact .idle
  · next existing he =>
    split
    · exact .idle
    · dsimp only
      split
      · exact .idle
      · next fields _ _ =>
        obtain ⟨tags, heq⟩ := takeOver_tags w fields.toList existing
        exact .tracks hmode he (by rw [heq]) (store_books hw r.asked _ true) (by rw [heq])

theorem reorganize_books (hw : w.Sound) (job : Job) (hmode : s.mode = .reorganize) :
    Works s w r.books job (r.reorganize s w job).books := by
  unfold reorganize
  split
  · exact .idle
  · next existing he =>
    have hmoves := rename_books (s := s) hw.toReliable r existing job.path (s.bypass? job.relative) true
    refine .reorganized hmode he hmoves ?_
    dsimp only
    split
    · next heq => exact .inl ⟨heq, rfl⟩
    · next hne => exact .inr ⟨hne, store_books hw _ _ true⟩

/-- **Doing a job works on the books.** -/
theorem perform_books (hw : w.Sound) (r : Run) (job : Job) :
    Works s w r.books job (r.perform s w job).books := by
  unfold perform
  split
  · next hmode => exact writeTags_books job hmode
  · next hmode => exact updateFromTracks_books hw job hmode
  · next hmode => exact reorganize_books hw job hmode
  all_goals
    next hmode => exact updateFromFile_books hw job (by simp [hmode])

/-! ## Candidates -/

theorem nextCandidate_books {c : Candidate} (h : r.nextCandidate s w = (r', .ok (some c))) :
    ∃ source, r'.books = { r.books with source := some source } ∧ Takes s r.books c source := by
  unfold nextCandidate at h
  split at h
  · cases h
  · cases h
  · next path paths hsource =>
    cases h
    exact ⟨_, rfl, .file hsource⟩
  · next visit hsource =>
    split at h
    · cases h
    · split at h
      · cases h
      · next primary hprimary =>
        dsimp only at h
        split at h
        · cases h
        · next song visit' hnext =>
          cases h
          refine ⟨.table visit', ?_, .visited hsource hprimary hnext⟩
          split <;> rfl

theorem existingRecord_books {c : Candidate} {existing : Option Song}
    (h : r.existingRecord s w c = (r', .ok existing)) :
    r'.books = r.books ∧ (existing = none ∧ (s.mode = .rebuild ∨
        c.record = none ∧ ∀ primary ∈ r.primary, primary.table.songAt? c.key = none) ∨
      ∃ song, existing = some song ∧ s.mode ≠ .rebuild ∧ r.books.IsRecordOf c song) := by
  unfold existingRecord at h
  split at h
  · next hmode =>
    cases h
    exact ⟨rfl, .inl ⟨rfl, .inl hmode⟩⟩
  · next hmode =>
    split at h
    · next song hrecord =>
      cases h
      exact ⟨rfl, .inr ⟨song, rfl, hmode, .inl hrecord⟩⟩
    · next hrecord =>
      split at h
      · cases h
      · split at h
        · cases h
        · next primary hprimary =>
          cases h
          refine ⟨rfl, ?_⟩
          cases hsong : primary.table.songAt? c.key with
          | none =>
            refine .inl ⟨rfl, .inr ⟨hrecord, ?_⟩⟩
            intro primary' hprimary'
            rw [hprimary] at hprimary'
            cases hprimary'
            exact hsong
          | some song => exact .inr ⟨song, rfl, hmode, .inr ⟨hrecord, primary, hprimary, hsong⟩⟩

theorem enqueue_books (r : Run) (c : Candidate) (existing : Option Song) :
    (r.enqueue s c existing).books = r.books ∨ (r.enqueue s c existing).books =
      { r.books with
        jobs := r.books.jobs ++ [⟨c.path, c.key, pathFrom s.root c.path, existing⟩] } := by
  unfold enqueue
  split
  · exact .inl rfl
  · split
    · exact .inl rfl
    · next queue hpush =>
      refine .inr ?_
      simp only [books, count, Queue.toList_push hpush]

theorem settle_books {c : Candidate} {existing : Option Song}
    (h : existing = none ∧ (s.mode = .rebuild ∨
        c.record = none ∧ ∀ primary ∈ r.primary, primary.table.songAt? c.key = none) ∨
      ∃ song, existing = some song ∧ s.mode ≠ .rebuild ∧ r.books.IsRecordOf c song) :
    Settles s r.books c (r.settle s w c existing).books := by
  unfold settle
  split
  · have hnone := h.resolve_right (by simp)
    rcases r.enqueue_books c none with heq | heq <;> rw [heq]
    · exact .idle
    · exact .queuedNew _ hnone.2 rfl
  · exact .idle
  · next song checkNew hmode =>
    obtain ⟨_, hsong, -, hrecord⟩ := h.resolve_left (by simp)
    cases hsong
    obtain ⟨r₁, hcopied, heq⟩ := copyRecord_cases w (r.count .alreadyInTable) song
    rw [heq]
    cases hcopied with
    | repeated _ => exact .idle
    | added htarget hinsert => exact .copied ⟨checkNew, hmode⟩ hrecord htarget hinsert
    | failed => exact .idle
  · next song hcheckNew hcompact =>
    obtain ⟨_, hsong, hrebuild, hrecord⟩ := h.resolve_left (by simp)
    cases hsong
    rcases (r.count .alreadyInTable).enqueue_books (s := s) c (some song) with heq | heq <;>
      rw [heq]
    · exact .idle
    · exact .queuedOld _ hrecord ⟨hrebuild, hcheckNew, hcompact⟩ rfl

theorem classify_books {c : Candidate} (h : r.classify s w c = (r', .ok ())) :
    Settles s r.books c r'.books := by
  unfold classify at h
  dsimp only at h
  split at h
  · cases h
    exact .idle
  · split at h
    · cases h
      exact .idle
    · split at h
      · cases h
      · next r₁ existing hexisting =>
        cases h
        obtain ⟨hbooks, hrecord⟩ := existingRecord_books hexisting
        have hsame : r₁.books = r.books := hbooks
        have hprimary : r₁.primary = r.primary := congrArg Books.primary hsame
        rw [← hsame]
        refine settle_books ?_
        rw [hsame, hprimary]
        exact hrecord

end Run

end SongLibrary.Reconcile
