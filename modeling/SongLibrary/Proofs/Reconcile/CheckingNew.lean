/-
  Runs that add the files that are new.

  * `Setup.newSongs` are the songs that such a run is to add, found in one pass over the
    files: `check_new_adds_missing` is the main statement;
  * `CheckingNew` is the invariant: the songs of the files seen so far are in the table, or
    there are jobs for them.  Rows that the run adds itself do not make it pass over a file,
    since files have keys of their own.
-/
import SongLibrary.Proofs.Reconcile.Distinct
import SongLibrary.Proofs.Reconcile.Filling
import SongLibrary.Proofs.Reconcile.Slices
import SongLibrary.Proofs.SongTable.Dates
import SongLibrary.Proofs.SongTable.NewIds

namespace SongLibrary.Reconcile

variable {s : Setup} {w : Services} {files t : FileTree} {r r' : Run}

/-! ## The songs of new files -/

namespace Setup

/-- A file that is to be added to some rows: there is no reason to leave it out, no row is
    at its key, and its name is not bad. -/
def IsNew (s : Setup) (rows : List Row) (p : Path) : Prop :=
  s.classifier.skipReason? p true = none ∧ (∀ row ∈ rows, row.uri ≠ keyOf s.musicDir p) ∧
    s.classifier.isBadName p = false

instance (s : Setup) (rows : List Row) (p : Path) : Decidable (s.IsNew rows p) :=
  inferInstanceAs (Decidable (_ ∧ _ ∧ _))

/-- The song of a file, aside from its date: its tags, and what its path tells, unless it
    has no tags with a length. -/
def newSong? (s : Setup) (w : Services) (t : FileTree) (p : Path) : Option Song :=
  match t.read p with
  | .error _ => none
  | .ok content =>
    match w.readTags 0 p content with
    | .error _ => none
    | .ok parsed =>
      if parsed.isEmpty then none
      else some (fillDerived s.refs s.readingTemplate (pathFrom s.root p)
        { Song.new (keyOf s.musicDir p) "" with tags := parsed.tags })

/-- The songs of the new ones of some files. -/
def newSongs (s : Setup) (w : Services) (t : FileTree) (rows : List Row) (paths : List Path) :
    List Song :=
  (paths.filter fun p => s.IsNew rows p).filterMap (s.newSong? w t)

/-- The files once the table of the library is open. -/
def opened (s : Setup) (files : FileTree) : FileTree :=
  (files.openTable s.databasePath).1

/-- The job for a new file. -/
def newJob (s : Setup) (p : Path) : Job :=
  ⟨p, keyOf s.musicDir p, pathFrom s.root p, none⟩

/-- The song of a new file has its key, and neither an id nor a date. -/
theorem newSong?_eq_some {p : Path} {song : Song} (h : s.newSong? w t p = some song) :
    ∃ tags, song = { Song.new (keyOf s.musicDir p) "" with tags } := by
  unfold newSong? at h
  split at h
  · cases h
  · split at h
    · cases h
    · split at h
      · cases h
      · next parsed _ _ =>
        obtain ⟨g, hg⟩ := onTags_fillDerived s.refs s.readingTemplate (pathFrom s.root p)
        cases h
        exact ⟨g parsed.tags, hg _⟩

theorem newSongs_concat (rows : List Row) (paths : List Path) (p : Path) :
    s.newSongs w t rows (paths ++ [p]) = s.newSongs w t rows paths ++
      if s.IsNew rows p then (s.newSong? w t p).toList else [] := by
  unfold newSongs
  rw [List.filter_append, List.filterMap_append]
  congr 1
  by_cases hnew : s.IsNew rows p
  · cases hsong : s.newSong? w t p <;> simp [hnew, hsong]
  · simp [hnew]

end Setup

/-! ## Doing a job -/

namespace Run

/-- A song without an id goes into the table of the library, if that takes it. -/
theorem store_new {primary : OpenTable} {song : Song} {id : Int64} {table : SongTable}
    (hw : w.Sound) (htarget : r.target = none) (hprimary : r.primary = some primary)
    (hid : song.id = none) (hinsert : primary.table.insert? song = some (id, table)) :
    r.store w song false =
      ({ r with primary := some { primary with table }, moment := r.moment + 1 }).count .new := by
  have hsave : primary.table.save? song = some (.inserted id, table) := by
    simp [SongTable.save?, hid, hinsert]
  simp [store, storeIn, saveToPrimary, hw.tableFails, htarget, hprimary, hsave, asked]

/-- What doing the job for a new file comes to, where files are not moved. -/
inductive Adds (s : Setup) (w : Services) (r : Run) (p : Path) : Run → Prop where
  | passed (moment : Nat) (h : s.newSong? w r.files p = none) :
      Adds s w r p ({ r with moment }.skip .noTags)
  | added {song : Song} {primary : OpenTable} {id : Int64} {table : SongTable} (date : String)
      (moment : Nat) (h : s.newSong? w r.files p = some song) (hprimary : r.primary = some primary)
      (hinsert : primary.table.insert? { song with dateAdded := date } = some (id, table)) :
      Adds s w r p (({ r with primary := some { primary with table }, moment }.count .new).count
        .processed)

/-- **The job for a new file stores its song**, unless it has no tags with a length; the file
    may be moved before that. -/
theorem perform_fresh {p : Path} (hw : w.Steady)
    (hmode : s.mode = .checkNew ∨ ∃ checkNew, s.mode = .compact checkNew) (r : Run) :
    ∃ moment, s.newSong? w r.files p = none ∧
        r.perform s w (s.newJob p) = { r with moment }.skip .noTags ∨
      ∃ content parsed song date, r.files.read p = .ok content ∧
        w.readTags 0 p content = .ok parsed ∧ s.newSong? w r.files p = some song ∧
        r.perform s w (s.newJob p) =
          let (song, r) := if s.autoOrganize && s.mode.allowsMoves then
              { r with moment }.rename s w { song with dateAdded := date } p
                (s.bypass? (pathFrom s.root p)) false
            else ({ song with dateAdded := date }, { r with moment })
          (r.store w song false).count .processed := by
  have hrebuild : s.mode ≠ .rebuild := by
    rcases hmode with hmode | ⟨_, hmode⟩ <;> simp [hmode]
  have hperform : r.perform s w (s.newJob p) = r.updateFromFile s w (s.newJob p) := by
    rcases hmode with hmode | ⟨_, hmode⟩ <;> simp only [perform, hmode]
  have hread : r.readTags w (s.newJob p).path = match r.files.read p with
      | .error _ => (none, r)
      | .ok content => ((w.readTags 0 p content).toOption, r.asked) := by
    unfold readTags
    rw [hw.reads r.moment 0]
    rfl
  rw [hperform, updateFromFile, hread]
  cases hcontent : r.files.read p with
  | error fault => exact ⟨r.moment, .inl ⟨by simp [Setup.newSong?, hcontent], rfl⟩⟩
  | ok content =>
    dsimp only
    cases htags : w.readTags 0 p content with
    | error failure => exact ⟨r.moment + 1, .inl ⟨by simp [Setup.newSong?, hcontent, htags], rfl⟩⟩
    | ok parsed =>
      simp only [Except.toOption]
      by_cases hempty : parsed.isEmpty
      · rw [if_pos hempty]
        exact ⟨r.moment + 1, .inl ⟨by simp [Setup.newSong?, hcontent, htags, hempty], rfl⟩⟩
      · obtain ⟨g, hg⟩ := onTags_fillDerived s.refs s.readingTemplate (pathFrom s.root p)
        have hsong : s.newSong? w r.files p =
            some { Song.new (keyOf s.musicDir p) "" with tags := g parsed.tags } := by
          simp [Setup.newSong?, hcontent, htags, hempty, hg]
        rw [if_neg hempty]
        refine ⟨r.moment + 2, .inr ⟨content, parsed, _, w.now r.asked.moment, rfl, htags, hsong, ?_⟩⟩
        simp only [if_neg hrebuild, Setup.newJob, recordFor, hg, Option.isSome_none, reduceCtorEq,
          if_false]
        rfl

/-- The job for a new file stores its song, where files are not moved. -/
theorem perform_new {p : Path} (hw : w.Steady)
    (hmode : s.mode = .checkNew ∨ ∃ checkNew, s.mode = .compact checkNew)
    (horganize : (s.autoOrganize && s.mode.allowsMoves) = false) (r : Run) :
    ∃ moment, s.newSong? w r.files p = none ∧
        r.perform s w (s.newJob p) = { r with moment }.skip .noTags ∨
      ∃ song date, s.newSong? w r.files p = some song ∧
        r.perform s w (s.newJob p) =
          ({ r with moment }.store w { song with dateAdded := date } false).count .processed := by
  obtain ⟨moment, hnone | ⟨_, _, song, date, -, -, hsong, heq⟩⟩ :=
    r.perform_fresh (s := s) (p := p) hw hmode
  · exact ⟨moment, .inl hnone⟩
  · refine ⟨moment, .inr ⟨song, date, hsong, ?_⟩⟩
    simpa only [horganize, Bool.false_eq_true, if_false] using heq

theorem perform_adds {primary : OpenTable} {p : Path} (hw : w.Steady) (hmode : s.mode = .checkNew)
    (horganize : s.autoOrganize = false) (htarget : r.target = none)
    (hprimary : r.primary = some primary)
    (hroom : (s.newSong? w r.files p).isSome →
      ∀ song : Song, song.id = none → (primary.table.insert? song).isSome) :
    Adds s w r p (r.perform s w (s.newJob p)) := by
  obtain ⟨moment, ⟨hnone, heq⟩ | ⟨song, date, hsong, heq⟩⟩ :=
    r.perform_new (s := s) (p := p) hw (.inl hmode) (by rw [horganize, Bool.false_and])
  · rw [heq]
    exact .passed moment hnone
  · have hid : ({ song with dateAdded := date } : Song).id = none := by
      obtain ⟨tags, rfl⟩ := Setup.newSong?_eq_some hsong
      rfl
    obtain ⟨⟨id, table⟩, hinsert⟩ := Option.isSome_iff_exists.1 (hroom (by rw [hsong]; rfl) _ hid)
    rw [heq, store_new (r := { r with moment }) hw.toSound htarget hprimary hid hinsert]
    exact .added date (moment + 1) hsong hprimary hinsert

/-! ## Looking at a candidate -/

/-- What looking at a file comes to in a run that adds new files to some rows. -/
inductive Regards (s : Setup) (r : Run) (rows : List Row) (p : Path) : Run → Prop where
  | passed (counters : Counters) (moment : Nat) (history : History) (h : ¬ s.IsNew rows p)
      (hmoves : history.moves = r.history.moves) (hnew : counters.get .new = r.counters.get .new) :
      Regards s r rows p { r with counters, moment, history }
  | queued {queue : Queue Job} (counters : Counters) (moment : Nat) (history : History)
      (h : s.IsNew rows p) (hpush : r.queue.push (s.newJob p) = some queue)
      (hmoves : history.moves = r.history.moves) (hnew : counters.get .new = r.counters.get .new) :
      Regards s r rows p { r with queue, counters, moment, history }

theorem get_skip {counters : Counters} {reason counter : Counter} (h : counter ≠ reason)
    (hs : counter ≠ .skipped) : (counters.skip reason).get counter = counters.get counter := by
  simp [Counters.skip, Counters.increment, h, hs]

theorem Regards.of_noted {rows : List Row} {p : Path} {counters : Counters} {moment : Nat}
    {history : History} (h : Regards s { r with counters, moment, history } rows p r')
    (hmoves : history.moves = r.history.moves) (hnew : counters.get .new = r.counters.get .new) :
    Regards s r rows p r' := by
  cases h with
  | passed counters moment history h hmoves' hnew' =>
    exact .passed counters moment history h (hmoves'.trans hmoves) (hnew'.trans hnew)
  | queued counters moment history h hpush hmoves' hnew' =>
    exact .queued counters moment history h hpush (hmoves'.trans hmoves) (hnew'.trans hnew)

/-- A run that adds files asks the table for the record of a file. -/
theorem existingRecord_checkNew {primary : OpenTable} {c : Candidate} (hw : w.Sound)
    (hmode : s.mode = .checkNew) (hprimary : r.primary = some primary) (hrecord : c.record = none) :
    r.existingRecord s w c = (r.asked, .ok (primary.table.songAt? c.key)) := by
  simp [existingRecord, hmode, hrecord, hw.tableFails, hprimary]

theorem settle_regards {table : SongTable} {p : Path} (hmode : s.mode = .checkNew)
    (hopen : r.queue.closed = false) (hreason : s.classifier.skipReason? p true = none) :
    Regards s r table.rows p
      (r.settle s w ⟨p, keyOf s.musicDir p, none⟩ (table.songAt? (keyOf s.musicDir p))) := by
  cases hsong : table.songAt? (keyOf s.musicDir p) with
  | some song =>
    obtain ⟨row, hrow, -, huri, -⟩ := SongTable.songAt?_eq_some_iff.1 hsong
    simp only [settle, hmode]
    refine .passed _ r.moment _ (fun hnew => hnew.2.1 row hrow huri) rfl ?_
    simp [count, Counters.increment]
  | none =>
    have hrows := SongTable.songAt?_eq_none_iff.1 hsong
    rw [settle_none, enqueue]
    split
    · next hbad =>
      have hbad : s.classifier.isBadName p = true := hbad
      exact .passed (r.counters.skip .badFileName) r.moment _ (fun hnew => by simp [hnew.2.2] at hbad)
        rfl (get_skip (by decide) (by decide))
    · next hgood =>
      have hgood : ¬ s.classifier.isBadName p = true := hgood
      obtain ⟨queue, hpush⟩ : ∃ queue, r.queue.push (s.newJob p) = some queue := by
        simp [Queue.push, hopen]
      have hpushed : r.queue.push ⟨p, keyOf s.musicDir p, pathFrom s.root p, none⟩ = some queue :=
        hpush
      rw [hpushed]
      refine .queued _ r.moment _ ⟨hreason, hrows, by simpa using hgood⟩ hpush rfl ?_
      simp [Counters.increment, Counters.raise, count]

theorem classify_regards {primary : OpenTable} {p : Path} (hw : w.Sound) (hmode : s.mode = .checkNew)
    (hprimary : r.primary = some primary) (hopen : r.queue.closed = false)
    (h : r.classify s w ⟨p, keyOf s.musicDir p, none⟩ = (r', .ok ())) :
    Regards s r primary.table.rows p r' := by
  have hfound : (r.see ⟨p, keyOf s.musicDir p, none⟩).counters.get .new = r.counters.get .new := by
    simp [see, count, Counters.increment]
  suffices hseen : Regards s (r.see ⟨p, keyOf s.musicDir p, none⟩) primary.table.rows p r' from
    Regards.of_noted (r := r) hseen rfl hfound
  have hprimary' : (r.see ⟨p, keyOf s.musicDir p, none⟩).primary = some primary := hprimary
  rw [classify_eq] at h
  split at h
  · next reason hreason =>
    cases h
    exact .passed _ r.moment _ (fun hnew => by simp [hnew.1] at hreason) rfl
      (get_skip (by cases reason <;> decide) (by decide))
  · next hreason =>
    rw [if_neg (by simp), existingRecord_checkNew hw hmode hprimary' rfl] at h
    cases h
    exact (settle_regards (r := (r.see _).asked) hmode hopen hreason).of_noted rfl rfl

/-! ## Files to look at -/

/-- The files that a run has still to look at. -/
structure Feeds (r : Run) (rest : List Path) : Prop where
  coming : ∀ source ∈ r.source, source = .files rest
  ended : r.source = none → rest = []

variable {rest : List Path} {r₁ : Run}

/-- There is no candidate left just when there is no such file. -/
theorem Feeds.exhaust (h : r.Feeds rest)
    (hnext : r.nextCandidate s w = (r₁, .ok none)) : r₁ = r ∧ rest = [] := by
  unfold nextCandidate at hnext
  split at hnext
  · next hsource =>
    cases hnext
    exact ⟨rfl, h.ended hsource⟩
  · next hsource =>
    cases hnext
    cases h.coming _ hsource
    exact ⟨rfl, rfl⟩
  · cases hnext
  · next hsource => cases h.coming _ hsource

theorem Feeds.next {c : Candidate} (h : r.Feeds rest)
    (hnext : r.nextCandidate s w = (r₁, .ok (some c))) : ∃ p paths, rest = p :: paths ∧
      r₁ = { r with source := some (.files paths) } ∧ c = ⟨p, keyOf s.musicDir p, none⟩ := by
  unfold nextCandidate at hnext
  split at hnext
  · cases hnext
  · cases hnext
  · next p paths hsource =>
    cases hnext
    cases h.coming _ hsource
    exact ⟨p, paths, rfl, rfl, rfl⟩
  · next hsource => cases h.coming _ hsource

end Run

/-! ## The course of such a run -/

/-- The songs of the new files seen so far are in the table, or there are jobs for them. -/
structure NewlyAdded (s : Setup) (w : Services) (t : FileTree) (old : List Row) (r : Run)
    (primary : OpenTable) (seen rest : List Path) (stored : List Song) : Prop where
  walk : t.walk s.root = seen ++ rest
  coming : ∀ source ∈ r.source, source = .files rest
  ended : r.source = none → rest = []
  rows : ∃ added, primary.table.rows = old ++ added ∧
    added.map Row.undated = rowsAfter (largestId old) stored
  largest : largestId primary.table.rows = largestId old + stored.length
  songs : s.newSongs w t old seen =
    stored ++ r.queue.toList.filterMap fun job => s.newSong? w t job.path
  jobs : ∀ job ∈ r.queue.toList, job = s.newJob job.path
  count : r.counters.get .new = .ofNat stored.length

namespace NewlyAdded

variable {old : List Row} {primary : OpenTable} {seen rest : List Path} {stored : List Song}
  {p : Path}

theorem feeds (h : NewlyAdded s w t old r primary seen rest stored) : r.Feeds rest :=
  ⟨h.coming, h.ended⟩

theorem exists_path {song : Song} (h : NewlyAdded s w t old r primary seen rest stored)
    (hsong : song ∈ stored) : ∃ q ∈ seen, song.uri = keyOf s.musicDir q := by
  have hmem : song ∈ s.newSongs w t old seen := by
    rw [h.songs]
    exact List.mem_append_left _ hsong
  obtain ⟨q, hq, hsome⟩ := List.mem_filterMap.1 hmem
  obtain ⟨tags, rfl⟩ := Setup.newSong?_eq_some hsome
  exact ⟨q, (List.mem_filter.1 hq).1, rfl⟩

/-- A file is new to the table if it was new to the table as it was before: the rows added
    since are at the keys of other files. -/
theorem isNew_iff (h : NewlyAdded s w t old r primary seen (p :: rest) stored)
    (hkeys : ((t.walk s.root).map (keyOf s.musicDir)).Nodup) :
    s.IsNew primary.table.rows p ↔ s.IsNew old p := by
  obtain ⟨added, hrows, hadded⟩ := h.rows
  have hapart : ∀ row ∈ added, row.uri ≠ keyOf s.musicDir p := by
    intro row hrow huri
    have hmem : row.undated ∈ rowsAfter (largestId old) stored := hadded ▸ List.mem_map_of_mem hrow
    obtain ⟨song, hsong, id, hsame⟩ := mem_rowsAfter hmem
    obtain ⟨q, hq, hkey⟩ := h.exists_path hsong
    have huri' : row.uri = song.uri := congrArg Row.uri hsame
    rw [h.walk, List.map_append, List.map_cons, List.nodup_append] at hkeys
    exact hkeys.2.2 _ (List.mem_map_of_mem hq) _ (List.mem_cons_self ..)
      (by rw [← hkey, ← huri', huri])
  simp only [Setup.IsNew, hrows, List.mem_append, or_imp, forall_and]
  constructor
  · rintro ⟨hreason, ⟨hold, -⟩, hgood⟩
    exact ⟨hreason, hold, hgood⟩
  · rintro ⟨hreason, hold, hgood⟩
    exact ⟨hreason, ⟨hold, hapart⟩, hgood⟩

/-- A file that is looked at is passed over, or there will be a job for it. -/
theorem look (h : NewlyAdded s w t old r primary seen (p :: rest) stored)
    (hkeys : ((t.walk s.root).map (keyOf s.musicDir)).Nodup)
    (hregards : Run.Regards s { r with source := some (.files rest) } primary.table.rows p r') :
    NewlyAdded s w t old r' primary (seen ++ [p]) rest stored := by
  have hwalk : t.walk s.root = (seen ++ [p]) ++ rest := by
    rw [h.walk, List.append_assoc, List.singleton_append]
  have hsongs := s.newSongs_concat (w := w) (t := t) old seen p
  have hnew := h.isNew_iff hkeys
  cases hregards with
  | passed counters moment history hold _ hcount =>
    rw [if_neg (mt hnew.2 hold), List.append_nil] at hsongs
    exact ⟨hwalk, by simp, by simp, h.rows, h.largest, hsongs.trans h.songs, h.jobs,
      hcount.trans h.count⟩
  | queued counters moment history hold hpush _ hcount =>
    rw [if_pos (hnew.1 hold)] at hsongs
    have htail := Queue.toList_push hpush
    refine ⟨hwalk, by simp, by simp, h.rows, h.largest, ?_, ?_, hcount.trans h.count⟩
    · rw [hsongs, h.songs, htail, List.filterMap_append, List.append_assoc]
      cases hsong : s.newSong? w t p <;> simp [Setup.newJob, hsong]
    · rw [htail]
      intro job hjob
      rcases List.mem_append.1 hjob with hjob | hjob
      · exact h.jobs job hjob
      · rw [List.mem_singleton.1 hjob]
        rfl

/-- The song of a job is one of those to be added, and so there is an id for it as there is
    for all of these. -/
theorem room (h : NewlyAdded s w t old r primary seen rest stored) {jobs : List Job} {song : Song}
    (hroom : largestId old + (s.newSongs w t old (t.walk s.root)).length ≤ Int64.maxValue.toInt)
    (hpop : r.queue.toList = s.newJob p :: jobs) (hsong : s.newSong? w t p = some song) :
    largestId old + stored.length < Int64.maxValue.toInt := by
  have hlength : stored.length < (s.newSongs w t old (t.walk s.root)).length := by
    rw [h.walk, Setup.newSongs, List.filter_append, List.filterMap_append, ← Setup.newSongs, h.songs,
      hpop]
    simp [Setup.newJob, hsong]
  omega

/-- A job passes its file over. -/
theorem pass (h : NewlyAdded s w t old r primary seen rest stored) {jobs : List Job}
    (hpop : r.queue.toList = s.newJob p :: jobs) (hnone : s.newSong? w t p = none)
    (hqueue : r'.queue.toList = jobs) (hsource : r'.source = r.source)
    (hcount : r'.counters.get .new = r.counters.get .new) :
    NewlyAdded s w t old r' primary seen rest stored := by
  refine ⟨h.walk, hsource ▸ h.coming, hsource ▸ h.ended, h.rows, h.largest, ?_, ?_,
    hcount.trans h.count⟩
  · rw [h.songs, hpop, hqueue]
    simp [Setup.newJob, hnone]
  · intro job hjob
    exact h.jobs job (hpop ▸ List.mem_cons_of_mem _ (hqueue ▸ hjob))

/-- A job adds the song of its file. -/
theorem add (h : NewlyAdded s w t old r primary seen rest stored) {jobs : List Job} {song : Song}
    {date : String} {id : Int64} {table : SongTable} (hpop : r.queue.toList = s.newJob p :: jobs)
    (hsong : s.newSong? w t p = some song)
    (hroom : largestId old + stored.length < Int64.maxValue.toInt)
    (hinsert : primary.table.insert? { song with dateAdded := date } = some (id, table))
    (hqueue : r'.queue.toList = jobs) (hsource : r'.source = r.source)
    (hcount : r'.counters.get .new = r.counters.get .new + 1) :
    NewlyAdded s w t old r' { primary with table } seen rest (stored ++ [song]) := by
  obtain ⟨tags, rfl⟩ := Setup.newSong?_eq_some hsong
  obtain ⟨id', table', hinsert', hvalue, hrows, hlargest⟩ := SongTable.insert?_new
    (t := primary.table) (rfl : Song.id { Song.new (keyOf s.musicDir p) date with tags } = none)
    (by rw [h.largest]; exact hroom)
  obtain ⟨rfl, rfl⟩ := Prod.mk.inj (Option.some.inj (hinsert'.symm.trans hinsert))
  obtain ⟨added, hold, hadded⟩ := h.rows
  refine ⟨h.walk, hsource ▸ h.coming, hsource ▸ h.ended,
    ⟨added ++ [Song.row { Song.new (keyOf s.musicDir p) date with tags } id'], ?_, ?_⟩, ?_, ?_, ?_, ?_⟩
  · rw [hrows, hold, List.append_assoc]
  · rw [List.map_append, hadded, rowsAfter_concat, hvalue, h.largest]
    rfl
  · rw [hlargest, h.largest]
    simp [Int.add_assoc]
  · rw [h.songs, hpop, hqueue]
    simp [Setup.newJob, hsong]
  · intro job hjob
    exact h.jobs job (hpop ▸ List.mem_cons_of_mem _ (hqueue ▸ hjob))
  · rw [hcount, h.count]
    simp

end NewlyAdded

/-- What holds of a run that adds new files where they are. -/
structure CheckingNew (s : Setup) (w : Services) (files t : FileTree) (r : Run) : Prop where
  tree : r.files = t
  target : r.target = none
  moves : r.history.moves = []
  added : ∃ primary seen rest stored, r.primary = some primary ∧
    primary.location = files.tableFile? s.databasePath ∧
    NewlyAdded s w t (s.rows files) r primary seen rest stored

namespace CheckingNew

/-- A job adds the song of its file, or passes it over. -/
theorem work {job : Job} {queue : Queue Job} (hw : w.Steady) (hmode : s.mode = .checkNew)
    (horganize : s.autoOrganize = false)
    (hroom : largestId (s.rows files) +
      (s.newSongs w t (s.rows files) (t.walk s.root)).length ≤ Int64.maxValue.toInt)
    (h : CheckingNew s w files t r) (hpop : r.queue.pop? = some (job, queue)) :
    CheckingNew s w files t
      ({ r with queue, history.taken := job :: r.history.taken }.perform s w job) := by
  obtain ⟨primary, seen, rest, stored, hprimary, hlocation, hadded⟩ := h.added
  have hjobs := Queue.toList_of_pop? hpop
  have hjob := hadded.jobs job (by simp [hjobs])
  have hadds := Run.perform_adds (r := { r with queue, history.taken := job :: r.history.taken })
    (p := job.path) hw hmode horganize h.target hprimary (fun hsome song hid => by
      rw [show Run.files _ = t from h.tree] at hsome
      obtain ⟨song', hsong⟩ := Option.isSome_iff_exists.1 hsome
      obtain ⟨id, table, hinsert, -⟩ := SongTable.insert?_new (t := primary.table) hid
        (by rw [hadded.largest]; exact hadded.room hroom (hjob ▸ hjobs) hsong)
      rw [hinsert]
      rfl)
  rw [← hjob] at hadds
  generalize Run.perform s w _ job = r' at hadds
  rw [hjob] at hjobs
  cases hadds with
  | passed moment hnone =>
    have hnone : s.newSong? w t job.path = none := h.tree ▸ hnone
    exact ⟨h.tree, h.target, h.moves, primary, seen, rest, stored, hprimary, hlocation,
      hadded.pass hjobs hnone rfl rfl (Run.get_skip (by decide) (by decide))⟩
  | @added song primary' id table date moment hsong hprimary' hinsert =>
    have hsong : s.newSong? w t job.path = some song := h.tree ▸ hsong
    obtain rfl := Option.some.inj (hprimary.symm.trans hprimary')
    refine ⟨h.tree, h.target, h.moves, { primary with table }, seen, rest, stored ++ [song],
      rfl, hlocation, hadded.add hjobs hsong (hadded.room hroom hjobs hsong) hinsert rfl rfl ?_⟩
    simp [Run.count, Counters.increment]

/-- A slice of such a run. -/
theorem slice (hw : w.Steady) (hmode : s.mode = .checkNew) (horganize : s.autoOrganize = false)
    (hkeys : ((t.walk s.root).map (keyOf s.musicDir)).Nodup)
    (hroom : largestId (s.rows files) +
      (s.newSongs w t (s.rows files) (t.walk s.root)).length ≤ Int64.maxValue.toInt)
    (h : CheckingNew s w files t r) (hslice : Run.Slice s w r r') : CheckingNew s w files t r' := by
  cases hslice with
  | note phase reported sent =>
    obtain ⟨primary, seen, rest, stored, hprimary, hlocation, hadded⟩ := h.added
    exact ⟨h.tree, h.target, h.moves, primary, seen, rest, stored, hprimary, hlocation,
      hadded.walk, hadded.coming, hadded.ended, hadded.rows, hadded.largest, hadded.songs,
      hadded.jobs, hadded.count⟩
  | exhaust hopen hnext =>
    obtain ⟨primary, seen, rest, stored, hprimary, hlocation, hadded⟩ := h.added
    obtain ⟨rfl, rfl⟩ := hadded.feeds.exhaust hnext
    exact ⟨h.tree, h.target, h.moves, primary, seen, [], stored, hprimary, hlocation,
      hadded.walk, by simp, fun _ => rfl, hadded.rows, hadded.largest, hadded.songs,
      hadded.jobs, hadded.count⟩
  | look hopen hnext hclassify =>
    obtain ⟨primary, seen, rest, stored, hprimary, hlocation, hadded⟩ := h.added
    obtain ⟨p, paths, rfl, rfl, rfl⟩ := hadded.feeds.next hnext
    have hregards := Run.classify_regards (r := { r with source := some (.files paths) })
      hw.toSound hmode hprimary hopen hclassify
    have hlooked := hadded.look hkeys hregards
    cases hregards with
    | passed _ _ _ _ hmoves _ =>
      exact ⟨h.tree, h.target, hmoves.trans h.moves, primary, _, _, stored, hprimary, hlocation,
        hlooked⟩
    | queued _ _ _ _ _ hmoves _ =>
      exact ⟨h.tree, h.target, hmoves.trans h.moves, primary, _, _, stored, hprimary, hlocation,
        hlooked⟩
  | work hpop => exact h.work hw hmode horganize hroom hpop

/-- Such a run when its tables are open and it has prepared. -/
theorem begin (hmode : s.mode = .checkNew) (hwf : files.WellFormed) {r₀ : Run}
    (hstart : (Run.new s files).start s w = (r₀, .ok ()))
    (hprepare : r₀.prepare s w = (r, .ok ())) : CheckingNew s w files (s.opened files) r := by
  obtain ⟨table, moment, hopened, rfl⟩ := Run.start_opens (by rw [hmode]; rfl) hstart
  have hrows : table.rows = s.rows files := by
    have hcases := files.openTable_cases s.databasePath
    have hopened : files.openTable s.databasePath = (s.opened files, some table) := hopened
    rw [hopened] at hcases
    exact (hcases.rows hwf).2
  cases Run.prepare_begun rfl hprepare with
  | files horigin hid =>
    refine ⟨rfl, rfl, rfl, _, [], _, [], rfl, rfl, rfl, ?_, by simp, ⟨[], ?_, rfl⟩, ?_, rfl, ?_, ?_⟩
    · rintro _ ⟨⟩
      rfl
    · rw [List.append_nil, hrows]
    · rw [hrows]
      simp
    · intro job hjob
      cases hjob
    · exact Counters.get_zero .new
  | table horigin _ _ =>
    rw [hmode] at horigin
    cases horigin

end CheckingNew

/-- The files that a scan comes to have keys of their own. -/
theorem nodup_keys {musicDir root : Path} (hwf : t.WellFormed) (hlisted : t.Listed)
    (hmusic : musicDir.isAbsolute) (hroot : root.isAbsolute) (htext : ∀ p ∈ t.walk root, p.IsText) :
    ((t.walk root).map (keyOf musicDir)).Nodup := by
  have hsame : (t.walk root).map t.destination =
      ((t.walk root).map (keyOf musicDir)).map fun key => t.destination (resolve musicDir key) := by
    rw [List.map_map]
    refine List.map_congr_left fun p hp => ?_
    exact (FileTree.destination_of_sameAs (sameAs_resolve_keyOf hmusic
      (isAbsolute_of_mem_walk hlisted hroot hp) (htext p hp))).symm
  have hnodup := FileTree.nodup_walk hwf hlisted root
  rw [hsame] at hnodup
  exact hnodup.of_map _

/-- The files once the table is open differ from those before at its place alone. -/
theorem Setup.opened_retabled (hwf : files.WellFormed) :
    FileTree.Retabled [s.library files] [s.library files] files (s.opened files) := by
  refine (FileTree.Retabled.refl hwf).opened (files.openTable_cases s.databasePath) fun l hl => ?_
  rw [(hwf.tableFile?_eq hl).1]
  exact ⟨List.mem_singleton_self _, List.mem_singleton_self _⟩

/-- What the files are once the table of the library is closed: it has the rows that the
    run ends with, and no other place has changed. -/
theorem Run.rows_savedFiles {primary : OpenTable} {table : SongTable} (hwf : files.WellFormed)
    (hopen : files.openTable s.databasePath = (s.opened files, some table))
    (hr : r.files = s.opened files) (hlocation : primary.location = files.tableFile? s.databasePath) :
    (¬ FileTree.isFileless s.databasePath →
      s.rows (r.savedFiles primary) = primary.table.rows) ∧
    ∀ l, l ≠ s.library files → (r.savedFiles primary).get? l = files.get? l := by
  have hopened := files.openTable_cases s.databasePath
  rw [hopen] at hopened
  have hretabled := s.opened_retabled hwf
  rw [(hopened.rows hwf).1] at hlocation
  unfold savedFiles
  -- A table without a file is not written anywhere.
  by_cases hp : FileTree.isFileless s.databasePath
  · rw [if_pos hp] at hlocation
    rw [hlocation, hr]
    exact ⟨fun hno => absurd hp hno, fun l hl => hretabled.get? l (by simpa using hl)⟩
  · rw [if_neg hp] at hlocation
    obtain ⟨l, hl, htable⟩ := (hopened.table hwf).resolve_left hp
    obtain ⟨rfl, hne⟩ := hwf.tableFile?_eq hl
    have hkept : (s.opened files).keepTable (files.destination s.databasePath) primary.table =
        (s.opened files).put (files.destination s.databasePath) (.file (.songs primary.table)) := by
      rcases (s.opened files).keepTable_cases (files.destination s.databasePath) primary.table with
        ⟨hnone, -⟩ | ⟨-, hkept⟩
      · rw [htable] at hnone
        cases hnone
      · exact hkept
    rw [hlocation, hr]
    dsimp only
    refine ⟨fun _ => ?_, fun l hl => ?_⟩
    · have hsame : s.library ((s.opened files).keepTable (files.destination s.databasePath)
          primary.table) = files.destination s.databasePath :=
        FileTree.destination_congr ((FileTree.workingDir_keepTable _ _ _).trans
          hretabled.workingDir) _
      rw [Setup.rows, if_neg hp, hsame, hkept,
        FileTree.rowsAt_of_table (FileTree.tableAt?_put_self hne _)]
    · rw [FileTree.get?_keepTable_ne hne _ hl]
      exact hretabled.get? l (by simpa using hl)

/-- **A run that adds new files, and does not move them, adds exactly the missing songs**, as
    long as there are ids for them.  The records that there were stay as they are; those of
    the new files come after them, in the order of the scan, under the next ids.  No file has
    changed but that of the table. -/
theorem check_new_adds_missing (hw : w.Steady) (hmode : s.mode = .checkNew)
    (horganize : s.autoOrganize = false) (hwf : files.WellFormed) (hlisted : files.Listed)
    (hmusic : s.musicDir.isAbsolute) (hroot : s.root.isAbsolute)
    (htext : ∀ p ∈ (s.opened files).walk s.root, p.IsText)
    (hroom : largestId (s.rows files) + (s.newSongs w (s.opened files) (s.rows files)
      ((s.opened files).walk s.root)).length ≤ Int64.maxValue.toInt)
    (h : Reachable s w files none r) (hphase : r.phase = .finish) (hstop : r.stopped = false) :
    ∃ r' primary added, r.step s w = (r', .ok .done) ∧ r.primary = some primary ∧
      primary.table.rows = s.rows files ++ added ∧
      added.map Row.undated = rowsAfter (largestId (s.rows files))
        (s.newSongs w (s.opened files) (s.rows files) ((s.opened files).walk s.root)) ∧
      (s.rows files ++ added).Pairwise (·.id < ·.id) ∧
      (¬ FileTree.isFileless s.databasePath → s.rows r'.files = s.rows files ++ added) ∧
      r'.counters.get .new = .ofNat added.length ∧ r'.history.moves = [] ∧
      ∀ l, l ≠ s.library files → r'.files.get? l = files.get? l := by
  have hretabled := s.opened_retabled hwf
  have hkeys := nodup_keys hretabled.wellFormed (hretabled.listed hlisted) hmusic hroot htext
  have hworking := Run.working_of_reachable h hstop (by simp [hphase])
  obtain ⟨r₀, r₁, hstart, hprepare, hslices⟩ := hworking.slices
  have hdone : CheckingNew s w files (s.opened files) r := by
    have hbegin := CheckingNew.begin hmode hwf hstart hprepare
    clear hworking h hphase hstop
    induction hslices with
    | refl => exact hbegin
    | tail _ hslice ih => exact ih.slice hw hmode horganize hkeys hroom hslice
  obtain ⟨primary, seen, rest, stored, hprimary, hlocation, hadded⟩ := hdone.added
  -- Every file has been seen, and no job is left.
  have hrest : rest = [] := hadded.ended (hworking.seen (by simp [hphase]))
  have hall : s.newSongs w (s.opened files) (s.rows files) ((s.opened files).walk s.root) = stored := by
    rw [hadded.walk, hrest, List.append_nil, hadded.songs, hworking.done hphase]
    simp
  obtain ⟨added, hrows, hundated⟩ := hadded.rows
  have hlength : added.length = stored.length := by
    rw [← List.length_map (f := Row.undated), hundated, length_rowsAfter]
  obtain ⟨table, moment, hopened, -⟩ := Run.start_opens (by rw [hmode]; rfl) hstart
  obtain ⟨hsaved, hothers⟩ := Run.rows_savedFiles (r := r) hwf hopened hdone.tree hlocation
  obtain ⟨moment, hfinish⟩ := Run.finish_saves (s := s) (r := r) hw.toSound hdone.target hprimary
  have hstep : r.step s w = ((r.finish s w).1, .ok .done) := by
    rw [Run.step, Run.act, hphase, hfinish]
    rfl
  obtain ⟨sent, hkeeps⟩ := Run.report_keeps (r := { r with
    source := none, primary := none, files := r.savedFiles primary, moment }) false
  rw [hfinish, hkeeps] at hstep
  refine ⟨_, primary, added, hstep, hprimary, hrows, hall ▸ hundated, hrows ▸ primary.table.sorted,
    fun hfile => hrows ▸ hsaved hfile, ?_, hdone.moves, hothers⟩
  rw [hlength, ← hadded.count]
  simp [Counters.raise]

/-- The sample library, where files are left where they are. -/
def keepingSetup : Setup :=
  { sampleSetup .checkNew with autoOrganize := false }

/-- A file without a record gets one, after the record that there is. -/
theorem check_new_adds_missing_sample :
    ∃ r r' : Run, Reachable keepingSetup sampleServices expectedFiles none r ∧
      r.step keepingSetup sampleServices = (r', .ok .done) ∧
      (keepingSetup.rows r'.files).map (fun row => (row.id, row.uri)) =
        [(1, "t.mp3"), (2, "a.mp3")] := by
  have h : Reachable keepingSetup sampleServices expectedFiles none
      (Run.steps keepingSetup sampleServices 4 (.new keepingSetup expectedFiles)) :=
    Run.reachable_steps .new (by decide +kernel)
  obtain ⟨r', _, added, hstep, -, -, hundated, -, hrows, -⟩ := check_new_adds_missing
    sampleServices_steady rfl rfl (.of_entries (by decide +kernel) (by decide +kernel))
    (by decide +kernel) (by decide +kernel) (by decide +kernel) (by decide +kernel)
    (by decide +kernel) h (by decide +kernel) (by decide +kernel)
  refine ⟨_, r', h, hstep, ?_⟩
  have hadded : added.map (fun row => (row.id, row.uri)) = [(2, "a.mp3")] := by
    have hids : (added.map Row.undated).map (fun row => (row.id, row.uri)) = [(2, "a.mp3")] := by
      rw [hundated]
      decide +kernel
    rwa [List.map_map] at hids
  rw [hrows (by decide), List.map_append, hadded]
  decide +kernel

end SongLibrary.Reconcile
