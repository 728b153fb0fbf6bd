/-
  States in which a job comes to the same.

  A job looks at the files and at the table that the run writes, and counts; where it
  comes from, what is in the queue and how far the run has come are nothing to it.
  `Run.Alike` compares states by that: dates are compared by a reading of them, and the
  questions asked so far may differ in number.  Doing a job in states that are alike
  leaves states that are alike (`Run.Ahead.perform`), however much one of them has counted
  more.
-/
import SongLibrary.Proofs.Reconcile.Filling
import SongLibrary.Proofs.Reconcile.Slices
import SongLibrary.Proofs.SongTable.Dates

namespace SongLibrary.Reconcile

/-- A reading of dates does not tell moments apart that are as far from each other as
    given. -/
def Services.Blurs (w : Services) (δ : String → String) (gap : Int) : Prop :=
  ∀ n m : Nat, (m : Int) = n + gap → δ (w.now m) = δ (w.now n)

theorem id_of_redate {δ : String → String} {song song' : Song}
    (h : song'.redate δ = song.redate δ) : song'.id = song.id := by
  obtain ⟨date, rfl⟩ := Song.eq_of_redate δ h
  rfl

namespace Run

/-- The table that a run writes. -/
def written (r : Run) : Option SongTable :=
  (r.target.or r.primary).map OpenTable.table

/-- States in which a job comes to the same: dates are the same in a reading of them, and
    the second state has asked a number of questions more than the first, and counted some
    things more often.  If only new songs are stored, one may write the new table and the
    other that of the library. -/
structure Ahead (δ : String → String) (gap : Int) (more : Counter → UInt64) (fresh : Prop)
    (r r' : Run) : Prop where
  files : r'.files = r.files
  nextId : r'.nextId = r.nextId
  counts : ∀ counter, counter ≠ .queueHighWater →
    r'.counters.get counter = r.counters.get counter + more counter
  table : r'.written.map (SongTable.redate δ) = r.written.map (SongTable.redate δ)
  kind : r'.target.isSome = r.target.isSome ∨ fresh ∧ r.nextId = none
  moment : (r'.moment : Int) = r.moment + gap

/-- States in which a job comes to the same, and in which the same has been counted. -/
abbrev Alike (δ : String → String) (gap : Int) (fresh : Prop) (r r' : Run) : Prop :=
  Ahead δ gap (fun _ => 0) fresh r r'

variable {s : Setup} {w : Services} {δ : String → String} {gap : Int} {more : Counter → UInt64}
  {fresh : Prop} {r r' r'' : Run}

namespace Ahead

theorem trans {gap' : Int} {more' : Counter → UInt64} (h : Ahead δ gap more fresh r r')
    (h' : Ahead δ gap' more' fresh r' r'') :
    Ahead δ (gap + gap') (fun k => more k + more' k) fresh r r'' := by
  refine ⟨h'.files.trans h.files, h'.nextId.trans h.nextId, fun counter hc => ?_,
    h'.table.trans h.table, ?_, ?_⟩
  · rw [h'.counts counter hc, h.counts counter hc, UInt64.add_assoc]
  · rcases h.kind with hsame | hnew
    · rcases h'.kind with hsame' | ⟨hfresh, hnone⟩
      · exact .inl (hsame'.trans hsame)
      · exact .inr ⟨hfresh, h.nextId.symm.trans hnone⟩
    · exact .inr hnew
  · have hmoment := h.moment
    have hmoment' := h'.moment
    omega

theorem recount {more' : Counter → UInt64} (h : Ahead δ gap more fresh r r')
    (hmore : ∀ counter, more counter = more' counter) : Ahead δ gap more' fresh r r' :=
  ⟨h.files, h.nextId, fun counter hc => hmore counter ▸ h.counts counter hc, h.table, h.kind,
    h.moment⟩

end Ahead

namespace Alike

/-- States that are the same to a job. -/
theorem same (hfiles : r'.files = r.files) (hid : r'.nextId = r.nextId)
    (hcounters : r'.counters = r.counters) (hprimary : r'.primary = r.primary)
    (htarget : r'.target = r.target) (hmoment : (r'.moment : Int) = r.moment + gap) :
    Alike δ gap fresh r r' :=
  ⟨hfiles, hid, fun _ _ => by rw [hcounters, UInt64.add_zero],
    by rw [written, written, hprimary, htarget], .inl (by rw [htarget]), hmoment⟩

theorem refl (δ : String → String) (fresh : Prop) (r : Run) : Alike δ 0 fresh r r :=
  .same rfl rfl rfl rfl rfl (by simp)

theorem counts (h : Alike δ gap fresh r r') {counter : Counter} (hc : counter ≠ .queueHighWater) :
    r'.counters.get counter = r.counters.get counter := by
  rw [Ahead.counts h counter hc, UInt64.add_zero]

theorem trans {gap' : Int} (h : Alike δ gap fresh r r') (h' : Alike δ gap' fresh r' r'') :
    Alike δ (gap + gap') fresh r r'' := by
  have hboth := Ahead.trans h h'
  simpa only [UInt64.add_zero] using hboth

end Alike

namespace Ahead

/-! ## Counting and asking -/

theorem asked (h : Ahead δ gap more fresh r r') : Ahead δ gap more fresh r.asked r'.asked :=
  ⟨h.files, h.nextId, h.counts, h.table, h.kind, by
    have hmoment := h.moment
    simp only [Run.asked, Int.natCast_add, Int.cast_ofNat_Int]
    omega⟩

theorem count (h : Ahead δ gap more fresh r r') (counter : Counter) :
    Ahead δ gap more fresh (r.count counter) (r'.count counter) := by
  refine ⟨h.files, h.nextId, fun k hk => ?_, h.table, h.kind, h.moment⟩
  simp only [Run.count, Counters.increment, Counters.get_set]
  by_cases hkc : k = counter
  · rw [if_pos hkc, if_pos hkc, h.counts counter (hkc ▸ hk), hkc, UInt64.add_assoc,
      UInt64.add_comm (more counter), ← UInt64.add_assoc]
  · rw [if_neg hkc, if_neg hkc, h.counts k hk]

theorem skip (h : Ahead δ gap more fresh r r') (reason : Counter) :
    Ahead δ gap more fresh (r.skip reason) (r'.skip reason) :=
  (h.count reason).count .skipped

theorem withFiles (h : Ahead δ gap more fresh r r') (files : FileTree) (history history' : History) :
    Ahead δ gap more fresh { r with files, history } { r' with files, history := history' } :=
  ⟨rfl, h.nextId, h.counts, h.table, h.kind, h.moment⟩

end Ahead

/-! ## Storing -/

/-- The table that a run writes, once it has taken a song. -/
def takes (r : Run) (song : Song) : Option SongTable :=
  match r.target with
  | some target => (target.table.insert? song).map Prod.snd
  | none => r.primary.bind fun primary => (primary.table.save? song).map Prod.snd

/-- A song is stored just if the table that the run writes takes it. -/
theorem storeIn_takes (hw : w.Sound) (r : Run) (song : Song) :
    r.takes song = none ∧ r.storeIn w song = none ∨
      ∃ table target primary written, r.takes song = some table ∧
        r.storeIn w song = some { r.asked with target, primary, history.written := written } ∧
        (target.or primary).map OpenTable.table = some table ∧ target.isSome = r.target.isSome := by
  unfold takes storeIn
  rw [hw.tableFails, if_neg Bool.false_ne_true]
  cases htarget : r.target with
  | some target =>
    rw [if_pos (by rfl)]
    cases hinsert : target.table.insert? song with
    | none =>
      refine .inl ⟨by simp [hinsert], ?_⟩
      simp [addToTarget, Run.asked, htarget, hinsert]
    | some taken =>
      obtain ⟨id, table⟩ := taken
      refine .inr ⟨table, some { target with table }, r.primary,
        song.row id :: r.history.written, by simp [hinsert], ?_, rfl, rfl⟩
      simp [addToTarget, Run.asked, htarget, hinsert]
  | none =>
    rw [if_neg (by simp)]
    cases hprimary : r.primary with
    | none => exact .inl ⟨rfl, by simp [saveToPrimary, Run.asked, hprimary]⟩
    | some primary =>
      cases hsave : primary.table.save? song with
      | none =>
        refine .inl ⟨by simp [hsave], ?_⟩
        simp [saveToPrimary, Run.asked, hprimary, hsave]
      | some taken =>
        obtain ⟨how, table⟩ := taken
        refine .inr ⟨table, none, some { primary with table }, r.history.written,
          by simp [hsave], ?_, rfl, rfl⟩
        simp [saveToPrimary, Run.asked, htarget, hprimary, hsave]

/-- A new table takes a song by adding it, and any table one without an id. -/
theorem takes_eq_insert (r : Run) {song : Song} (h : r.target.isSome ∨ song.id = none) :
    r.takes song = r.written.bind fun table => (table.insert? song).map Prod.snd := by
  unfold takes written
  cases htarget : r.target with
  | some target => rfl
  | none =>
    have hid : song.id = none := by simpa [htarget] using h
    cases r.primary with
    | none => rfl
    | some primary =>
      simp only [Option.none_or, Option.bind_some, Option.map_some, SongTable.save?, hid,
        Option.map_map]
      rfl

theorem takes_eq_save (r : Run) (song : Song) (h : r.target = none) :
    r.takes song = r.written.bind fun table => (table.save? song).map Prod.snd := by
  unfold takes written
  rw [h]
  cases r.primary <;> rfl

/-- What comes to the same for tables that are the same, does so for tables that may be
    missing. -/
theorem map_bind_congr {ρ : SongTable → SongTable} {t t' : Option SongTable}
    {f f' : SongTable → Option SongTable} (h : t'.map ρ = t.map ρ)
    (hf : ∀ table table', ρ table' = ρ table → (f' table').map ρ = (f table).map ρ) :
    (t'.bind f').map ρ = (t.bind f).map ρ := by
  cases t with
  | none =>
    obtain rfl : t' = none := by simpa using h
    rfl
  | some table =>
    obtain ⟨table', rfl, hsame⟩ := Option.map_eq_some_iff.1 h
    exact hf table table' hsame

namespace Ahead

theorem takes (h : Ahead δ gap more fresh r r') {song song' : Song}
    (hsong : song'.redate δ = song.redate δ)
    (hkind : r'.target.isSome = r.target.isSome ∨ song.id = none) :
    (r'.takes song').map (SongTable.redate δ) = (r.takes song).map (SongTable.redate δ) := by
  have hsame : song'.id = song.id := id_of_redate hsong
  by_cases hadds : r.target.isSome ∨ song.id = none
  · have hadds' : r'.target.isSome ∨ song'.id = none := by
      rcases hkind with hkind | hnone
      · rwa [hkind, hsame]
      · exact .inr (hsame.trans hnone)
    rw [takes_eq_insert r hadds, takes_eq_insert r' hadds']
    refine map_bind_congr h.table fun table table' htable => ?_
    have hinsert := table.insert?_redate δ song
    rw [← htable, ← hsong, SongTable.insert?_redate] at hinsert
    simpa [Option.map_map, Function.comp_def] using congrArg (Option.map Prod.snd) hinsert
  · simp only [not_or, Bool.not_eq_true, Option.isSome_eq_false_iff, Option.isNone_iff_eq_none]
      at hadds
    have htarget' : r'.target = none := by simpa [hadds] using hkind
    rw [takes_eq_save r song hadds.1, takes_eq_save r' song' htarget']
    refine map_bind_congr h.table fun table table' htable => ?_
    have hsave := table.save?_redate δ song
    rw [← htable, ← hsong, SongTable.save?_redate] at hsave
    simpa [Option.map_map, Function.comp_def] using congrArg (Option.map Prod.snd) hsave

/-- Songs that are the same come to the same when they are stored. -/
theorem storeIn (hw : w.Sound) (h : Ahead δ gap more fresh r r') {song song' : Song}
    (hsong : song'.redate δ = song.redate δ)
    (hkind : r'.target.isSome = r.target.isSome ∨ song.id = none) :
    r.storeIn w song = none ∧ r'.storeIn w song' = none ∨
      ∃ r₁ r₁', r.storeIn w song = some r₁ ∧ r'.storeIn w song' = some r₁' ∧
        Ahead δ gap more fresh r₁ r₁' := by
  have htakes := h.takes hsong hkind
  rcases storeIn_takes hw r song with
      ⟨hnone, hstore⟩ | ⟨table, _, _, _, htake, hstore, hwritten, htarget⟩ <;>
    rcases storeIn_takes hw r' song' with
      ⟨hnone', hstore'⟩ | ⟨table', _, _, _, htake', hstore', hwritten', htarget'⟩
  · exact .inl ⟨hstore, hstore'⟩
  · rw [hnone, htake'] at htakes
    cases htakes
  · rw [hnone', htake] at htakes
    cases htakes
  · rw [htake, htake', ← hwritten, ← hwritten'] at htakes
    refine .inr ⟨_, _, hstore, hstore', ⟨h.files, h.nextId, h.counts, htakes, ?_, h.asked.moment⟩⟩
    rw [htarget, htarget']
    exact h.kind

theorem store (hw : w.Sound) (h : Ahead δ gap more fresh r r') {song song' : Song} (existed : Bool)
    (hsong : song'.redate δ = song.redate δ) (hid : fresh → song.id = none) :
    Ahead δ gap more fresh (r.store w song existed) (r'.store w song' existed) := by
  -- The song that is stored has been given an id, if there was one to give.
  obtain ⟨given, given', hgiven, hgiven', hsong₁, hkind₁, h₁⟩ : ∃ given given' : Song × Run,
      (if r.target.isSome then r.assignId song else (song, r)) = given ∧
      (if r'.target.isSome then r'.assignId song' else (song', r')) = given' ∧
      given'.1.redate δ = given.1.redate δ ∧
      (given'.2.target.isSome = given.2.target.isSome ∨ given.1.id = none) ∧
      Ahead δ gap more fresh given.2 given'.2 := by
    by_cases hnone : r.nextId = none
    · have hkeeps : ∀ {r : Run} {song : Song}, r.nextId = none →
          (if r.target.isSome then r.assignId song else (song, r)) = (song, r) := by
        intro r song hnone
        have hsame : r.assignId song = (song, r) := by
          unfold assignId
          split
          · next hnext => simp [hnone] at hnext
          · rfl
        rw [hsame, ite_self]
      exact ⟨_, _, hkeeps hnone, hkeeps (h.nextId.trans hnone), hsong,
        h.kind.imp_right fun hnew => hid hnew.1, h⟩
    · have hkind := h.kind.resolve_right fun hnew => hnone hnew.2
      refine ⟨_, _, rfl, rfl, ?_⟩
      rw [hkind]
      split
      · unfold assignId
        rw [h.nextId, id_of_redate hsong]
        split
        · next id _ _ =>
          refine ⟨?_, .inl hkind, ⟨h.files, rfl, h.counts, h.table, .inl hkind, h.moment⟩⟩
          exact congrArg (fun song : Song => { song with id := some id }) hsong
        · exact ⟨hsong, .inl hkind, h⟩
      · exact ⟨hsong, .inl hkind, h⟩
  unfold Run.store
  rw [hgiven, hgiven']
  rcases h₁.storeIn hw hsong₁ hkind₁ with ⟨hstore, hstore'⟩ | ⟨r₁, r₁', hstore, hstore', h₂⟩
  · simp only [hstore, hstore']
    exact h₁.asked.count .bad
  · simp only [hstore, hstore']
    exact h₂.count _

/-! ## Moving and reading -/

/-- Files are moved alike, and the songs get the same location. -/
theorem rename (hw : w.Reliable) (h : Ahead δ gap more fresh r r') {song song' : Song}
    (hsong : song'.redate δ = song.redate δ) (path : Path) (bypass : Option String) (force : Bool) :
    ∃ uri r₁ r₁', r.rename s w song path bypass force = ({ song with uri }, r₁) ∧
      r'.rename s w song' path bypass force = ({ song' with uri }, r₁') ∧
      Ahead δ gap more fresh r₁ r₁' := by
  obtain ⟨date, rfl⟩ := Song.eq_of_redate δ hsong
  unfold Run.rename
  dsimp only
  rw [show s.template.render s.refs { song with dateAdded := date } bypass s.sanitizer =
    s.template.render s.refs song bypass s.sanitizer from rfl]
  split
  · exact ⟨song.uri, r, r', rfl, rfl, h⟩
  · split
    · exact ⟨song.uri, _, _, rfl, rfl, h.count .bad⟩
    · split
      · exact ⟨song.uri, r, r', rfl, rfl, h⟩
      · rw [hw.move, hw.move, h.files]
        rcases organizeFile r.files path s.musicDir _ with ⟨files, failure | place⟩
        · exact ⟨song.uri, _, _, rfl, rfl, (h.asked.withFiles files _ _).count .renameFailed⟩
        · exact ⟨_, _, _, rfl, rfl, (h.asked.withFiles files _ _).count .renamed⟩

theorem readTags (hw : w.Steady) (h : Ahead δ gap more fresh r r') (path : Path) :
    ∃ parsed r₁ r₁', r.readTags w path = (parsed, r₁) ∧ r'.readTags w path = (parsed, r₁') ∧
      Ahead δ gap more fresh r₁ r₁' := by
  unfold Run.readTags
  rw [h.files, hw.reads r'.moment r.moment]
  split
  · exact ⟨none, r, r', rfl, rfl, h⟩
  · exact ⟨_, _, _, rfl, rfl, h.asked⟩

/-- The record that tags are read into is the same, aside from the date of a new one. -/
theorem recordFor (h : Ahead δ gap more fresh r r') (job : Job) {existing : Option Song}
    (hclock : existing = none → w.Blurs δ gap) :
    ∃ song song' r₁ r₁', r.recordFor w job existing = (song, r₁) ∧
      r'.recordFor w job existing = (song', r₁') ∧ song'.redate δ = song.redate δ ∧
      (existing = none ∧ song.id = none ∨ existing ≠ none ∧ song' = song) ∧
      Ahead δ gap more fresh r₁ r₁' := by
  cases existing with
  | some song => exact ⟨_, _, _, _, rfl, rfl, rfl, .inr ⟨by simp, rfl⟩, h⟩
  | none =>
    have hdate : δ (w.now r'.moment) = δ (w.now r.moment) := hclock rfl _ _ h.moment
    exact ⟨_, _, _, _, rfl, rfl,
      congrArg (fun date => { Song.new job.key "" with dateAdded := date }) hdate,
      .inl ⟨rfl, rfl⟩, h.asked⟩

/-! ## Jobs -/

/-- The tags of a file are read into its record, in modes that treat it alike. -/
theorem updateFromFile (hw : w.Steady) (h : Ahead δ gap more fresh r r') {mode : Mode} {job : Job}
    {existing : Option Song} (hexisting : (if s.mode = .rebuild then none else job.existing) = existing)
    (hexisting' : (if mode = .rebuild then none else job.existing) = existing)
    (hmoves : mode.allowsMoves = s.mode.allowsMoves) (hfresh : fresh → existing = none)
    (hclock : existing = none → w.Blurs δ gap) :
    Ahead δ gap more fresh (r.updateFromFile s w job) (r'.updateFromFile { s with mode } w job) := by
  obtain ⟨parsed, r₁, r₁', hread, hread', h₁⟩ := h.readTags hw job.path
  unfold Run.updateFromFile
  dsimp only
  rw [hread, hread', hexisting, hexisting', hmoves]
  cases parsed with
  | none => exact h₁.skip .noTags
  | some parsed =>
    dsimp only
    split
    · exact h₁.skip .noTags
    · obtain ⟨song, song', r₂, r₂', hrecord, hrecord', hsong, hsame, h₂⟩ := h₁.recordFor job hclock
      obtain ⟨g, hg⟩ := onTags_fillDerived s.refs s.readingTemplate job.relative
      rw [hrecord, hrecord', show Setup.readingTemplate { s with mode } = s.readingTemplate from rfl]
      dsimp only
      rw [hg, hg]
      have hfilled : Song.redate δ { song' with tags := g parsed.tags } =
          Song.redate δ { song with tags := g parsed.tags } :=
        congrArg (fun song : Song => { song with tags := g parsed.tags }) hsong
      -- The file is moved, or stays.
      obtain ⟨uri, r₃, r₃', hmoved, hmoved', h₃⟩ : ∃ uri r₃ r₃',
          (if s.autoOrganize && s.mode.allowsMoves then
            r₂.rename s w { song with tags := g parsed.tags } job.path (s.bypass? job.relative) false
          else ({ song with tags := g parsed.tags }, r₂)) =
            ({ song with tags := g parsed.tags, uri }, r₃) ∧
          (if s.autoOrganize && s.mode.allowsMoves then
            r₂'.rename { s with mode } w { song' with tags := g parsed.tags } job.path
              (Setup.bypass? { s with mode } job.relative) false
          else ({ song' with tags := g parsed.tags }, r₂')) =
            ({ song' with tags := g parsed.tags, uri }, r₃') ∧ Ahead δ gap more fresh r₃ r₃' := by
        split
        · exact h₂.rename hw.toReliable hfilled job.path (s.bypass? job.relative) false
        · obtain ⟨date, rfl⟩ := Song.eq_of_redate δ hsong
          exact ⟨song.uri, _, _, rfl, rfl, h₂⟩
      rw [hmoved, hmoved']
      dsimp only
      have hnamed : Song.redate δ { song' with tags := g parsed.tags, uri } =
          Song.redate δ { song with tags := g parsed.tags, uri } :=
        congrArg (fun song : Song => { song with uri }) hfilled
      have hstored := h₃.store hw.toSound existing.isSome hnamed fun hnew => by
        rcases hsame with ⟨-, hid⟩ | ⟨hne, -⟩
        · exact hid
        · exact absurd (hfresh hnew) hne
      rcases hsame with ⟨rfl, -⟩ | ⟨-, rfl⟩
      · exact hstored.count .processed
      · split
        · exact h₃.count .processed
        · exact hstored.count .processed

theorem writeInto (hw : w.Steady) (h : Ahead δ gap more fresh r r') (path : Path) (desired : TagMap)
    (parsed : ParsedTags) :
    Ahead δ gap more fresh (r.writeInto w path desired parsed) (r'.writeInto w path desired parsed) := by
  unfold Run.writeInto
  rw [h.files, hw.writes r'.moment r.moment]
  split
  · exact h.count .bad
  · split
    · exact h.asked.count .bad
    · exact h.asked
    · split
      · exact h.asked.count .bad
      · exact (h.asked.withFiles _ _ _).count .writtenTags

theorem writeTags (hw : w.Steady) (h : Ahead δ gap more fresh r r') (job : Job) :
    Ahead δ gap more fresh (r.writeTags w job) (r'.writeTags w job) := by
  obtain ⟨parsed, r₁, r₁', hread, hread', h₁⟩ := h.readTags hw job.path
  unfold Run.writeTags
  rw [hread, hread']
  split
  · exact h.count .processed
  · split
    · next hpair =>
      cases hpair
      exact h₁.skip .noTags
    · next hpair =>
      cases hpair
      exact (h₁.writeInto hw _ _ _).count .processed

theorem updateFromTracks (hw : w.Steady) (h : Ahead δ gap more fresh r r') {job : Job}
    (hfresh : ¬ fresh) : Ahead δ gap more fresh (r.updateFromTracks w job) (r'.updateFromTracks w job) := by
  unfold Run.updateFromTracks
  rw [hw.tracks r'.moment r.moment]
  split
  · exact h.count .processed
  · split
    · exact h.asked.count .processed
    · dsimp only
      split
      · exact h.asked.count .processed
      · exact (h.asked.store hw.toSound true rfl fun hnew => absurd hnew hfresh).count .processed

theorem reorganize (hw : w.Steady) (h : Ahead δ gap more fresh r r') {job : Job} (hfresh : ¬ fresh) :
    Ahead δ gap more fresh (r.reorganize s w job) (r'.reorganize s w job) := by
  unfold Run.reorganize
  split
  · exact h.count .processed
  · next existing _ =>
    obtain ⟨uri, r₁, r₁', hmoved, hmoved', h₁⟩ := h.rename (s := s) hw.toReliable
      (rfl : existing.redate δ = existing.redate δ) job.path (s.bypass? job.relative) true
    rw [hmoved, hmoved']
    dsimp only
    split
    · exact h₁.count .processed
    · exact (h₁.store hw.toSound true rfl fun hnew => absurd hnew hfresh).count .processed

/-- **A job comes to the same in states that are alike**, if the dates of new songs do. -/
theorem perform (hw : w.Steady) (h : Ahead δ gap more False r r') (job : Job)
    (hclock : s.mode = .rebuild ∨ job.existing = none → w.Blurs δ gap) :
    Ahead δ gap more False (r.perform s w job) (r'.perform s w job) := by
  have hupdated : Ahead δ gap more False (r.updateFromFile s w job) (r'.updateFromFile s w job) := by
    refine h.updateFromFile hw rfl rfl rfl False.elim fun hnone => hclock ?_
    split at hnone
    · next hmode => exact .inl hmode
    · exact .inr hnone
  unfold Run.perform
  split
  · exact h.writeTags hw job
  · exact h.updateFromTracks hw id
  · exact h.reorganize hw id
  all_goals exact hupdated

end Ahead

/-! ## What a job leaves alone -/

/-- What doing a job leaves alone: what has been found and is in the queue, where
    candidates come from, and where the tables are. -/
structure Kept (r r' : Run) : Prop extends SameCourse r r', SameSource r r' where
  queue : r'.queue = r.queue
  found : r'.history.found = r.history.found
  taken : r'.history.taken = r.history.taken
  counts : ∀ counter ∈ [Counter.found, .queued, .queueHighWater],
    r'.counters.get counter = r.counters.get counter
  primary : r'.primary.map OpenTable.location = r.primary.map OpenTable.location
  target : r'.target.map OpenTable.location = r.target.map OpenTable.location
  library : r.target.isSome → r'.primary = r.primary

namespace Kept

theorem refl (r : Run) : Kept r r :=
  { phase := rfl, stopped := rfl, source := rfl, lastCopied := rfl, queue := rfl, found := rfl,
    taken := rfl, counts := fun _ _ => rfl, primary := rfl, target := rfl, library := fun _ => rfl }

theorem target_isSome (h : Kept r r') : r'.target.isSome = r.target.isSome := by
  simpa using congrArg Option.isSome h.target

theorem trans (h : Kept r r') (h' : Kept r' r'') : Kept r r'' where
  toSameCourse := h.toSameCourse.trans h'.toSameCourse
  source := h'.source.trans h.source
  lastCopied := h'.lastCopied.trans h.lastCopied
  queue := h'.queue.trans h.queue
  found := h'.found.trans h.found
  taken := h'.taken.trans h.taken
  counts counter hc := (h'.counts counter hc).trans (h.counts counter hc)
  primary := h'.primary.trans h.primary
  target := h'.target.trans h.target
  library hsome := (h'.library (h.target_isSome ▸ hsome)).trans (h.library hsome)

theorem count (h : Kept r r') {counter : Counter}
    (hc : counter ∉ [Counter.found, .queued, .queueHighWater]) : Kept r (r'.count counter) :=
  { h with
    toSameCourse := ⟨h.phase, h.stopped⟩
    toSameSource := ⟨h.source, h.lastCopied⟩
    counts := fun k hk => by
      have hne : k ≠ counter := by
        rintro rfl
        exact hc hk
      simp only [Run.count, Counters.increment, Counters.get_set, if_neg hne]
      exact h.counts k hk }

end Kept

theorem Deed.kept {job : Job} (h : Deed s w job r r') : Kept r r' := by
  have hrefl := Kept.refl r
  cases h with
  | ask _ => exact { hrefl with toSameCourse := ⟨rfl, rfl⟩, toSameSource := ⟨rfl, rfl⟩ }
  | @note counter hdetail =>
    refine hrefl.count ?_
    revert hdetail
    cases counter <;> decide
  | store _ hstored =>
    cases hstored with
    | failed _ _ _ => exact { hrefl with toSameCourse := ⟨rfl, rfl⟩, toSameSource := ⟨rfl, rfl⟩ }
    | added _ _ _ htarget _ =>
      exact { hrefl with
        toSameCourse := ⟨rfl, rfl⟩, toSameSource := ⟨rfl, rfl⟩, target := by simp [htarget] }
    | saved _ hnone hprimary _ =>
      exact { hrefl with
        toSameCourse := ⟨rfl, rfl⟩, toSameSource := ⟨rfl, rfl⟩, primary := by simp [hprimary]
        library := fun hsome => by simp [hnone] at hsome }
  | move hrenamed _ =>
    cases hrenamed with
    | stays => exact hrefl
    | failed _ => exact { hrefl with toSameCourse := ⟨rfl, rfl⟩, toSameSource := ⟨rfl, rfl⟩ }
    | moved _ _ => exact { hrefl with toSameCourse := ⟨rfl, rfl⟩, toSameSource := ⟨rfl, rfl⟩ }
  | write _ _ _ => exact { hrefl with toSameCourse := ⟨rfl, rfl⟩, toSameSource := ⟨rfl, rfl⟩ }

theorem perform_kept (s : Setup) (w : Services) (r : Run) (job : Job) :
    Kept r (r.perform s w job) := by
  obtain ⟨r₁, hdeeds, hsettled⟩ := perform_deeds s w r job
  have hkept : Kept r r₁ := by
    clear hsettled
    induction hdeeds with
    | refl => exact .refl r
    | tail _ hdeed ih => exact ih.trans hdeed.kept
  generalize r.perform s w job = r' at hsettled
  cases hsettled with
  | processed => exact hkept.count (by decide)
  | noTags => exact (hkept.count (by decide)).count (by decide)

/-! ## Jobs one after the other -/

variable (s w) in
/-- Do some jobs, one after the other. -/
def performAll (r : Run) (jobs : List Job) : Run :=
  jobs.foldl (perform s w) r

theorem performAll_kept (r : Run) (jobs : List Job) : Kept r (r.performAll s w jobs) := by
  induction jobs generalizing r with
  | nil => exact .refl r
  | cons job rest ih => exact (perform_kept s w r job).trans (ih _)

theorem Ahead.performAll (hw : w.Steady) (h : Ahead δ gap more False r r') (jobs : List Job)
    (hclock : ∀ job ∈ jobs, s.mode = .rebuild ∨ job.existing = none → w.Blurs δ gap) :
    Ahead δ gap more False (r.performAll s w jobs) (r'.performAll s w jobs) := by
  induction jobs generalizing r r' with
  | nil => exact h
  | cons job rest ih =>
    obtain ⟨hjob, hrest⟩ := List.forall_mem_cons.1 hclock
    exact ih (h.perform hw job hjob) hrest

end Run

end SongLibrary.Reconcile
