/-
  Copying a record and doing a job, in either order.

  * `Run.Ahead.copyRecord`: a record is copied alike in states that are alike;
  * `Run.Accepts` says what becomes of a state when its new table takes a song, or does
    not; two songs with different ids may go there in either order (`Accepts.swap`);
  * `performAll_swaps`: a record may be copied before some jobs are done as well as
    afterwards, if the songs that these add get other ids than it has.
-/
import SongLibrary.Proofs.Reconcile.Alike
import SongLibrary.Proofs.Reconcile.CheckingNew
import SongLibrary.Proofs.SongTable.Accepting

namespace SongLibrary.Reconcile

/-! ## Counting -/

/-- How often a counter is among some. -/
def tally (marks : List Counter) (counter : Counter) : UInt64 :=
  .ofNat (marks.count counter)

@[simp] theorem tally_nil (counter : Counter) : tally [] counter = 0 := rfl

theorem tally_append (marks marks' : List Counter) (counter : Counter) :
    tally (marks ++ marks') counter = tally marks counter + tally marks' counter := by
  rw [tally, List.count_append, UInt64.ofNat_add]
  rfl

theorem tally_cons (mark : Counter) (marks : List Counter) (counter : Counter) :
    tally (mark :: marks) counter = tally [mark] counter + tally marks counter :=
  tally_append [mark] marks counter

theorem Counters.get_increment (counters : Counters) (mark counter : Counter) :
    (counters.increment mark).get counter = counters.get counter + tally [mark] counter := by
  rw [increment, get_set]
  by_cases h : counter = mark
  · rw [if_pos h, tally, h, List.count_singleton_self]
    rfl
  · rw [if_neg h, tally, List.count_eq_zero_of_not_mem (by simpa using h)]
    exact (UInt64.add_zero _).symm

namespace Run

variable {s : Setup} {w : Services} {δ : String → String} {gap gap' : Int}
  {more : Counter → UInt64} {r r' x x' y y' : Run} {song : Song}

/-- States that are as far ahead of one are alike. -/
theorem Ahead.alike (h : Ahead δ gap more False r x) (h' : Ahead δ gap' more False r x') :
    Alike δ (gap' - gap) False x x' := by
  refine ⟨h'.files.trans h.files.symm, h'.nextId.trans h.nextId.symm, fun counter hc => ?_,
    h'.table.trans h.table.symm, .inl ?_, ?_⟩
  · rw [h'.counts counter hc, h.counts counter hc, UInt64.add_zero]
  · rw [h'.kind.resolve_right And.left, h.kind.resolve_right And.left]
  · have hmoment := h.moment
    have hmoment' := h'.moment
    omega

theorem Ahead.of_count (δ : String → String) (r : Run) (counter : Counter) :
    Ahead δ 0 (tally [counter]) False r (r.count counter) :=
  ⟨rfl, rfl, fun k _ => r.counters.get_increment counter k, rfl, .inl rfl, (Int.add_zero _).symm⟩

/-- A state that has skipped a candidate is ahead by that. -/
theorem Ahead.of_skip (δ : String → String) (r : Run) (moment : Nat) (reason : Counter) :
    Ahead δ ((moment : Int) - r.moment) (fun k => tally [reason] k + tally [.skipped] k) False r
      ({ r with moment }.skip reason) := by
  refine ⟨rfl, rfl, fun k _ => ?_, rfl, .inl rfl, ?_⟩
  · change ((r.counters.increment reason).increment .skipped).get k = _
    rw [Counters.get_increment, Counters.get_increment, UInt64.add_assoc]
  · change (moment : Int) = _
    omega

/-! ## Copying -/

theorem lastCopied_copyRecord (w : Services) (r : Run) (song : Song) :
    (r.copyRecord w song).lastCopied = some song.uri := by
  obtain ⟨r₁, hcopied, heq⟩ := r.copyRecord_cases w song
  rw [heq]
  cases hcopied with
  | repeated h => exact h
  | added _ _ => rfl
  | failed => rfl

/-- Copying a record changes nothing in the books but the new table. -/
theorem copyRecord_books (r : Run) (w : Services) (song : Song) :
    ∃ target, (r.copyRecord w song).books = { r.books with target } ∧
      target.isSome = r.target.isSome := by
  obtain ⟨r₁, hcopied, heq⟩ := r.copyRecord_cases w song
  rw [heq]
  cases hcopied with
  | repeated _ => exact ⟨r.target, rfl, rfl⟩
  | added htarget _ => exact ⟨_, rfl, by rw [htarget]; rfl⟩
  | failed => exact ⟨r.target, rfl, rfl⟩

theorem copyRecord_repeated (h : r.lastCopied = some song.uri) :
    r.copyRecord w song = r.count .processed :=
  if_pos h

/-- A record at another location is stored in the new table. -/
theorem copyRecord_stores (hw : w.Sound) (h : r.lastCopied ≠ some song.uri)
    (htarget : r.target.isSome) :
    r.copyRecord w song =
      match ({ r with lastCopied := some song.uri } : Run).storeIn w song with
      | some r => r.count .processed
      | none => (({ r with lastCopied := some song.uri } : Run).asked.count .bad).count .processed := by
  have hsome : ({ r with lastCopied := some song.uri } : Run).target.isSome := htarget
  cases hadd : ({ r with lastCopied := some song.uri } : Run).asked.addToTarget song <;>
    simp only [copyRecord, if_neg h, storeIn, hw.tableFails, Bool.false_eq_true, if_false, hsome,
      if_true, hadd]

/-- A record is copied alike in states that are alike. -/
theorem Ahead.copyRecord (hw : w.Sound) (h : Ahead δ gap more False r r')
    (hlast : r'.lastCopied = r.lastCopied) (song : Song) :
    Ahead δ gap more False (r.copyRecord w song) (r'.copyRecord w song) := by
  have hkind : r'.target.isSome = r.target.isSome := h.kind.resolve_right And.left
  by_cases hrepeated : r.lastCopied = some song.uri
  · rw [copyRecord_repeated hrepeated, copyRecord_repeated (hlast.trans hrepeated)]
    exact h.count .processed
  · have hnoted : Ahead δ gap more False { r with lastCopied := some song.uri }
        { r' with lastCopied := some song.uri } :=
      ⟨h.files, h.nextId, h.counts, h.table, h.kind, h.moment⟩
    by_cases htarget : r.target.isSome
    · rw [copyRecord_stores hw hrepeated htarget,
        copyRecord_stores hw (hlast ▸ hrepeated) (hkind ▸ htarget)]
      rcases hnoted.storeIn hw (rfl : song.redate δ = song.redate δ) (.inl hkind) with
        ⟨hnone, hnone'⟩ | ⟨r₁, r₁', hsome, hsome', h₁⟩
      · simp only [hnone, hnone']
        exact (hnoted.asked.count .bad).count .processed
      · simp only [hsome, hsome']
        exact h₁.count .processed
    · -- There is no new table.
      have hfails : ∀ {r : Run}, r.lastCopied ≠ some song.uri → ¬ r.target.isSome →
          r.copyRecord w song =
            (({ r with lastCopied := some song.uri } : Run).asked.count .bad).count .processed := by
        intro r hrepeated htarget
        have hnone : r.target = none := by simpa using htarget
        simp [Run.copyRecord, hrepeated, hw.tableFails, addToTarget, Run.asked, hnone]
      rw [hfails hrepeated htarget, hfails (hlast ▸ hrepeated) (hkind ▸ htarget)]
      exact (hnoted.asked.count .bad).count .processed

variable (w) in
/-- Copy some records, one after the other. -/
def copyAll (r : Run) (songs : List Song) : Run :=
  songs.foldl (copyRecord w) r

/-! ## Songs that go into the new table -/

/-- The table that a run writes, aside from dates. -/
def plain (r : Run) : Option SongTable :=
  r.written.map (SongTable.redate fun _ => "")

/-- What becomes of a state when its new table takes a song, or does not: that is counted. -/
structure Accepts (song : Song) (marks : Bool → List Counter) (r r' : Run) : Prop where
  files : r'.files = r.files
  target : r'.target.isSome = r.target.isSome
  table : r'.plain = r.plain.map (·.accept song)
  counts : ∀ counter, counter ≠ .queueHighWater → r'.counters.get counter =
    r.counters.get counter + tally (marks (r.plain.any (·.accepts song))) counter

namespace Accepts

variable {marks marks' : Bool → List Counter} {other : Song} {id otherId : Int64}

/-- The new table has taken a song, or it has not. -/
theorem of_insert {target : OpenTable} (htarget : r.target = some target)
    (hfiles : r'.files = r.files)
    (h : (∃ id table, target.table.insert? song = some (id, table) ∧
        r'.target = some { target with table } ∧ ∀ counter, r'.counters.get counter =
          r.counters.get counter + tally (marks true) counter) ∨
      target.table.insert? song = none ∧ r'.target = some target ∧
        ∀ counter, r'.counters.get counter = r.counters.get counter + tally (marks false) counter) :
    Accepts (song.redate fun _ => "") marks r r' := by
  have hplain : ∀ {r : Run} {target : OpenTable}, r.target = some target →
      r.plain = some (target.table.redate fun _ => "") := fun htarget => by
    simp [plain, written, htarget]
  have haccepts : (target.table.redate fun _ => "").accepts (song.redate fun _ => "") =
      target.table.accepts song := target.table.accepts_redate fun _ => ""
  rcases h with ⟨id, table, hinsert, htarget', hcounts⟩ | ⟨hnone, htarget', hcounts⟩
  · obtain ⟨htaken, htable⟩ := SongTable.accept_of_insert? hinsert
    refine ⟨hfiles, by rw [htarget, htarget']; rfl, ?_, fun counter _ => ?_⟩
    · rw [hplain htarget', hplain htarget, Option.map_some, SongTable.accept_redate, htable]
    · rw [hcounts, hplain htarget, Option.any_some, haccepts, htaken]
  · obtain ⟨hrefused, htable⟩ := SongTable.accept_of_refused hnone
    refine ⟨hfiles, by rw [htarget, htarget'], ?_, fun counter _ => ?_⟩
    · rw [hplain htarget', hplain htarget, Option.map_some, SongTable.accept_redate, htable]
    · rw [hcounts, hplain htarget, Option.any_some, haccepts, hrefused]

theorem of_moment {moment : Nat} (h : Accepts song marks { r with moment } r') :
    Accepts song marks r r' :=
  ⟨h.files, h.target, h.table, h.counts⟩

theorem count (h : Accepts song marks r r') (counter : Counter) :
    Accepts song (fun taken => marks taken ++ [counter]) r (r'.count counter) := by
  refine ⟨h.files, h.target, h.table, fun k hk => ?_⟩
  rw [tally_append, ← UInt64.add_assoc, ← h.counts k hk]
  exact Counters.get_increment _ _ _

/-- **Two songs with different ids go into the new table in either order.** -/
theorem swap (hid : song.id = some id) (hother : other.id = some otherId) (hne : id ≠ otherId)
    (hx : Accepts song marks r x) (hxy : Accepts other marks' x y)
    (hx' : Accepts other marks' r x') (hxy' : Accepts song marks x' y')
    (hnext : y'.nextId = y.nextId) :
    Alike (fun _ => "") ((y'.moment : Int) - y.moment) False y y' := by
  have htable : y'.plain = y.plain := by
    rw [hxy'.table, hx'.table, hxy.table, hx.table, Option.map_map, Option.map_map]
    exact Option.map_congr fun t _ => (SongTable.accept_comm hid hother hne).symm
  have hsong : x'.plain.any (·.accepts song) = r.plain.any (·.accepts song) := by
    rw [hx'.table, Option.any_map]
    exact congrArg (Option.any · r.plain)
      (funext fun t => SongTable.accepts_accept hid hother hne)
  have hothers : x.plain.any (·.accepts other) = r.plain.any (·.accepts other) := by
    rw [hx.table, Option.any_map]
    exact congrArg (Option.any · r.plain)
      (funext fun t => SongTable.accepts_accept hother hid hne.symm)
  refine ⟨?_, hnext, fun counter hc => ?_, htable, .inl ?_, by omega⟩
  · rw [hxy'.files, hx'.files, hxy.files, hx.files]
  · rw [hxy'.counts counter hc, hx'.counts counter hc, hxy.counts counter hc, hx.counts counter hc,
      hsong, hothers, UInt64.add_zero, UInt64.add_assoc, UInt64.add_assoc,
      UInt64.add_comm (tally _ _) (tally _ _)]
  · rw [hxy'.target, hx'.target, hxy.target, hx.target]

end Accepts

/-- A record that is copied goes into the new table, unless the record copied last has the
    same location. -/
theorem copyRecord_accepts {target : OpenTable} (hw : w.Sound) (htarget : r.target = some target)
    (hlast : r.lastCopied ≠ some song.uri) :
    Accepts (song.redate fun _ => "") (fun taken => (if taken then [] else [.bad]) ++ [.processed]) r
        (r.copyRecord w song) ∧ (r.copyRecord w song).nextId = r.nextId := by
  rw [copyRecord_stores hw hlast (by rw [htarget]; rfl)]
  cases hinsert : target.table.insert? song with
  | none =>
    have hstore : ({ r with lastCopied := some song.uri } : Run).storeIn w song = none := by
      simp [storeIn, hw.tableFails, addToTarget, Run.asked, htarget, hinsert]
    have haccepts : Accepts (song.redate fun _ => "") (fun taken => if taken then [] else [.bad]) r
        (({ r with lastCopied := some song.uri } : Run).asked.count .bad) :=
      .of_insert htarget rfl (.inr ⟨hinsert, htarget, r.counters.get_increment .bad⟩)
    simp only [hstore]
    exact ⟨haccepts.count .processed, rfl⟩
  | some taken =>
    obtain ⟨id, table⟩ := taken
    obtain ⟨r₁, hstore, hfiles, htable, hcounters, hnext⟩ : ∃ r₁ : Run,
        ({ r with lastCopied := some song.uri } : Run).storeIn w song = some r₁ ∧
          r₁.files = r.files ∧ r₁.target = some { target with table } ∧
          r₁.counters = r.counters ∧ r₁.nextId = r.nextId := by
      simp [storeIn, hw.tableFails, addToTarget, Run.asked, htarget, hinsert]
    have haccepts : Accepts (song.redate fun _ => "") (fun taken => if taken then [] else [.bad]) r r₁ :=
      .of_insert htarget hfiles (.inl ⟨id, table, hinsert, htable, fun counter => by
        rw [hcounters]
        exact (UInt64.add_zero _).symm⟩)
    simp only [hstore]
    exact ⟨haccepts.count .processed, hnext⟩

/-- A song without an id goes into the new table under the next one. -/
theorem store_accepts {target : OpenTable} {id : Int64} (hw : w.Sound)
    (htarget : r.target = some target) (hnext : r.nextId = some id) (hid : song.id = none) :
    Accepts (Song.redate (fun _ => "") { song with id := some id })
        (fun taken => [if taken then .new else .bad]) r (r.store w song false) ∧
      (r.store w song false).nextId = some (id + 1) ∧
      (r.store w song false).lastCopied = r.lastCopied := by
  have hassign : (if r.target.isSome then r.assignId song else (song, r)) =
      ({ song with id := some id }, { r with nextId := some (id + 1) }) := by
    rw [if_pos (by rw [htarget]; rfl)]
    simp only [assignId, hid, hnext]
  unfold store
  rw [hassign]
  dsimp only
  cases hinsert : target.table.insert? { song with id := some id } with
  | none =>
    have hstore : ({ r with nextId := some (id + 1) } : Run).storeIn w { song with id := some id } =
        none := by
      simp [storeIn, hw.tableFails, addToTarget, Run.asked, htarget, hinsert]
    simp only [hstore]
    exact ⟨.of_insert htarget rfl (.inr ⟨hinsert, htarget, r.counters.get_increment .bad⟩), rfl, rfl⟩
  | some taken =>
    obtain ⟨id', table⟩ := taken
    obtain ⟨r₁, hstore, hfiles, htable, hcounters, hkept⟩ : ∃ r₁ : Run,
        ({ r with nextId := some (id + 1) } : Run).storeIn w { song with id := some id } = some r₁ ∧
          r₁.files = r.files ∧ r₁.target = some { target with table } ∧
          r₁.counters = r.counters ∧ r₁.nextId = some (id + 1) ∧ r₁.lastCopied = r.lastCopied := by
      simp [storeIn, hw.tableFails, addToTarget, Run.asked, htarget, hinsert]
    simp only [hstore]
    refine ⟨.of_insert htarget hfiles (.inl ⟨id', table, hinsert, htable, fun counter => ?_⟩), hkept⟩
    rw [← hcounters]
    exact r₁.counters.get_increment .new counter

/-! ## In either order -/

variable (s w) in
/-- A record may be copied before some jobs are done as well as afterwards. -/
def Swaps (r : Run) (song : Song) (jobs : List Job) : Prop :=
  ∃ gap, Alike (fun _ => "") gap False ((r.copyRecord w song).performAll s w jobs)
    ((r.performAll s w jobs).copyRecord w song)

theorem blurs_const (w : Services) (gap : Int) : w.Blurs (fun _ => "") gap :=
  fun _ _ _ => rfl

/-- What only counts may be done before a job as well as afterwards. -/
theorem swaps_of_ahead (hw : w.Steady) (job : Job) (h : r.copyRecord w song = r.count .processed)
    (hlast : (r.perform s w job).copyRecord w song = (r.perform s w job).count .processed) :
    Swaps s w r song [job] := by
  have hbefore := (Ahead.of_count (fun _ => "") r .processed).perform (s := s) hw job
    fun _ => blurs_const w _
  have hafter := Ahead.of_count (fun _ => "") (r.perform s w job) .processed
  rw [← h] at hbefore
  rw [← hlast] at hafter
  exact ⟨_, hbefore.alike hafter⟩

/-- A record that has been copied last is passed over, before a job and after it. -/
theorem swaps_of_repeated (hw : w.Steady) (job : Job) (h : r.lastCopied = some song.uri) :
    Swaps s w r song [job] :=
  swaps_of_ahead hw job (copyRecord_repeated h)
    (copyRecord_repeated ((perform_kept s w r job).lastCopied.trans h))

/-- A job that finds no tags, before a record is copied and afterwards. -/
theorem swaps_of_skip {job : Job} {moment moment' : Nat} (hw : w.Sound)
    (hskip : r.perform s w job = { r with moment }.skip .noTags)
    (hskip' : (r.copyRecord w song).perform s w job =
      { r.copyRecord w song with moment := moment' }.skip .noTags) : Swaps s w r song [job] := by
  have hafter := (Ahead.of_skip (fun _ => "") r moment .noTags).copyRecord hw rfl song
  rw [← hskip] at hafter
  have hbefore := Ahead.of_skip (fun _ => "") (r.copyRecord w song) moment' .noTags
  rw [← hskip'] at hbefore
  exact ⟨_, hbefore.alike hafter⟩

/-- A song that a job adds goes into the new table under the next id. -/
theorem processed_accepts {target : OpenTable} {next : Int64} {key date : String} {tags : TagMap}
    {moment : Nat} (hw : w.Sound) (htarget : r.target = some target) (hnext : r.nextId = some next)
    (h : r' = ({ r with moment }.store w { Song.new key date with tags } false).count .processed) :
    Accepts { Song.new key "" with tags, id := some next }
        (fun taken => [if taken then .new else .bad] ++ [.processed]) r r' ∧
      r'.nextId = some (next + 1) := by
  subst h
  obtain ⟨haccepts, hafter, -⟩ := store_accepts (r := { r with moment }) hw htarget hnext
    (rfl : Song.id { Song.new key date with tags } = none)
  exact ⟨haccepts.of_moment.count .processed, hafter⟩

/-- **A record may be copied before the job for a new file is done**, if the next id is
    not that of the record. -/
theorem perform_swaps {target : OpenTable} {id next : Int64} {p : Path} (hw : w.Steady)
    (hmode : ∃ checkNew, s.mode = .compact checkNew) (htarget : r.target = some target)
    (hnext : r.nextId = some next) (hid : song.id = some id) (hne : id ≠ next) :
    Swaps s w r song [s.newJob p] ∧
      ∃ target, (r.perform s w (s.newJob p)).target = some target ∧
        ((r.perform s w (s.newJob p)).nextId = some next ∨
          (r.perform s w (s.newJob p)).nextId = some (next + 1)) := by
  have horganize : (s.autoOrganize && s.mode.allowsMoves) = false := by
    obtain ⟨checkNew, hmode⟩ := hmode
    rw [hmode]
    exact Bool.and_false _
  have hkept := perform_kept s w r (s.newJob p)
  obtain ⟨target', htarget'⟩ := Option.isSome_iff_exists.1
    (hkept.target_isSome.trans (by rw [htarget]; rfl))
  obtain ⟨moment, hperform⟩ := r.perform_new (p := p) hw (.inr hmode) horganize
  refine ⟨?_, target', htarget', ?_⟩
  · by_cases hrepeated : r.lastCopied = some song.uri
    · exact swaps_of_repeated hw _ hrepeated
    · obtain ⟨hcopied, hcopiedNext⟩ := copyRecord_accepts hw.toSound htarget hrepeated
      obtain ⟨moment', hperform'⟩ :=
        (r.copyRecord w song).perform_new (p := p) hw (.inr hmode) horganize
      -- The files are the same, and so is what the job finds in its file.
      rcases hperform with ⟨hnone, hskip⟩ | ⟨new, date, hnew, hstore⟩
      · obtain ⟨-, hskip'⟩ := hperform'.resolve_right fun ⟨_, _, hsome, _⟩ => by
          simp [hcopied.files, hnone] at hsome
        exact swaps_of_skip hw.toSound hskip hskip'
      · obtain ⟨new', date', hnew', hstore'⟩ := hperform'.resolve_left fun ⟨hnone, _⟩ => by
          simp [← hcopied.files, hnone] at hnew
        rw [hcopied.files] at hnew'
        obtain rfl := Option.some.inj (hnew.symm.trans hnew')
        obtain ⟨tags, rfl⟩ := Setup.newSong?_eq_some hnew
        obtain ⟨copied, hcopiedTarget⟩ := Option.isSome_iff_exists.1
          (hcopied.target.trans (by rw [htarget]; rfl))
        obtain ⟨hadded, hafter⟩ := processed_accepts hw.toSound htarget hnext hstore
        obtain ⟨hadded', hafter'⟩ :=
          processed_accepts hw.toSound hcopiedTarget (hcopiedNext.trans hnext) hstore'
        have hrepeated' : (r.perform s w (s.newJob p)).lastCopied ≠ some song.uri :=
          hkept.lastCopied ▸ hrepeated
        obtain ⟨hlater, hlaterNext⟩ := copyRecord_accepts hw.toSound htarget' hrepeated'
        have hcopiedId : (song.redate fun _ => "").id = some id := hid
        exact ⟨_, Accepts.swap hcopiedId rfl hne hcopied hadded' hadded hlater
          (hlaterNext.trans (hafter.trans hafter'.symm))⟩
  · rcases hperform with ⟨-, hskip⟩ | ⟨new, date, hnew, hstore⟩
    · rw [hskip]
      exact .inl hnext
    · obtain ⟨tags, rfl⟩ := Setup.newSong?_eq_some hnew
      exact .inr (processed_accepts hw.toSound htarget hnext hstore).2

/-- **A record may be copied before the jobs for some new files are done**, if its id is
    none that these are to give. -/
theorem performAll_swaps {target : OpenTable} {id next : Int64} {paths : List Path} (hw : w.Steady)
    (hmode : ∃ checkNew, s.mode = .compact checkNew) (htarget : r.target = some target)
    (hnext : r.nextId = some next) (hid : song.id = some id)
    (hne : ∀ k < paths.length, id ≠ next + .ofNat k) : Swaps s w r song (paths.map s.newJob) := by
  induction paths generalizing r target next with
  | nil => exact ⟨0, .refl _ _ _⟩
  | cons p paths ih =>
    have hfirst : id ≠ next := by
      have hzero := hne 0 (by simp)
      rwa [show next + Int64.ofNat 0 = next from Int64.add_zero next] at hzero
    obtain ⟨⟨gap, hswaps⟩, target', htarget', hnext'⟩ :=
      perform_swaps (p := p) hw hmode htarget hnext hid hfirst
    -- The next id is as it was, or the one after that.
    obtain ⟨next', hnext', hne'⟩ : ∃ next', (r.perform s w (s.newJob p)).nextId = some next' ∧
        ∀ k < paths.length, id ≠ next' + .ofNat k := by
      rcases hnext' with hsame | hafter
      · exact ⟨next, hsame, fun k hk => hne k (by simp; omega)⟩
      · refine ⟨next + 1, hafter, fun k hk => ?_⟩
        have hlater := hne (k + 1) (by simpa using hk)
        rwa [Int64.ofNat_add, Int64.add_comm (.ofNat k), ← Int64.add_assoc] at hlater
    obtain ⟨gap', hrest⟩ := ih htarget' hnext' hne'
    have hperformed : Alike (fun _ => "") gap False
        (((r.copyRecord w song).perform s w (s.newJob p)).performAll s w (paths.map s.newJob))
        (((r.perform s w (s.newJob p)).copyRecord w song).performAll s w (paths.map s.newJob)) :=
      Ahead.performAll hw hswaps _ fun _ _ _ => blurs_const w gap
    exact ⟨_, hperformed.trans hrest⟩

end Run

end SongLibrary.Reconcile
