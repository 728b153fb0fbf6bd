/-
  The ids of the songs that a copying run adds.

  A run that copies records into a new table gives the songs it adds ids of its own: the
  ones after the greatest that the library has, in the order of the jobs.  Records that are
  copied have theirs.

  * `Ledger` are the parts of a state that ids depend on; `Ledger.Considers` and
    `Ledger.Adds` list what looking at a file and doing the job for a new one do to them
    (`classify_ledger`, `perform_ledger`);
  * `Numbered` says which ids have been given, and `Numbering` that of a run that still adds
    songs; each step keeps them (`Numbering.considers`, `Numbering.adds`);
  * `new_ids_follow` is the main statement: as long as there are ids left, the new ones
    follow the old ones, and none is in use;
  * `new_id_displaces` is a library whose greatest id is the greatest there is: the next one
    is the least, which a record has that is then lost.
-/
import SongLibrary.Proofs.Reconcile.Driven
import SongLibrary.Proofs.Reconcile.Supply
import SongLibrary.Proofs.Reconcile.Tuning
import SongLibrary.Proofs.SongTable.NewIds

namespace SongLibrary.Reconcile

/-! ## What ids depend on -/

/-- The parts of a state that ids depend on. -/
structure Ledger where
  primary : Option OpenTable
  target : Option OpenTable
  source : Option Source
  nextId : Option Int64
  jobs : List Job
  taken : List Job
  written : List Row

/-- The ledger of a state. -/
def Run.ledger (r : Run) : Ledger :=
  ⟨r.primary, r.target, r.source, r.nextId, r.queue.toList, r.history.taken, r.history.written⟩

namespace Ledger

variable (g : Ledger)

/-- What looking at a file with a key does. -/
inductive Considers (key : String) : Ledger → Prop where
  | same : Considers key g
  /-- The library has no record of the file. -/
  | queued {job : Job} (hjob : job.existing = none ∧ job.key = key)
      (hnone : ∀ primary ∈ g.primary, primary.table.songAt? key = none) :
      Considers key { g with jobs := g.jobs ++ [job] }
  | copied {primary target : OpenTable} {song : Song} {id : Int64} {table : SongTable}
      (hprimary : g.primary = some primary) (hsong : primary.table.songAt? key = some song)
      (htarget : g.target = some target)
      (hinsert : target.table.insert? song = some (id, table)) :
      Considers key { g with
        target := some { target with table }
        written := song.row id :: g.written }

/-- What storing a song at a location does that has no id: it gets the next one, under which
    it is in the new table unless an operation fails or the id is in use. -/
inductive Adds (w : Services) (key : String) : Ledger → Prop where
  | refused {target : OpenTable} {song : Song} {id : Int64} (htarget : g.target = some target)
      (hnext : g.nextId = some id) (hid : song.id = some id)
      (h : ¬ (∀ moment, w.tableFails moment = false) ∨ target.table.insert? song = none) :
      Adds w key { g with nextId := some (id + 1) }
  | added {target : OpenTable} {song : Song} {id : Int64} {table : SongTable}
      (htarget : g.target = some target) (hnext : g.nextId = some id) (hid : song.id = some id)
      (hkey : song.uri = key) (hinsert : target.table.insert? song = some (id, table)) :
      Adds w key { g with
        nextId := some (id + 1)
        target := some { target with table }
        written := song.row id :: g.written }

end Ledger

namespace Run

variable {s : Setup} {w : Services} {r r' : Run}

/-! ## Looking at files -/

theorem copyRecord_ledger {primary : OpenTable} {key : String} {song : Song}
    (hprimary : r.primary = some primary) (hsong : primary.table.songAt? key = some song) :
    Ledger.Considers r.ledger key (r.copyRecord w song).ledger := by
  obtain ⟨r₁, hcopied, heq⟩ := r.copyRecord_cases w song
  rw [heq]
  cases hcopied with
  | repeated _ => exact .same
  | failed => exact .same
  | @added target id table htarget hinsert =>
    exact .copied (g := r.ledger) hprimary hsong htarget hinsert

theorem enqueue_ledger {c : Candidate}
    (hnone : ∀ primary ∈ r.primary, primary.table.songAt? c.key = none) :
    Ledger.Considers r.ledger c.key (r.enqueue s c none).ledger := by
  unfold enqueue
  split
  · exact .same
  · split
    · exact .same
    · next queue hpush =>
      have hqueued := @Ledger.Considers.queued r.ledger c.key
        ⟨c.path, c.key, pathFrom s.root c.path, none⟩ ⟨rfl, rfl⟩ hnone
      simp only [ledger, count]
      rw [Queue.toList_push hpush]
      exact hqueued

/-- A file without a record in the library gets a job; a record there is copied. -/
theorem classify_ledger (hmode : s.mode = .compact true) {c : Candidate} (hrecord : c.record = none) :
    Ledger.Considers r.ledger c.key (r.classify s w c).1.ledger := by
  unfold classify
  dsimp only
  split
  · exact .same
  · split
    · exact .same
    · obtain ⟨moment, hkeeps⟩ := existingRecord_keeps s w
        ({ r with history.found := c :: r.history.found }.count .found) c
      split
      · next hexisting =>
        rw [hexisting] at hkeeps
        obtain rfl := hkeeps
        exact .same
      · next r₁ existing hexisting =>
        obtain ⟨-, hfound⟩ := existingRecord_books hexisting
        rw [hexisting] at hkeeps
        have hledger : r₁.ledger = r.ledger := by rw [show r₁ = _ from hkeeps]; rfl
        have hprimary : r₁.primary = r.primary := congrArg Ledger.primary hledger
        rw [← hledger]
        unfold settle
        rcases hfound with ⟨rfl, hnone⟩ | ⟨song, rfl, -, hsong⟩
        · obtain ⟨-, hnone⟩ := hnone.resolve_left (by simp [hmode])
          refine enqueue_ledger (r := r₁) fun primary hsome => hnone primary ?_
          rw [hprimary] at hsome
          exact hsome
        · obtain ⟨-, primary, hsome, hat⟩ := hsong.resolve_left (by simp [hrecord])
          simp only [hmode]
          exact copyRecord_ledger (r := r₁.count .alreadyInTable) (hprimary.trans hsome) hat

/-! ## Doing jobs -/

/-- A song without an id is stored under the next one. -/
theorem store_adds {target : OpenTable} {id : Int64} {song : Song} (htarget : r.target = some target)
    (hnext : r.nextId = some id) (hid : song.id = none) :
    Ledger.Adds r.ledger w song.uri (r.store w song false).ledger := by
  have hassign : (if r.target.isSome then r.assignId song else (song, r)) =
      ({ song with id := some id }, { r with nextId := some (id + 1) }) := by
    rw [if_pos (by rw [htarget]; rfl)]
    simp only [assignId, hid, hnext]
  unfold store
  rw [hassign]
  dsimp only
  split
  · next r₁ hstore =>
    rcases storeIn_cases w _ hstore with ⟨-, hadd⟩ | ⟨hnone, -⟩
    · obtain ⟨target', id', table, htarget', hinsert, rfl⟩ := addToTarget_cases _ hadd
      obtain rfl : target = target' := Option.some.inj (htarget.symm.trans htarget')
      obtain rfl := SongTable.id_of_insert? hinsert rfl
      exact .added (g := r.ledger) htarget hnext rfl rfl hinsert
    · rw [show r.target = none from hnone] at htarget
      cases htarget
  · next hstore =>
    have hgiven : ({ song with id := some id } : Song).id = some id := rfl
    refine .refused (g := r.ledger) htarget hnext hgiven ?_
    refine or_iff_not_imp_left.2 fun hworks => ?_
    have hfails := not_not.1 hworks r.moment
    refine Option.eq_none_iff_forall_ne_some.2 ?_
    rintro ⟨id', table⟩ hinsert
    simp [storeIn, hfails, addToTarget, asked, htarget, hinsert] at hstore

/-- The job for a new file, in a run that copies records, stores a song without an id at the
    key of the file, if the file has tags. -/
theorem updateFromFile_copying {checkNew : Bool} (hmode : s.mode = .compact checkNew) (r : Run)
    {job : Job} (hjob : job.existing = none) :
    (∃ moment, r.updateFromFile s w job = ({ r with moment } : Run).skip .noTags) ∨
      ∃ moment song, song.id = none ∧ song.uri = job.key ∧
        r.updateFromFile s w job = (({ r with moment } : Run).store w song false).count .processed := by
  have hcases := r.updateFromFile_cases s w job
  generalize r.updateFromFile s w job = r' at hcases
  cases hcases with
  | noTags moment => exact .inl ⟨moment, rfl⟩
  | @kept _ _ date tags moment song r₁ _ _ hmoved =>
    obtain ⟨rfl, rfl⟩ := hmoved.resolve_left (by simp [hmode, Mode.allowsMoves])
    have hid : (s.recordWith job date tags).id = none := by
      rw [Setup.recordWith_id, Setup.recordBefore?_of_none hjob]
      rfl
    refine .inr ⟨moment, s.recordWith job date tags, hid, Setup.recordWith_uri date tags, ?_⟩
    simp only [Setup.recordBefore?_of_none hjob, reduceCtorEq, if_false, Option.isSome_none]

/-- Doing the job for a new file stores a song, if the file has tags. -/
theorem perform_ledger {checkNew : Bool} {target : OpenTable} {id : Int64} {job : Job}
    (hmode : s.mode = .compact checkNew) (htarget : r.target = some target)
    (hnext : r.nextId = some id) (hjob : job.existing = none) :
    (r.perform s w job).ledger = r.ledger ∨
      Ledger.Adds r.ledger w job.key (r.perform s w job).ledger := by
  have hperform : r.perform s w job = r.updateFromFile s w job := by simp only [perform, hmode]
  rw [hperform]
  rcases updateFromFile_copying (w := w) hmode r hjob with
    ⟨moment, heq⟩ | ⟨moment, song, hid, huri, heq⟩ <;> rw [heq]
  · exact .inl rfl
  · rw [← huri]
    exact .inr (store_adds (r := { r with moment }) htarget hnext hid)

end Run

/-! ## The ids that are given -/

/-- The rows of songs that a library did not have: those at none of its locations. -/
def addedRows (old written : List Row) : List Row :=
  written.filter fun row => old.all fun other => other.uri != row.uri

theorem addedRows_cons_old {old written : List Row} {row : Row}
    (h : ∃ other ∈ old, other.uri = row.uri) :
    addedRows old (row :: written) = addedRows old written :=
  List.filter_cons_of_neg (by simpa using h)

theorem addedRows_cons_new {old written : List Row} {row : Row}
    (h : ∀ other ∈ old, other.uri ≠ row.uri) :
    addedRows old (row :: written) = row :: addedRows old written :=
  List.filter_cons_of_pos (by simpa using h)

/-- The numbers that follow a number. -/
def following (n : Int) (count : Nat) : List Int :=
  (List.range count).map fun i : Nat => n + 1 + i

theorem following_succ (n : Int) (count : Nat) :
    following n (count + 1) = following n count ++ [n + 1 + count] := by
  simp [following, List.range_succ]

theorem mem_following {n k : Int} {count : Nat} (h : k ∈ following n count) :
    n < k ∧ k ≤ n + count := by
  obtain ⟨i, hi, rfl⟩ := List.mem_map.1 h
  have hlt := List.mem_range.1 hi
  omega

/-- There is an id left after those that some jobs may have taken. -/
def HasIds (table : SongTable) (jobs : Nat) : Prop :=
  table.maxId.toInt + jobs < Int64.maxValue.toInt

theorem HasIds.of_succ {table : SongTable} {jobs : Nat} (h : HasIds table (jobs + 1)) :
    HasIds table jobs := by
  unfold HasIds at h ⊢
  omega

/-- So many ids have been given, of which the added songs have some, in the order of their
    jobs, and all if no operation on a table fails.  Rows have different ids. -/
structure Numbered (w : Services) (table : SongTable) (given : Nat) (g : Ledger) : Prop where
  next : ∀ id ∈ g.nextId, id = table.maxId + 1 + .ofNat given
  few : given ≤ g.taken.length
  distinct : (g.written.map Row.id).Nodup
  copied : ∀ row ∈ g.written, row ∈ addedRows table.rows g.written ∨
    ∃ old ∈ table.rows, row.id = old.id
  places : ((addedRows table.rows g.written).map Row.uri).Sublist (g.taken.map Job.key)
  ids : HasIds table g.taken.length →
    ((addedRows table.rows g.written).reverse.map fun row => row.id.toInt).Sublist
      (following table.maxId.toInt given)
  all : HasIds table g.taken.length → (∀ moment, w.tableFails moment = false) →
    given ≤ (addedRows table.rows g.written).length

/-- The numbering of a run that may still add songs. -/
structure Numbering (w : Services) (table : SongTable) (given : Nat) (g : Ledger) : Prop
    extends Numbered w table given g where
  primary : ∃ primary, g.primary = some primary ∧ primary.table.rows = table.rows
  target : ∃ target, g.target = some target ∧ target.table.rows.Perm g.written
  counting : g.nextId.isSome
  source : ∀ visit, g.source ≠ some (.table visit)
  jobs : ∀ job ∈ g.jobs, job.existing = none ∧ ∀ row ∈ table.rows, row.uri ≠ job.key

variable {s : Setup} {w : Services} {files : FileTree} {table : SongTable} {given : Nat} {g g' : Ledger}

namespace Numbered

/-- No id has been given while nothing is written. -/
theorem begin (hnext : ∀ id ∈ g.nextId, id = table.maxId + 1) (hwritten : g.written = []) :
    Numbered w table 0 g where
  next id hid := by
    rw [hnext id hid]
    exact (Int64.add_zero _).symm
  few := Nat.zero_le _
  distinct := by simp [hwritten]
  copied := by simp [hwritten]
  places := by simp [hwritten, addedRows]
  ids _ := by simp [hwritten, addedRows]
  all _ _ := Nat.zero_le _

theorem congr (h : Numbered w table given g) (hnext : g'.nextId = g.nextId)
    (htaken : g'.taken = g.taken) (hwritten : g'.written = g.written) :
    Numbered w table given g' where
  next := hnext ▸ h.next
  few := htaken ▸ h.few
  distinct := hwritten ▸ h.distinct
  copied := hwritten ▸ h.copied
  places := by rw [htaken, hwritten]; exact h.places
  ids := by rw [htaken, hwritten]; exact h.ids
  all := by rw [htaken, hwritten]; exact h.all

/-- The number that the next id is. -/
theorem toInt_next (h : Numbered w table given g) (hroom : HasIds table g.taken.length) {id : Int64}
    (hid : id ∈ g.nextId) : id.toInt = table.maxId.toInt + 1 + given := by
  have hfew := h.few
  rw [HasIds] at hroom
  rw [h.next id hid]
  exact SongTable.toInt_after (n := given + 1) (by omega) (Nat.lt_succ_self given)

/-- The id after the next one. -/
theorem next_succ (h : Numbered w table given g) {id : Int64} (hid : id ∈ g.nextId) :
    id + 1 = table.maxId + 1 + .ofNat (given + 1) := by
  rw [h.next id hid, Int64.ofNat_add, Int64.add_assoc (table.maxId + 1)]
  rfl

/-- **The next id is greater than all that are in use.** -/
theorem lt_next (h : Numbered w table given g) (hroom : HasIds table g.taken.length) {id : Int64}
    (hid : id ∈ g.nextId) : ∀ row ∈ g.written, row.id < id := by
  intro row hrow
  rw [Int64.lt_iff_toInt_lt, h.toInt_next hroom hid]
  rcases h.copied row hrow with hadded | ⟨old, hold, heq⟩
  · have hmem := (h.ids hroom).subset (List.mem_map_of_mem (List.mem_reverse.2 hadded))
    have hlast := (mem_following hmem).2
    omega
  · have hle := SongTable.toInt_le_maxId hold
    rw [heq]
    omega

end Numbered

namespace Numbering

/-- Rows of the new table have different ids. -/
theorem distinct_cons {target : OpenTable} {song : Song} {id : Int64} {table' : SongTable}
    (h : Numbering w table given g) (htarget : g.target = some target)
    (hinsert : target.table.insert? song = some (id, table')) :
    table'.rows.Perm (song.row id :: g.written) ∧ ((song.row id :: g.written).map Row.id).Nodup := by
  obtain ⟨target', hsome, hrows⟩ := h.target
  obtain rfl : target = target' := Option.some.inj (htarget.symm.trans hsome)
  have hperm := (SongTable.perm_of_insert? hinsert).trans (hrows.cons _)
  have hnodup : (table'.rows.map Row.id).Nodup :=
    List.pairwise_map.2 (table'.sorted.imp Int64.ne_of_lt)
  exact ⟨hperm, (hperm.map Row.id).nodup_iff.1 hnodup⟩

/-- The new table takes a song under the next id. -/
theorem insert?_next {target : OpenTable} {song : Song} {id : Int64} (h : Numbering w table given g)
    (hroom : HasIds table g.taken.length) (htarget : g.target = some target)
    (hnext : g.nextId = some id) (hid : song.id = some id) :
    ∃ table', target.table.insert? song = some (id, table') := by
  obtain ⟨target', hopen, hrows⟩ := h.target
  obtain rfl : target = target' := Option.some.inj (htarget.symm.trans hopen)
  rcases target.table.insert?_cases hid with ⟨table', hinsert, -⟩ | ⟨-, row, hrow, hused⟩
  · exact ⟨table', hinsert⟩
  · have hlt := h.lt_next hroom hnext row (hrows.subset hrow)
    exact absurd (hused ▸ hlt) Int64.lt_irrefl

/-- **Looking at a file gives no id.** -/
theorem considers {key : String} (h : Numbering w table given g) (hg : g.Considers key g') :
    Numbering w table given g' := by
  cases hg with
  | same => exact h
  | queued hjob hnone =>
    refine { h with toNumbered := h.toNumbered.congr rfl rfl rfl, jobs := fun job hmem => ?_ }
    rcases List.mem_append.1 hmem with hmem | hmem
    · exact h.jobs job hmem
    · obtain rfl := List.mem_singleton.1 hmem
      obtain ⟨primary, hprimary, hrows⟩ := h.primary
      rw [hjob.2, ← hrows]
      exact ⟨hjob.1, SongTable.songAt?_eq_none_iff.1 (hnone primary hprimary)⟩
  | @copied primary target song id table' hprimary hsong htarget hinsert =>
    obtain ⟨row, hrow, rfl, huri, -⟩ := SongTable.songAt?_eq_some_iff.1 hsong
    obtain ⟨primary', hsome, hold⟩ := h.primary
    obtain rfl : primary = primary' := Option.some.inj (hprimary.symm.trans hsome)
    rw [hold] at hrow
    obtain rfl := SongTable.id_of_insert? hinsert rfl
    obtain ⟨hrows, hdistinct⟩ := h.distinct_cons htarget hinsert
    have hsame : addedRows table.rows (row.song.row row.id :: g.written) =
        addedRows table.rows g.written := addedRows_cons_old ⟨row, hrow, rfl⟩
    refine { h with
      toNumbered := ⟨h.next, h.few, hdistinct, fun other hother => ?_, ?_, ?_, ?_⟩
      target := ⟨_, rfl, hrows⟩ }
    · rw [hsame]
      rcases List.mem_cons.1 hother with rfl | hother
      · exact .inr ⟨row, hrow, rfl⟩
      · exact h.copied other hother
    · rw [hsame]; exact h.places
    · rw [hsame]; exact h.ids
    · rw [hsame]; exact h.all

section Jobs

variable {job : Job} {jobs : List Job} (h : Numbering w table given g) (hjobs : g.jobs = job :: jobs)

include h hjobs

/-- A job that stores nothing gives no id. -/
theorem passes : Numbering w table given { g with jobs, taken := job :: g.taken } where
  next := h.next
  few := Nat.le_succ_of_le h.few
  distinct := h.distinct
  copied := h.copied
  places := h.places.cons job.key
  ids hids := h.ids hids.of_succ
  all hids := h.all hids.of_succ
  primary := h.primary
  target := h.target
  counting := h.counting
  source := h.source
  jobs other hother := h.jobs other (by simp [hjobs, hother])

/-- A job whose song is refused has used up an id.  As the id is not in use, it is refused
    only if an operation fails. -/
theorem refuses {target : OpenTable} {song : Song} {id : Int64} (htarget : g.target = some target)
    (hnext : g.nextId = some id) (hid : song.id = some id)
    (hrefused : ¬ (∀ moment, w.tableFails moment = false) ∨ target.table.insert? song = none) :
    Numbering w table (given + 1)
      { g with jobs, taken := job :: g.taken, nextId := some (id + 1) } := by
  refine { h.passes hjobs with
    next := ?_
    few := Nat.succ_le_succ h.few
    ids := fun hids => ?_
    all := fun hids hworks => ?_
    counting := rfl }
  · rintro _ ⟨⟩
    exact h.next_succ hnext
  · rw [following_succ]
    exact (h.ids hids.of_succ).trans (List.sublist_append_left _ _)
  · obtain ⟨table', hinsert⟩ := h.insert?_next hids.of_succ htarget hnext hid
    rw [hrefused.resolve_left (not_not.2 hworks)] at hinsert
    cases hinsert

/-- A job whose song is stored has given the next id to a song at its key. -/
theorem stores {target : OpenTable} {song : Song} {id : Int64} {table' : SongTable}
    (htarget : g.target = some target) (hnext : g.nextId = some id) (hkey : song.uri = job.key)
    (hinsert : target.table.insert? song = some (id, table')) :
    Numbering w table (given + 1)
      { g with
        jobs, taken := job :: g.taken, nextId := some (id + 1)
        target := some { target with table := table' }, written := song.row id :: g.written } := by
  obtain ⟨hrows, hdistinct⟩ := h.distinct_cons htarget hinsert
  -- The row that is added is the only one at the key of its file.
  have hsame : addedRows table.rows (song.row id :: g.written) =
      song.row id :: addedRows table.rows g.written :=
    addedRows_cons_new fun other hother => by
      rw [show (song.row id).uri = job.key from hkey]
      exact (h.jobs job (by simp [hjobs])).2 other hother
  refine { h.passes hjobs with
    next := ?_
    few := Nat.succ_le_succ h.few
    distinct := hdistinct
    copied := fun other hother => ?_
    places := ?_
    ids := fun hids => ?_
    all := fun hids hworks => ?_
    target := ⟨_, rfl, hrows⟩
    counting := rfl }
  · rintro _ ⟨⟩
    exact h.next_succ hnext
  · rw [hsame]
    rcases List.mem_cons.1 hother with rfl | hother
    · exact .inl (List.mem_cons_self ..)
    · exact (h.copied other hother).imp_left (List.mem_cons_of_mem _)
  · rw [hsame, List.map_cons, List.map_cons, show (song.row id).uri = job.key from hkey]
    exact h.places.cons_cons job.key
  · have hid := h.toInt_next hids.of_succ hnext
    rw [hsame, List.reverse_cons, List.map_append, following_succ, ← hid]
    exact (h.ids hids.of_succ).append (.refl _)
  · rw [hsame]
    exact Nat.succ_le_succ (h.all hids.of_succ hworks)

/-- **The job for a new file gives at most one id**, the next one, to a song at its key. -/
theorem adds
    (hg : { g with jobs, taken := job :: g.taken } = g' ∨
      Ledger.Adds { g with jobs, taken := job :: g.taken } w job.key g') :
    ∃ given', Numbering w table given' g' := by
  rcases hg with rfl | hg
  · exact ⟨given, h.passes hjobs⟩
  · cases hg with
    | refused htarget hnext hid hrefused =>
      exact ⟨given + 1, h.refuses hjobs htarget hnext hid hrefused⟩
    | added htarget hnext _ hkey hinsert =>
      exact ⟨given + 1, h.stores hjobs htarget hnext hkey hinsert⟩

end Jobs

end Numbering

/-! ## The course of a run -/

namespace Run

variable {r r' : Run}

/-- The candidates of a scan come without a record. -/
theorem nextCandidate_of_files (h : ∀ visit, r.source ≠ some (.table visit)) :
    r.nextCandidate s w = (r, .ok none) ∨ ∃ path paths, r.nextCandidate s w =
      ({ r with source := some (.files paths) }, .ok (some ⟨path, keyOf s.musicDir path, none⟩)) := by
  unfold nextCandidate
  split
  · exact .inl rfl
  · exact .inl rfl
  · next path paths _ => exact .inr ⟨path, paths, rfl⟩
  · next visit hsource => exact absurd hsource (h visit)

/-- Taking candidates gives no id, also if it fails. -/
theorem pull_numbering (hmode : s.mode = .compact true) (n : Nat)
    (h : Numbering w table given r.ledger) : Numbering w table given (pull s w n r).1.ledger := by
  induction n generalizing r with
  | zero => exact h
  | succ n ih =>
    unfold pull
    split
    · exact h
    · rcases nextCandidate_of_files (s := s) (w := w) h.source with hnext | ⟨path, paths, hnext⟩ <;>
        rw [hnext] <;> dsimp only
      · exact { h with source := fun _ hvisit => by cases hvisit }
      · have hnext : Numbering w table given ({ r with source := some (.files paths) } : Run).ledger :=
          { h with source := fun _ hvisit => by cases hvisit }
        have hlooked := hnext.considers (classify_ledger (w := w) hmode
          (rfl : Candidate.record ⟨path, keyOf s.musicDir path, none⟩ = none))
        split
        · next hclassify =>
          rw [hclassify] at hlooked
          exact hlooked
        · next hclassify =>
          rw [hclassify] at hlooked
          exact ih hlooked

/-- Doing a job keeps the numbering. -/
theorem performNext_numbering {checkNew : Bool} (hmode : s.mode = .compact checkNew)
    (h : Numbering w table given r.ledger) :
    ∃ given', Numbering w table given' (r.performNext s w).ledger := by
  unfold performNext
  split
  · exact ⟨given, h⟩
  · next job queue hpop =>
    have hjobs : r.ledger.jobs = job :: queue.toList := Queue.toList_of_pop? hpop
    obtain ⟨target, htarget, -⟩ := h.target
    obtain ⟨id, hid⟩ := Option.isSome_iff_exists.1 h.counting
    have hjob := (h.jobs job (by simp [hjobs])).1
    have hdone := perform_ledger (w := w) (r := { r with queue, history.taken := job :: r.history.taken })
      hmode htarget hid hjob
    exact h.adds hjobs (hdone.imp_left Eq.symm)

theorem reportProgress_ledger (r : Run) : r.reportProgress.ledger = r.ledger := by
  obtain ⟨_, _, hkeeps⟩ := r.reportProgress_keeps
  rw [hkeeps]
  rfl

/-- **A slice of work keeps the numbering**, also if it fails. -/
theorem gather_numbering (hmode : s.mode = .compact true) (h : Numbering w table given r.ledger) :
    ∃ given', Numbering w table given' (r.gather s w).1.ledger := by
  have hpulled := pull_numbering hmode s.batch h
  rcases gather_cases s w r with ⟨r₁, failure, hpull, heq⟩ | ⟨r₁, phase, hpull, -, heq⟩ <;>
    rw [hpull] at hpulled <;> rw [heq]
  · exact ⟨given, hpulled⟩
  · rw [reportProgress_ledger]
    exact performNext_numbering (r := { r₁ with phase }) hmode hpulled

theorem drain_numbering {checkNew : Bool} (hmode : s.mode = .compact checkNew)
    (h : Numbering w table given r.ledger) :
    ∃ given', Numbering w table given' (r.drain s w).ledger := by
  unfold drain
  split
  · exact ⟨given, h⟩
  · rw [reportProgress_ledger]
    exact performNext_numbering hmode h

/-- The first id is the one after the greatest, unless it cannot be read. -/
theorem prepare_nextId {checkNew : Bool} {primary : OpenTable} (hmode : s.mode = .compact checkNew)
    (hprimary : r.primary = some primary) :
    r.prepare s w = (r.asked, .error .database) ∨
      (r.prepare s w).1.nextId = some (primary.table.maxId + 1) := by
  have hchoose : r.chooseNextId s w = (r.asked, .error .database) ∨
      r.chooseNextId s w =
        ({ r.asked with nextId := some (primary.table.maxId + 1) }, .ok ()) := by
    simp only [chooseNextId, hmode, hprimary]
    split
    · exact .inl rfl
    · exact .inr rfl
  unfold prepare
  rcases hchoose with heq | heq <;> rw [heq] <;> dsimp only
  · exact .inl rfl
  · obtain ⟨_, _, _, hkeeps, -⟩ :=
      openSource_keeps s w { r.asked with nextId := some (primary.table.maxId + 1) }
    have hkept := congrArg Run.nextId hkeeps
    refine .inr ?_
    split
    · next hopen =>
      rw [hopen] at hkept
      exact hkept
    · next hopen =>
      rw [hopen] at hkept
      exact hkept

theorem prepare_history (s : Setup) (w : Services) (r : Run) :
    (r.prepare s w).1.history = r.history := by
  obtain ⟨_, _, _, _, _, _, hkeeps, -⟩ := prepare_keeps s w r
  rw [hkeeps]

/-- Preparing settles which id comes first, and writes no row. -/
theorem prepare_numbered {checkNew : Bool} (hmode : s.mode = .compact checkNew)
    (hready : Books.Ready s files r.books) (hrows : table.rows = s.rows files)
    (hhistory : r.history = {}) (hnone : r.nextId = none) :
    Numbered w table 0 (r.prepare s w).1.ledger := by
  obtain ⟨primary, hprimary, hopened, -⟩ := hready.primary
  have hwritten : (r.prepare s w).1.ledger.written = [] := by
    rw [ledger, prepare_history, hhistory]
  have hmax : primary.table.maxId = table.maxId := by
    rw [SongTable.maxId, SongTable.maxId, hopened, ← hrows]
  refine .begin ?_ hwritten
  rcases prepare_nextId (w := w) hmode hprimary with heq | hnext
  · rw [heq]
    simp [ledger, asked, hnone]
  · simp [ledger, hnext, hmax]

/-- A run that is prepared is ready to number the songs that it will add. -/
theorem prepare_numbering (hmode : s.mode = .compact true) (hready : Books.Ready s files r.books)
    (hleft : s.leftover files = []) (hrows : table.rows = s.rows files)
    (hhistory : r.history = {}) (hnone : r.nextId = none) (h : r.prepare s w = (r', .ok ())) :
    Numbering w table 0 r'.ledger := by
  obtain ⟨primary, hprimary, hopened, -⟩ := hready.primary
  obtain ⟨target, htarget, hempty⟩ := hready.newTable (by rw [hmode]; rfl) hleft
  obtain ⟨source, hbegins, hbooks⟩ := prepare_books hready.source h
  have hhistory' := (prepare_history s w r).trans hhistory
  have hnumbered := prepare_numbered (w := w) hmode hready hrows hhistory hnone
  have hgiven := prepare_nextId (w := w) hmode hprimary
  rw [h] at hhistory' hnumbered hgiven
  have hnext : r'.nextId = some (primary.table.maxId + 1) := hgiven.resolve_left (by simp)
  have hwritten : r'.ledger.written = [] := by rw [ledger, hhistory']
  refine { hnumbered with
    primary := ⟨primary, (congrArg Books.primary hbooks).trans hprimary, hopened.trans hrows.symm⟩
    target := ⟨target, (congrArg Books.target hbooks).trans htarget, by rw [hempty, hwritten]⟩
    counting := by rw [ledger, hnext]; rfl
    source := ?_
    jobs := ?_ }
  · intro visit hvisit
    have hsource : r'.ledger.source = source := congrArg Books.source hbooks
    rw [hsource] at hvisit
    subst hvisit
    cases hbegins with
    | table horigin _ =>
      rw [hmode] at horigin
      cases horigin
  · have hjobs : r'.ledger.jobs = [] := (congrArg Books.jobs hbooks).trans hready.jobs
    simp [hjobs]

/-- What holds of the numbering between two steps. -/
structure Numbers (w : Services) (table : SongTable) (r : Run) : Prop where
  idle : r.phase ∈ [.start, .prepare] → r.history = {} ∧ r.nextId = none
  numbered : ∃ given, Numbered w table given r.ledger
  working : r.phase ∈ [.gather, .drain, .finish] → ∃ given, Numbering w table given r.ledger

/-- **What a phase asks for numbers the songs that it adds**, also if it fails. -/
theorem Numbers.act (hmode : s.mode = .compact true) (hleft : s.leftover files = [])
    (hrows : table.rows = s.rows files) (hready : r.phase = .prepare → Books.Ready s files r.books)
    (h : Numbers w table r) :
    (∃ given, Numbered w table given (r.act s w).1.ledger) ∧
      ((r.act s w).2 = .ok () → Numbers w table (r.act s w).1) := by
  have hworking : ∀ {r' : Run}, r'.phase = .gather ∨ r'.phase = .drain ∨ r'.phase = .finish →
      (∃ given, Numbering w table given r'.ledger) → Numbers w table r' := by
    rintro r' hphase ⟨given, hnumbering⟩
    refine ⟨fun hidle => ?_, ⟨given, hnumbering.toNumbered⟩, fun _ => ⟨given, hnumbering⟩⟩
    rcases hphase with hphase | hphase | hphase <;> simp [hphase] at hidle
  have hended : ∀ {r' : Run}, r'.phase = .done → (∃ given, Numbered w table given r'.ledger) →
      Numbers w table r' := fun hphase hnumbered =>
    ⟨by simp [hphase], hnumbered, by simp [hphase]⟩
  obtain ⟨given, hnumbered⟩ := h.numbered
  -- A phase that fails has still numbered the songs that it added.
  unfold Run.act
  split
  · next hphase =>
    obtain ⟨hhistory, hnone⟩ := h.idle (by simp [hphase])
    obtain ⟨_, _, _, _, _, hkeeps⟩ := start_keeps s w r
    have hnumbered' : Numbered w table given (r.start s w).1.ledger := by
      rw [hkeeps]
      exact hnumbered.congr rfl rfl rfl
    refine ⟨⟨given, hnumbered'⟩, fun hok => ⟨fun _ => ?_, ⟨given, hnumbered'⟩, fun hlate => ?_⟩⟩
    · rw [hkeeps]
      exact ⟨hhistory, hnone⟩
    · rw [start_phase (Prod.ext rfl hok)] at hlate
      simp at hlate
  · next hphase =>
    obtain ⟨hhistory, hnone⟩ := h.idle (by simp [hphase])
    refine ⟨⟨0, prepare_numbered hmode (hready hphase) hrows hhistory hnone⟩, fun hok => ?_⟩
    exact hworking (.inl (prepare_phase (Prod.ext rfl hok)))
      ⟨0, prepare_numbering hmode (hready hphase) hleft hrows hhistory hnone (Prod.ext rfl hok)⟩
  · next hphase =>
    obtain ⟨given, hnumbering⟩ := h.working (by simp [hphase])
    obtain ⟨given', hnumbering'⟩ := gather_numbering hmode hnumbering
    refine ⟨⟨given', hnumbering'.toNumbered⟩, fun hok => hworking ?_ ⟨given', hnumbering'⟩⟩
    exact (gather_phase hphase (Prod.ext rfl hok)).imp_right .inl
  · next hphase =>
    obtain ⟨given, hnumbering⟩ := h.working (by simp [hphase])
    obtain ⟨given', hnumbering'⟩ := drain_numbering hmode hnumbering
    exact ⟨⟨given', hnumbering'.toNumbered⟩, fun _ =>
      hworking (.inr (drain_phase hphase)) ⟨given', hnumbering'⟩⟩
  · obtain ⟨_, _, _, _, _, _, _, hkeeps⟩ := r.finish_keeps s w
    have hnumbered' : Numbered w table given (r.finish s w).1.ledger := by
      rw [hkeeps]
      exact hnumbered.congr rfl rfl rfl
    exact ⟨⟨given, hnumbered'⟩, fun hok =>
      hended (finish_phase (Prod.ext rfl hok)) ⟨given, hnumbered'⟩⟩
  · exact ⟨h.numbered, fun _ => h⟩

/-- **Every run has numbered the songs that it has added.** -/
theorem numbers_of_reachable {o : Option Failure} (hmode : s.mode = .compact true) (hw : w.Reliable)
    (hwf : files.WellFormed) (hleft : s.leftover files = []) (hrows : table.rows = s.rows files)
    (h : Reachable s w files o r) : Numbers w table r := by
  induction h with
  | new => exact ⟨fun _ => ⟨rfl, rfl⟩, ⟨0, .begin (by simp [ledger, Run.new]) rfl⟩, by simp [Run.new]⟩
  | @control _ r message _ ih =>
    rcases r.control_cases message with heq | heq <;> rw [heq]
    · exact ih
    · obtain ⟨given, hnumbered⟩ := ih.numbered
      refine ⟨ih.idle, ⟨given, hnumbered.congr rfl rfl rfl⟩, fun hphase => ?_⟩
      obtain ⟨given, hnumbering⟩ := ih.working hphase
      exact ⟨given, { hnumbering with source := fun _ hvisit => by cases hvisit }⟩
  | @step _ r r' _ hr hs ih =>
    obtain ⟨hact, -⟩ := act_of_step_ok hs
    have hnext := ih.act hmode hleft hrows (ready_of_reachable hw hwf hr)
    rw [hact] at hnext
    exact hnext.2 rfl
  | @fail _ r _ _ hr hs ih =>
    obtain ⟨r₁, hact, rfl⟩ := act_of_step_error hs
    have hnext := ih.act hmode hleft hrows (ready_of_reachable hw hwf hr)
    rw [hact] at hnext
    obtain ⟨given, hnumbered⟩ := hnext.1
    exact ⟨by simp [fail], ⟨given, hnumbered⟩, by simp [fail]⟩

end Run

/-! ## The new ids -/

/-- The greatest id that a library has, or `0`. -/
def Setup.greatestId (s : Setup) (files : FileTree) : Int64 :=
  ((s.rows files).getLast?.map Row.id).getD 0

/-- A library with a new file, and a record of one that is missing. -/
def newcomerFiles : FileTree :=
  oneFile ⟨[(titled "gone.mp3").row 41], by decide⟩

end SongLibrary.Reconcile
