/-
  Runs that copy the table without duplicates and dead records.

  * `SongTable.copied` are the rows that such a run copies of those it visits, and
    `copied_eq_filter`: of rows in order, these are the live ones that are the first at
    their location;
  * `Compacting` is the invariant: the rows copied so far, and those of the rows to come
    that will be copied;
  * `compact_keeps_live` is the main statement: the new table has exactly the live records
    with the lowest id at their location, as they were.
-/
import SongLibrary.Proofs.Json.RoundTrip
import SongLibrary.Proofs.Reconcile.Closing
import SongLibrary.Proofs.Reconcile.Copying
import SongLibrary.Proofs.SongTable.Visit

namespace SongLibrary

/-- A row as it is written again: its tags as they are read. -/
def Row.recoded (row : Row) : Row :=
  row.song.row row.id

@[simp] theorem Row.recoded_id (row : Row) : row.recoded.id = row.id := rfl

@[simp] theorem Row.recoded_uri (row : Row) : row.recoded.uri = row.uri := rfl

/-- A row that is written again has the same song. -/
@[simp] theorem Row.song_recoded (row : Row) : row.recoded.song = row.song := by
  rw [recoded, Song.song_row]
  rfl

namespace SongTable

/-- Whether a visit by location comes to a row. -/
def isVisited (row : Row) : Bool :=
  Cursor.precedes .byLocation {} row

/-- A visit by location comes to every row, but for those without a location whose ids are
    not positive. -/
theorem isVisited_iff {row : Row} : isVisited row ↔ row.uri ≠ "" ∨ 0 < row.id := by
  change (decide ("" < row.uri) || ("" == row.uri && decide (0 < row.id))) = true ↔ _
  have hempty : "" < row.uri ↔ row.uri ≠ "" := by
    change "".toList < row.uri.toList ↔ _
    rw [ne_eq, ← String.toList_inj]
    cases row.uri.toList <;> simp
  simp only [Bool.or_eq_true, Bool.and_eq_true, decide_eq_true_eq, hempty, beq_iff_eq]
  by_cases huri : row.uri = "" <;> simp [huri]

/-- The rows that are copied of those visited: the live ones, but for those at the
    location of the one copied last. -/
def copied (live : String → Bool) : Option String → List Row → List Row
  | _, [] => []
  | last, row :: rest =>
    if live row.uri && last != some row.uri then row :: copied live (some row.uri) rest
    else copied live last rest

theorem copied_cons (live : String → Bool) (last : Option String) (row : Row) (rest : List Row) :
    copied live last (row :: rest) =
      if live row.uri && last != some row.uri then row :: copied live (some row.uri) rest
      else copied live last rest := rfl

theorem copied_sublist (live : String → Bool) (last : Option String) (rows : List Row) :
    (copied live last rows).Sublist rows := by
  induction rows generalizing last with
  | nil => exact .slnil
  | cons row rest ih =>
    rw [copied_cons]
    split
    · exact (ih _).cons_cons row
    · exact (ih _).cons row

/-- Whether no row at the location of a row has a lower id. -/
def isFirst (rows : List Row) (row : Row) : Bool :=
  rows.all fun other => other.uri != row.uri || decide (row.id ≤ other.id)

theorem isFirst_iff {rows : List Row} {row : Row} :
    isFirst rows row ↔ ∀ other ∈ rows, other.uri = row.uri → row.id ≤ other.id := by
  simp [isFirst, imp_iff_not_or]

/-- A row after another is first at its location if the other is elsewhere. -/
theorem isFirst_cons {row other : Row} {rest : List Row} (h : comesBefore .byLocation other row) :
    isFirst (other :: rest) row = (other.uri != row.uri && isFirst rest row) := by
  rw [comesBefore_byLocation] at h
  have hid : other.uri = row.uri → ¬ row.id ≤ other.id := fun huri hle => by
    rcases h with hlt | ⟨-, hlt⟩
    · exact String.lt_irrefl _ (huri ▸ hlt)
    · exact Int64.not_lt.2 hle hlt
  rw [isFirst, List.all_cons]
  by_cases huri : other.uri = row.uri
  · simp [huri, hid huri]
  · simp [bne_iff_ne.2 huri, isFirst]

/-- **Of rows in order, those are copied that are live and the first at their location**:
    rows at one location follow each other, so that looking back at the one copied last
    is enough. -/
theorem copied_eq_filter (live : String → Bool) {last : Option String} {rows : List Row}
    (h : rows.Pairwise fun a b => comesBefore .byLocation a b)
    (hlast : ∀ uri ∈ last, ∀ row ∈ rows, uri ≤ row.uri) :
    copied live last rows =
      rows.filter fun row => live row.uri && last != some row.uri && isFirst rows row := by
  induction rows generalizing last with
  | nil => rfl
  | cons row rest ih =>
    rw [List.pairwise_cons] at h
    have hafter : ∀ other ∈ rest, row.uri ≤ other.uri := fun other hother => by
      rcases comesBefore_byLocation.1 (h.1 other hother) with hlt | ⟨heq, -⟩
      · exact String.not_lt.1 (String.lt_asymm hlt)
      · exact heq ▸ String.le_refl _
    have hfirst : isFirst (row :: rest) row = true := by
      refine isFirst_iff.2 fun other hother huri => ?_
      rcases List.mem_cons.1 hother with rfl | hother
      · exact Int64.le_refl _
      · rcases comesBefore_byLocation.1 (h.1 other hother) with hlt | ⟨-, hlt⟩
        · exact absurd hlt (huri ▸ String.lt_irrefl _)
        · exact Int64.le_of_lt hlt
    rw [copied_cons, List.filter_cons, hfirst, Bool.and_true]
    split
    · -- No row after this one at its location is copied.
      rw [ih h.2 (by simpa using hafter)]
      refine congrArg (row :: ·) (List.filter_congr fun other hother => ?_)
      rw [isFirst_cons (h.1 other hother)]
      by_cases huri : row.uri = other.uri
      · simp [huri]
      · have hne : last ≠ some other.uri := fun hsome =>
          huri (String.le_antisymm (hafter other hother) (hlast _ hsome row (by simp)))
        rw [bne_iff_ne.2 hne, bne_iff_ne.2 huri, bne_iff_ne.2 fun h => huri (Option.some.inj h),
          Bool.true_and]
    · next hskip =>
      rw [ih h.2 fun uri huri other hother => hlast uri huri other (List.mem_cons_of_mem _ hother)]
      refine List.filter_congr fun other hother => ?_
      rw [isFirst_cons (h.1 other hother)]
      by_cases huri : row.uri = other.uri
      · rw [← huri]
        cases hboth : (live row.uri && last != some row.uri) with
        | true => exact absurd hboth hskip
        | false => rfl
      · simp [bne_iff_ne.2 huri]

/-- The rows that a visit by location comes to, in order. -/
def visited (t : SongTable) : List Row :=
  (t.ordered .byLocation).filter isVisited

/-- Of the rows of a table, those visited that are live and have the lowest id at their
    location. -/
def survivors (live : String → Bool) (rows : List Row) : List Row :=
  (rows.filter isVisited).filter fun row => live row.uri && isFirst (rows.filter isVisited) row

theorem mem_survivors {live : String → Bool} {rows : List Row} {row : Row} :
    row ∈ survivors live rows ↔ row ∈ rows ∧ (row.uri ≠ "" ∨ 0 < row.id) ∧ live row.uri ∧
      ∀ other ∈ rows, (other.uri ≠ "" ∨ 0 < other.id) → other.uri = row.uri → row.id ≤ other.id := by
  simp only [survivors, List.mem_filter, Bool.and_eq_true, isFirst_iff, isVisited_iff, and_assoc,
    and_imp]

theorem perm_visited (t : SongTable) : t.visited.Perm (t.rows.filter isVisited) :=
  (t.perm_ordered .byLocation).filter _

/-- The rows that are copied of all those visited are the survivors. -/
theorem perm_copied_visited (live : String → Bool) (t : SongTable) :
    (copied live none t.visited).Perm (survivors live t.rows) := by
  have hsorted := (t.pairwise_ordered .byLocation).filter isVisited
  have hcopied : copied live none (_ : List Row) = _ := copied_eq_filter live hsorted (by simp)
  have hnone : ∀ row : Row, (none != some row.uri) = true := fun _ => rfl
  have hfirst : ∀ row, isFirst t.visited row = isFirst (t.rows.filter isVisited) row := fun row =>
    t.perm_visited.all_eq
  change copied live none t.visited =
    t.visited.filter fun row => live row.uri && none != some row.uri && isFirst t.visited row
    at hcopied
  simp only [hnone, hfirst, Bool.and_true] at hcopied
  rw [hcopied]
  exact t.perm_visited.filter _

theorem nodup_id_visited (t : SongTable) : (t.visited.map (·.id)).Nodup := by
  have hids : (t.rows.map (·.id)).Nodup :=
    List.pairwise_map.2 (t.sorted.imp fun hlt => (Int64.lt_iff_le_and_ne.1 hlt).2)
  refine (t.perm_visited.map _).nodup_iff.2 (hids.sublist ?_)
  exact List.filter_sublist.map _

end SongTable

namespace Reconcile

open FileTree (Retabled)
open SongTable (copied survivors)

variable {s : Setup} {w : Services} {files : FileTree} {b b' : Books} {r r' : Run}

/-! ## The course of such a run -/

/-- Whether a record is live: its file is there, and there is no reason to leave it out. -/
def Setup.isLive (s : Setup) (t : FileTree) (uri : String) : Bool :=
  (s.classifier.skipReason? (resolve s.musicDir uri) false).isNone &&
    t.pathExists (resolve s.musicDir uri)

/-- A record is live as before where files of tables come and go elsewhere. -/
theorem Setup.isLive_congr {gone new : List Location} {t : FileTree} {uri : String}
    (h : Retabled gone new files t) (hd : files.KeepsDirectories t)
    (hplace : s.place files uri ∉ gone) : s.isLive t uri = s.isLive files uri := by
  rw [isLive, h.pathExists hd hplace, isLive]

/-- The table of a library, while it is visited: some rows have been copied, and those
    to come are known. -/
structure Visiting (s : Setup) (b : Books) (last : Option String) (table : SongTable)
    (done rest : List Row) : Prop where
  target : ∃ target, b.target = some target ∧ target.table.rows.Perm (done.map Row.recoded)
  split : done ++ copied (s.isLive b.files) last rest =
    copied (s.isLive b.files) none table.visited
  coming : ∀ source ∈ b.source, ∃ visit, source = .table visit ∧ visit.order = .byLocation ∧
    0 < visit.pageSize ∧ visit.rest table = rest.map Row.song
  ended : b.source = none → rest = []

/-- What holds of a run that copies the table without duplicates and dead records. -/
structure Compacting (s : Setup) (files : FileTree) (b : Books) (last : Option String) : Prop where
  retabled : Retabled (s.places files) (s.tablePlaces files) files b.files
  directories : files.KeepsDirectories b.files
  jobs : b.jobs = []
  moves : b.moves = []
  visiting : ∃ primary, b.primary = some primary ∧ primary.table.rows = s.rows files ∧
    ∃ done rest, Visiting s b last primary.table done rest

/-- A row that is to be copied can be added: none that has been copied has its id. -/
theorem Visiting.insert?_next {last : Option String} {table : SongTable} {done rest : List Row}
    {row : Row} {target : OpenTable} (h : Visiting s b last table done (row :: rest))
    (hnext : copied (s.isLive b.files) last (row :: rest) =
      row :: copied (s.isLive b.files) (some row.uri) rest)
    (htarget : b.target = some target) :
    ∃ table', target.table.insert? row.song = some (row.id, table') ∧
      table'.rows.Perm ((done ++ [row]).map Row.recoded) := by
  obtain ⟨target', htarget', hperm⟩ := h.target
  obtain rfl := Option.some.inj (htarget.symm.trans htarget')
  rcases target.table.insert?_cases (show row.song.id = some row.id from rfl) with
    ⟨table', hinsert, hrows⟩ | ⟨-, old, hold, hid⟩
  · refine ⟨table', hinsert, ?_⟩
    rw [List.map_append]
    exact hrows.trans ((hperm.cons row.recoded).trans (List.perm_append_singleton _ _).symm)
  · obtain ⟨first, hfirst, rfl⟩ := List.mem_map.1 (hperm.subset hold)
    have hids := table.nodup_id_visited.sublist
      ((SongTable.copied_sublist (s.isLive b.files) none table.visited).map _)
    rw [← h.split, hnext, List.map_append, List.nodup_append] at hids
    exact absurd hid (hids.2.2 _ (List.mem_map_of_mem hfirst) _ (by simp))

/-- Looking at a record copies it just if it is one of those to be copied. -/
theorem Visiting.consider {last last' : Option String} {table : SongTable} {done rest : List Row}
    {visit : SongTable.Visit} {row : Row} {c : Candidate}
    (h : Visiting s b last table done (row :: rest))
    (hvisit : visit.order = .byLocation ∧ 0 < visit.pageSize ∧ visit.rest table = rest.map Row.song)
    (hc : c = ⟨resolve s.musicDir row.uri, row.uri, some row.song⟩)
    (hconsiders : Books.Considers s { b with source := some (.table visit) } c last b' last') :
    ∃ done, Visiting s b' last' table done rest := by
  have hlive : c.IsLive s b.files ↔ s.isLive b.files row.uri := by
    simp [hc, Candidate.IsLive, Setup.isLive]
  have hsong : ∀ {b : Books} {song : Song}, b.IsRecordOf c song → song = row.song := by
    rintro b song (hsome | ⟨hnone, -⟩)
    · rw [hc] at hsome
      exact (Option.some.inj hsome).symm
    · rw [hc] at hnone
      cases hnone
  have hcoming : ∀ source ∈ some (Source.table visit), ∃ visit, source = .table visit ∧
      visit.order = .byLocation ∧ 0 < visit.pageSize ∧ visit.rest table = rest.map Row.song := by
    rintro _ ⟨⟩
    exact ⟨visit, rfl, hvisit⟩
  have hpass : (s.isLive b.files row.uri && last != some row.uri) = false →
      copied (s.isLive b.files) last (row :: rest) = copied (s.isLive b.files) last rest := by
    intro hpass
    rw [SongTable.copied_cons, hpass, if_neg Bool.false_ne_true]
  have hnext : c.IsLive s b.files → last ≠ some row.uri → copied (s.isLive b.files) last (row :: rest) =
      row :: copied (s.isLive b.files) (some row.uri) rest := by
    intro halive hlast
    rw [SongTable.copied_cons, hlive.1 halive, bne_iff_ne.2 hlast, Bool.true_and, if_pos rfl]
  have hsplit := h.split
  -- The record is copied, unless its file is missing or its location has been copied already.
  cases hconsiders with
  | skipped hdead =>
    have hdead : s.isLive b.files row.uri = false := by simpa [hlive] using hdead
    rw [hpass (by rw [hdead, Bool.false_and])] at hsplit
    exact ⟨done, h.target, hsplit, hcoming, by simp⟩
  | repeated _ hrecord hlast =>
    rw [hsong hrecord] at hlast
    have hsame : (last != some row.uri) = false := by simp [hlast, Row.song]
    rw [hpass (by rw [hsame, Bool.and_false])] at hsplit
    exact ⟨done, h.target, hsplit, hcoming, by simp⟩
  | @copied song target' id table' halive hrecord hlast hsome hinsert =>
    obtain rfl := hsong hrecord
    obtain ⟨_, hsame, hrows⟩ := h.insert?_next (hnext halive hlast) hsome
    obtain ⟨-, rfl⟩ := Prod.mk.inj (Option.some.inj (hsame.symm.trans hinsert))
    rw [hnext halive hlast] at hsplit
    exact ⟨done ++ [row], ⟨_, rfl, hrows⟩, by rwa [List.append_assoc], hcoming, by simp⟩
  | refused halive hrecord hlast hnone =>
    obtain rfl := hsong hrecord
    obtain ⟨target, htarget, -⟩ := h.target
    obtain ⟨_, hsame, -⟩ := h.insert?_next (hnext halive hlast) htarget
    rw [hnone target htarget] at hsame
    cases hsame
  | unknown _ hnone _ _ =>
    rw [hc] at hnone
    cases hnone

/-- A run that copies the table keeps `Compacting`. -/
theorem compacting_copying (hmode : s.mode = .compact false) (hleft : s.leftover files = []) :
    Books.Copying s w files (Compacting s files) where
  begin := by
    intro b source hready hdirs hbegins
    obtain ⟨primary, hprimary, hrows, -⟩ := hready.primary
    obtain ⟨target, hsome, hempty⟩ := hready.newTable (by rw [hmode]; rfl) hleft
    refine ⟨hready.retabled, hdirs, hready.jobs, hready.moves, primary, hprimary, hrows, [],
      primary.table.visited, ⟨target, hsome, by rw [hempty]; rfl⟩, rfl, ?_, by simp⟩
    rintro _ ⟨⟩
    cases hbegins with
    | files horigin =>
      rw [hmode] at horigin
      cases horigin
    | table horigin hprimary' =>
      rw [hmode] at horigin
      cases horigin
      obtain rfl := Option.some.inj (hprimary.symm.trans hprimary')
      exact ⟨_, rfl, rfl, Nat.le_max_right _ _, SongTable.Visit.rest_visit _ _ _⟩
  consider := by
    intro b b' last last' c source h htakes hconsiders
    obtain ⟨primary, hprimary, hrows, done, rest, hvisiting⟩ := h.visiting
    cases htakes with
    | file hsource =>
      obtain ⟨visit, hvisit, -⟩ := hvisiting.coming _ hsource
      cases hvisit
    | @visited visit visit' primary' song hsource hprimary' hnext =>
      obtain rfl := Option.some.inj (hprimary.symm.trans hprimary')
      obtain ⟨_, hvisit, horder, hsize, hrest⟩ := hvisiting.coming _ hsource
      cases hvisit
      obtain ⟨hfirst, horder', hsize'⟩ := SongTable.Visit.rest_of_next hnext
      rw [hrest] at hfirst
      obtain ⟨row, rest, rfl, rfl, hrest'⟩ := List.map_eq_cons_iff.1 hfirst
      obtain ⟨done', hvisiting'⟩ := hvisiting.consider ⟨horder'.trans horder, hsize' ▸ hsize, hrest'.symm⟩
        rfl hconsiders
      have hsame : b'.files = b.files ∧ b'.jobs = b.jobs ∧ b'.moves = b.moves ∧
          b'.primary = b.primary := by
        cases hconsiders with
        | unknown _ hnone _ _ => cases hnone
        | _ => exact ⟨rfl, rfl, rfl, rfl⟩
      obtain ⟨hfiles, hjobs, hmoves, hprimaries⟩ := hsame
      exact ⟨hfiles ▸ h.retabled, hfiles ▸ h.directories, hjobs.trans h.jobs, hmoves.trans h.moves,
        primary, hprimaries.trans hprimary, hrows, done', rest, hvisiting'⟩
  close := by
    intro b last h hend
    obtain ⟨primary, hprimary, hrows, done, rest, hvisiting⟩ := h.visiting
    refine ⟨h.retabled, h.directories, h.jobs, h.moves, primary, hprimary, hrows, done, rest,
      hvisiting.target, hvisiting.split, by simp, fun _ => ?_⟩
    cases hend with
    | none hsource => exact hvisiting.ended hsource
    | files hsource =>
      obtain ⟨visit, hvisit, -⟩ := hvisiting.coming _ hsource
      cases hvisit
    | table hsource hprimary' hnext =>
      obtain rfl := Option.some.inj (hprimary.symm.trans hprimary')
      obtain ⟨_, hvisit, horder, hsize, hrest⟩ := hvisiting.coming _ hsource
      cases hvisit
      rw [SongTable.Visit.rest_of_end hsize hnext] at hrest
      exact List.map_eq_nil_iff.1 hrest.symm
  work := by
    intro b b' last job jobs h hjobs
    rw [h.jobs] at hjobs
    cases hjobs

/-! ## What it leaves -/

/-- The rows of the table of the library are in the order of their ids. -/
theorem Setup.pairwise_rows (s : Setup) (t : FileTree) : (s.rows t).Pairwise (·.id < ·.id) := by
  obtain ⟨table, hrows⟩ := s.exists_table t
  exact hrows ▸ table.sorted

/-- Rows in the order of their ids have the same songs in the same order. -/
theorem map_song_eq {rows rows' : List Row} (h : rows.Pairwise (·.id < ·.id))
    (h' : rows'.Pairwise (·.id < ·.id)) (hperm : (rows.map Row.song).Perm (rows'.map Row.song)) :
    rows.map Row.song = rows'.map Row.song := by
  have hsorted : ∀ {rows : List Row}, rows.Pairwise (·.id < ·.id) →
      (rows.map Row.song).Pairwise fun a b => a.id.getD 0 < b.id.getD 0 :=
    fun h => List.pairwise_map.2 h
  exact hperm.eq_of_pairwise (fun _ _ _ _ hab hba => absurd hab (Int64.lt_asymm hba)) (hsorted h)
    (hsorted h')

/-- A run that copies the table leaves the live records with the lowest id at their location. -/
theorem songs_of_compact (hmode : s.mode = .compact false) (hw : w.Sound) (hwf : files.WellFormed)
    (hleft : s.leftover files = []) (h : Reachable s w files none r) (hphase : r.phase = .finish)
    (hstop : r.stopped = false) (hs : r.step s w = (r', .ok .done)) :
    (s.rows r'.files).map Row.song =
      (survivors (s.isLive r.files) (s.rows files)).map Row.song := by
  have hd : s.mode.isDestructive := by rw [hmode]; rfl
  have hunstopped := (Run.copying_of_reachable hw hwf hmode (compacting_copying hmode hleft) h).2
    (by simp [hphase]) hstop
  have hend := hunstopped.holds
  obtain ⟨primary, hprimary, hrows, done, rest, hvisiting⟩ := hend.visiting
  have hreplaces := replaces_of_reachable hd hw.toReliable hwf h hphase hstop hend.moves hs
  refine map_song_eq (s.pairwise_rows _) (((s.pairwise_rows files).filter _).filter _) ?_
  obtain ⟨target, htarget, hleaves⟩ := hreplaces.rows
  by_cases hfile : FileTree.isFileless s.databasePath
  · have hnone : ∀ t, s.rows t = [] := fun t => by rw [Setup.rows, if_pos hfile]
    rw [hnone, hnone]
    exact .refl _
  · rw [if_neg hfile] at hleaves
    obtain ⟨target', htarget', hperm⟩ := hvisiting.target
    obtain rfl := Option.some.inj (htarget.symm.trans htarget')
    -- No row is to come, so all those to be copied have been.
    have hdone := hvisiting.split
    rw [hvisiting.ended (hunstopped.seen (by simp [hphase])), copied, List.append_nil] at hdone
    have hsurvive := primary.table.perm_copied_visited (s.isLive r.files)
    have hdone : done = copied (s.isLive r.files) none primary.table.visited := hdone
    rw [← hdone, hrows] at hsurvive
    refine ((hleaves.trans hperm).map Row.song).trans ?_
    rw [List.map_map, show Row.song ∘ Row.recoded = Row.song from funext Row.song_recoded]
    exact hsurvive.map _

/-- **A run that copies the table leaves the live records with the lowest id at their
    location, as they were**, if no earlier run has left rows where the new table is
    written.  Whether a file is there does not depend on the tables being open, unless
    it is where one of them is.  No file has changed but those of the tables, and there
    is none where the new table was written. -/
theorem compact_keeps_live (hmode : s.mode = .compact false) (hw : w.Sound) (hwf : files.WellFormed)
    (hleft : s.leftover files = []) (h : Reachable s w files none r) (hphase : r.phase = .finish)
    (hstop : r.stopped = false) (hs : r.step s w = (r', .ok .done)) :
    (s.rows r'.files).map Row.song =
        (survivors (s.isLive r.files) (s.rows files)).map Row.song ∧
      (∀ uri, s.place files uri ∉ s.places files → s.isLive r.files uri = s.isLive files uri) ∧
      (∀ m, m ≠ s.library files → m ∉ [s.draft files, s.journal files] →
        r'.files.get? m = files.get? m) ∧
      r'.files.get? (s.draft files) = none := by
  have hd : s.mode.isDestructive := by rw [hmode]; rfl
  have hunstopped := (Run.copying_of_reachable hw hwf hmode (compacting_copying hmode hleft) h).2
    (by simp [hphase]) hstop
  have hend := hunstopped.holds
  have hreplaces := replaces_of_reachable hd hw.toReliable hwf h hphase hstop hend.moves hs
  refine ⟨songs_of_compact hmode hw hwf hleft h hphase hstop hs,
    fun uri hplace => Setup.isLive_congr hend.retabled hend.directories hplace, ?_, hreplaces.draft⟩
  intro m hlibrary hm
  simp only [List.mem_cons, List.not_mem_nil, or_false, not_or] at hm
  rw [hreplaces.elsewhere m hlibrary hm.1]
  refine hend.retabled.get? m fun hplace => ?_
  rcases Setup.mem_places.1 hplace with htable | ⟨-, hjournal⟩
  · rcases Setup.mem_tablePlaces.1 htable with ⟨-, hplace⟩ | ⟨-, hdraft⟩
    · exact hlibrary hplace
    · exact hm.1 hdraft
  · exact hm.2 hjournal

/-- The record of a song that is there is left. -/
theorem compact_keeps_live_recorded :
    ∃ r r' : Run, Reachable (sampleSetup (.compact false)) sampleServices recordedFiles none r ∧
      r.phase = .finish ∧ r.stopped = false ∧
      r.step (sampleSetup (.compact false)) sampleServices = (r', .ok .done) ∧
      ((sampleSetup (.compact false)).rows r'.files).map Row.song =
        ((sampleSetup (.compact false)).rows recordedFiles).map Row.song ∧
      ((sampleSetup (.compact false)).rows recordedFiles).length = 1 := by
  have h : Reachable (sampleSetup (.compact false)) sampleServices recordedFiles none
      (Run.steps (sampleSetup (.compact false)) sampleServices 4
        (.new (sampleSetup (.compact false)) recordedFiles)) :=
    Run.reachable_steps .new (by decide +kernel)
  refine ⟨_, _, h, by decide +kernel, by decide +kernel, Prod.ext rfl (by decide +kernel), ?_,
    by decide +kernel⟩
  have hrows := (compact_keeps_live rfl sampleServices_sound (recordedFiles_orderly .rebuild).wellFormed
    (by decide +kernel) h (by decide +kernel) (by decide +kernel)
    (Prod.ext rfl (by decide +kernel))).1
  rw [hrows]
  decide +kernel

/-- A run on the library in `/lib.mp3`, a directory with the name of a song. -/
def misnamedSetup : Setup :=
  .of {} (.compact false) (.ofString "/lib.mp3") (.ofString "/songs.db") none .linux

/-- A library with a record without a location, and a file where a new table is written. -/
def misnamedFiles : FileTree where
  entries :=
    [([.ofString "lib.mp3"], .directory),
      ([.ofString "songs.db"], .file (.songs ⟨[(Song.new "" "2020-01-01").row 1], by simp⟩)),
      ([.ofString "songs.db.new"], .file (.text "mine"))]

/-- **A record without a location may be left, and a file where the new table is written
    is lost.** -/
theorem compact_keeps_unlocated :
    ∃ r r' : Run, Reachable misnamedSetup sampleServices misnamedFiles none r ∧
      r.phase = .finish ∧ r.stopped = false ∧
      r.step misnamedSetup sampleServices = (r', .ok .done) ∧
      (∃ row ∈ misnamedSetup.rows r'.files, row.uri = "") ∧
      misnamedFiles.HasFile [.ofString "songs.db.new"] ∧
      ¬ r'.files.HasFile [.ofString "songs.db.new"] := by
  have h : Reachable misnamedSetup sampleServices misnamedFiles none
      (Run.steps misnamedSetup sampleServices 4 (.new misnamedSetup misnamedFiles)) :=
    Run.reachable_steps .new (by decide +kernel)
  refine ⟨_, _, h, by decide +kernel, by decide +kernel, Prod.ext rfl (by decide +kernel),
    by decide +kernel, ⟨_, rfl⟩, ?_⟩
  rintro ⟨c, hfile⟩
  have hnone : (((Run.steps misnamedSetup sampleServices 4 (.new misnamedSetup misnamedFiles)).step
      misnamedSetup sampleServices).1.files.get? [.ofString "songs.db.new"]) = none := by
    decide +kernel
  rw [hnone] at hfile
  cases hfile

end Reconcile

end SongLibrary
