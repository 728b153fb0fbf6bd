/-
  Which records a run over a table comes to.

  A visit begins at the place of no location and the id 0, and comes to what lies after it
  (`SongTable.precedes_start_iff`).  What it comes to does not change while the run goes on
  (`Run.lining_of_reachable`), and the table that the run has opened is that of the library
  (`Run.opened_rows`).

  * `Run.covers_of_reachable`: an unstopped run that is over has found just these records;
  * `songs_are_covered` is the main statement: every run comes that far, and its count of
    candidates is the number of songs just if all of them lie after that place.
-/
import SongLibrary.Proofs.Reconcile.Compact
import SongLibrary.Proofs.Reconcile.Conversation
import SongLibrary.Proofs.Reconcile.Lining

namespace SongLibrary

/-- A visit comes to rows with positive ids, and by location to every row that has one. -/
theorem SongTable.precedes_start_iff {order : SongTable.Order} {row : Row} :
    SongTable.Cursor.precedes order {} row ↔ 0 < row.id ∨ order = .byLocation ∧ row.uri ≠ "" := by
  cases order with
  | byLocation =>
    rw [← SongTable.isVisited, SongTable.isVisited_iff, or_comm]
    simp
  | byId => simp [SongTable.Cursor.precedes]

namespace Reconcile

variable {s : Setup} {w : Services} {files : FileTree} {r : Run} {order : SongTable.Order}

namespace Run

/-- A run whose steps have not failed can be reached so. -/
theorem reachable_driven_ok {arriving : Nat → List Control} {n : Nat}
    (hok : ∀ m < n,
      (((driven s w arriving m (.new s files)).controls (arriving m)).step s w).2.isOk) :
    Reachable s w files none (driven s w arriving n (.new s files)) := by
  induction n with
  | zero => exact .new
  | succ n ih =>
    have hreach := reachable_controls (ih fun m hm => hok m (Nat.lt_succ_of_lt hm)) (arriving n)
    have hlast := hok n (Nat.lt_succ_self n)
    rw [driven]
    rcases hs : ((driven s w arriving n (.new s files)).controls (arriving n)).step s w with
      ⟨r', failure | p⟩
    · rw [hs] at hlast
      cases hlast
    · exact hreach.step hs

/-- The table of the library is opened with the rows that it has in the files. -/
theorem opened_rows (hw : w.Reliable) (hwf : files.WellFormed) (h : Reachable s w files none r)
    (hphase : r.phase = .prepare) : ∀ primary ∈ r.primary, primary.table.rows = s.rows files := by
  intro primary hprimary
  obtain ⟨opened, hopened, hrows, -⟩ := (ready_of_reachable hw hwf h hphase).primary
  obtain rfl : opened = primary := Option.some.inj (hopened.symm.trans hprimary)
  exact hrows

/-- **A run that is over has found the records that its visit comes to**, each once, unless
    it was stopped. -/
theorem covers_of_reachable (horigin : s.mode.origin = .table order) (hw : w.Reliable)
    (hwf : files.WellFormed) (h : Reachable s w files none r) (hdone : r.phase = .done)
    (hgoing : r.stopped = false) :
    r.foundIds.Perm
      (((s.rows files).filter (SongTable.Cursor.precedes order {})).map fun row => some row.id) := by
  have hlining := lining_of_reachable (fun table => table.rows = s.rows files) horigin
    (fun h hphase => opened_rows hw hwf h hphase) h
  obtain ⟨⟨table, hrows, hlined⟩, hended⟩ := hlining.late rfl (by simp [hdone]) (by simp [hdone])
  have hall := hlined.all hgoing
  rw [aheadIds_none (hended (by simp [hdone])), List.append_nil, List.map_map] at hall
  rw [hall, ← hrows]
  exact (table.perm_seen order).map _

end Run

/-- **What a run over a table covers.**  A run that no message stops, and none of whose steps
    fails, ends, and has found just the records that have positive ids or, where they are
    visited by location, have one; each of them once, and the count is theirs.  It is the
    number of all songs that were in the table just if every record is such a one. -/
theorem songs_are_covered (horigin : s.mode.origin = .table order) (hw : w.Reliable)
    (hwf : files.WellFormed) (hbatch : 0 < s.batch) (arriving : Nat → List Control)
    (hgo : ∀ n, ∀ message ∈ arriving n, message.stops = false)
    (hok : ∀ n, (((Run.driven s w arriving n (.new s files)).controls (arriving n)).step s w).2.isOk) :
    ∃ n r, Run.driven s w arriving n (.new s files) = r ∧ r.phase = .done ∧
      r.foundIds.Perm (((s.rows files).filter fun row =>
        0 < row.id ∨ order = .byLocation ∧ row.uri ≠ "").map fun row => some row.id) ∧
      r.counters.get .found = .ofNat r.history.found.length ∧
      (r.history.found.length = (s.rows files).length ↔
        ∀ row ∈ s.rows files, 0 < row.id ∨ order = .byLocation ∧ row.uri ≠ "") := by
  obtain ⟨n, hdone, -⟩ := Run.exists_end s w hbatch arriving files
  have hreach := Run.reachable_driven_ok (n := n) fun m _ => hok m
  have hgoing : (Run.driven s w arriving n (.new s files)).stopped = false := by
    have hstopped : ((Run.driven s w arriving n (.new s files)).controls (arriving n)).stopped =
        stopsBy arriving n := Run.stopped_driven arriving n
    have hnever : stopsBy arriving n = false := by
      simpa [stopsBy] using fun k _ message hmessage => hgo k message hmessage
    rw [Run.stopped_controls, hnever, Bool.or_eq_false_iff] at hstopped
    exact hstopped.1
  have hcovers := Run.covers_of_reachable horigin hw hwf hreach hdone hgoing
  have hfilter : (s.rows files).filter (SongTable.Cursor.precedes order {}) =
      (s.rows files).filter fun row => 0 < row.id ∨ order = .byLocation ∧ row.uri ≠ "" :=
    List.filter_congr fun row _ => by
      rw [Bool.eq_iff_iff, SongTable.precedes_start_iff, decide_eq_true_iff]
  rw [hfilter] at hcovers
  obtain ⟨count, hcount, hfound, -⟩ := reachable_conserves hreach (by simp)
  refine ⟨n, _, rfl, hdone, hcovers, hfound ▸ hcount .found (by simp), ?_⟩
  have hlength := hcovers.length_eq
  rw [Run.foundIds, List.length_map, List.length_reverse, List.length_map] at hlength
  rw [hlength, List.length_filter_eq_length_iff]
  simp only [decide_eq_true_iff]

/-- A run over two records, of a file and of one that is missing, finds both. -/
theorem songs_are_covered_missing :
    (sampleSetup .updateTags).mode.origin = .table .byId ∧
      ∃ n r, Run.driven (sampleSetup .updateTags) sampleServices (fun _ => [.handshake]) n
          (.new (sampleSetup .updateTags) missingFiles) = r ∧
        r.phase = .done ∧ r.counters.get .found = .ofNat r.history.found.length ∧
        r.history.found.length = ((sampleSetup .updateTags).rows missingFiles).length := by
  have hend : (Run.driven (sampleSetup .updateTags) sampleServices (fun _ => [.handshake]) 7
      (.new (sampleSetup .updateTags) missingFiles)).phase = .done := by decide +kernel
  have hok : ∀ n, (((Run.driven (sampleSetup .updateTags) sampleServices (fun _ => [.handshake]) n
      (.new (sampleSetup .updateTags) missingFiles)).controls [.handshake]).step
        (sampleSetup .updateTags) sampleServices).2.isOk := by
    intro n
    by_cases hn : n < 7
    · revert n
      decide +kernel
    · obtain ⟨m, rfl⟩ := Nat.exists_eq_add_of_le (Nat.le_of_not_lt hn)
      rw [Run.step_of_done ((Run.controls_keeps _ _).1.trans (Run.driven_of_done hend m).1)]
      rfl
  obtain ⟨n, r, hr, hdone, -, hcount, hall⟩ := songs_are_covered
    (show (sampleSetup .updateTags).mode.origin = .table .byId from rfl) sampleServices_reliable
    missingFiles_addressed.wellFormed (Setup.batch_of ..) (fun _ => [.handshake])
    (fun _ _ hmessage => by rw [List.mem_singleton.1 hmessage]; rfl) hok
  exact ⟨rfl, n, r, hr, hdone, hcount, hall.2 (by decide +kernel)⟩

/-- A library with a record of its file whose id is negative. -/
def negativeFiles : FileTree :=
  oneFile ⟨[(titled "a.mp3").row (-1)], by decide⟩

/-- **A record whose id is not positive may be found by no run**: a run that takes songs by
    id ends, does not fail and is not stopped, and has found nothing, where there is one song
    in the table. -/
theorem negative_id_uncovered :
    ∃ r : Run, Reachable (sampleSetup .updateItunes) sampleServices negativeFiles none r ∧
      r.phase = .done ∧ r.stopped = false ∧
      ((sampleSetup .updateItunes).rows negativeFiles).length = 1 ∧
      r.history.found = [] ∧ r.counters.get .found = 0 := by
  have h : Reachable (sampleSetup .updateItunes) sampleServices negativeFiles none
      (Run.steps (sampleSetup .updateItunes) sampleServices 5
        (.new (sampleSetup .updateItunes) negativeFiles)) := Run.reachable_steps .new (by decide +kernel)
  exact ⟨_, h, by decide +kernel, by decide +kernel, by decide +kernel,
    List.eq_nil_of_length_eq_zero (by decide +kernel), by decide +kernel⟩

end Reconcile

end SongLibrary
