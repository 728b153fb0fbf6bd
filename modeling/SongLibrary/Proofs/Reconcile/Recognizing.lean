/-
  Files that a run has moved, and the next run.

  A record of a file that has been moved has the location that the template gave.  The next
  run knows the file by it if it is spelled as a scan spells it (`next_run_recognizes`): that
  is not so where a tag is empty that is a directory of its own (`next_run_adds_again`).
-/
import SongLibrary.Proofs.Reconcile.Repeating

namespace SongLibrary.Reconcile

variable {s : Setup} {w : Services} {files : FileTree} {r r' r₂ : Run}

/-- **A run adds nothing directly after another**, as long as that has moved files directly,
    and the locations of the records it has added for these are spelled plainly.  The
    location of such a record is the key of the path by which a scan comes to the file. -/
theorem next_run_recognizes (hw : w.Steady) (hmode : s.mode = .checkNew) (hwf : files.WellFormed)
    (hlisted : files.Listed) (haligned : s.Aligned) (hfile : ¬ FileTree.isFileless s.databasePath)
    (h : Reachable s w files none r) (hphase : r.phase = .finish) (hstop : r.stopped = false)
    (hs : r.step s w = (r', .ok .done)) (hdirect : ∀ move ∈ r'.history.moves, files.Leads move.2)
    (hplain : ∀ row ∈ s.rows r'.files, row ∉ s.rows files →
      (∃ move ∈ r'.history.moves, move.2 = resolve s.musicDir row.uri) → IsPlainKey row.uri)
    (h₂ : Reachable s w r'.files none r₂) (hphase₂ : r₂.phase = .finish)
    (hstop₂ : r₂.stopped = false) :
    ∃ r₂', r₂.step s w = (r₂', .ok .done) ∧ r₂'.counters.get .new = 0 ∧ s.HasAll w r'.files ∧
      ∀ row ∈ s.rows r'.files, row ∉ s.rows files →
        (∃ move ∈ r'.history.moves, move.2 = resolve s.musicDir row.uri) →
        ∀ p ∈ (s.opened r'.files).walk s.root,
          (s.opened r'.files).destination p = s.place (s.opened r'.files) row.uri →
          keyOf s.musicDir p = row.uri := by
  obtain ⟨r₀, r₁, hstart, -, -⟩ :=
    (Run.working_of_reachable h₂ hstop₂ (by simp [hphase₂])).slices
  obtain ⟨table, moment, hopened, -⟩ := Run.start_opens (by rw [hmode]; rfl) hstart
  obtain ⟨hwf', hlisted', hall⟩ := hasAll_of_run hw hmode hwf hlisted (fun _ => haligned) hfile h
    hphase hstop hs hdirect hplain
  replace hall := hall table hopened
  obtain ⟨r₂', hstep, hnew, -, -⟩ := nothing_new hw hmode hwf' hall h₂ hphase₂ hstop₂
  have hretabled := s.opened_retabled hwf'
  refine ⟨r₂', hstep, hnew, hall, fun row hrow hadded hmoved p hp hplace => ?_⟩
  exact haligned.keyOf_eq hretabled.wellFormed (hretabled.listed hlisted') hp
    (hplain row hrow hadded hmoved) hplace

/-- What a run leaves of some files. -/
def leftBehind (s : Setup) (files : FileTree) (n : Nat) : FileTree :=
  ((Run.steps s sampleServices n (.new s files)).step s sampleServices).1.files

/-- A song that has been moved to its title is found there. -/
theorem next_run_recognizes_sample :
    ∃ r r' r₂ r₂' : Run, Reachable (sampleSetup .checkNew) sampleServices sampleFiles none r ∧
      r.step (sampleSetup .checkNew) sampleServices = (r', .ok .done) ∧
      r'.history.moves = [(.ofString "/music/a.mp3", .ofString "/music/t.mp3")] ∧
      Reachable (sampleSetup .checkNew) sampleServices r'.files none r₂ ∧
      r₂.step (sampleSetup .checkNew) sampleServices = (r₂', .ok .done) ∧
      r₂'.counters.get .new = 0 ∧
      keyOf (.ofString "/music") (.ofString "/music/t.mp3") = "t.mp3" := by
  have h : Reachable (sampleSetup .checkNew) sampleServices sampleFiles none
      (Run.steps (sampleSetup .checkNew) sampleServices 4 (.new (sampleSetup .checkNew) sampleFiles)) :=
    Run.reachable_steps .new (by decide +kernel)
  have hdone : ((Run.steps (sampleSetup .checkNew) sampleServices 4
      (.new (sampleSetup .checkNew) sampleFiles)).step (sampleSetup .checkNew) sampleServices).2 =
        .ok .done := by decide +kernel
  have hs := Prod.ext (x := (Run.steps (sampleSetup .checkNew) sampleServices 4
      (.new (sampleSetup .checkNew) sampleFiles)).step (sampleSetup .checkNew) sampleServices)
    (y := (_, .ok .done)) rfl hdone
  have h₂ : Reachable (sampleSetup .checkNew) sampleServices
      (leftBehind (sampleSetup .checkNew) sampleFiles 4) none
      (Run.steps (sampleSetup .checkNew) sampleServices 4
        (.new (sampleSetup .checkNew) (leftBehind (sampleSetup .checkNew) sampleFiles 4))) :=
    Run.reachable_steps .new (by decide +kernel)
  have haligned : (sampleSetup .checkNew).Aligned :=
    ⟨.ofString "/music", [], [], by decide, by simp, by simp, rfl, rfl⟩
  obtain ⟨r₂', hstep, hnew, -, hkeys⟩ := next_run_recognizes sampleServices_steady rfl
    (.of_entries (by decide +kernel) (by decide +kernel)) (by decide +kernel) haligned
    (by decide +kernel) h (by decide +kernel) (by decide +kernel) hs (by decide +kernel)
    (by decide +kernel) h₂ (by decide +kernel) (by decide +kernel)
  have huris : ((sampleSetup .checkNew).rows (leftBehind (sampleSetup .checkNew) sampleFiles 4)).map
      (·.uri) = ["t.mp3"] := by decide +kernel
  have hnone : (sampleSetup .checkNew).rows sampleFiles = [] := by decide +kernel
  obtain ⟨row, hrow, huri⟩ := List.mem_map.1 (huris ▸ List.mem_singleton_self "t.mp3")
  refine ⟨_, _, _, r₂', h, hs, by decide +kernel, h₂, hstep, hnew, ?_⟩
  have hkey := hkeys row hrow (by simp [hnone])
    ⟨(.ofString "/music/a.mp3", .ofString "/music/t.mp3"), by decide +kernel, by rw [huri]; decide⟩
    (.ofString "/music/t.mp3") (by decide +kernel) (by rw [huri]; decide +kernel)
  rwa [huri] at hkey

/-- A run that moves files to directories of their artists. -/
def artistSetup : Setup :=
  .of { library := { orgPath := "Music/%ARTIST%/%TITLE%", autoOrganize := true } } .checkNew
    (.ofString "/music") (.ofString "/songs.db") none .linux

/-- **A run may add a file again that another has just moved**: the location of its record has
    an empty name where the artist is missing, which a scan leaves out. -/
theorem next_run_adds_again :
    ∃ r r' r₂ r₂' : Run, Reachable artistSetup sampleServices sampleFiles none r ∧
      r.phase = .finish ∧ r.stopped = false ∧
      r.step artistSetup sampleServices = (r', .ok .done) ∧ r'.counters.get .bad = 0 ∧
      r'.history.moves = [(.ofString "/music/a.mp3", .ofString "/music/Music//t.mp3")] ∧
      (artistSetup.rows r'.files).map (·.uri) = ["Music//t.mp3"] ∧
      Reachable artistSetup sampleServices r'.files none r₂ ∧
      r₂.phase = .finish ∧ r₂.stopped = false ∧
      r₂.step artistSetup sampleServices = (r₂', .ok .done) ∧ r₂'.counters.get .new = 1 ∧
      (artistSetup.rows r₂'.files).map (·.uri) = ["Music//t.mp3", "Music//t.mp3"] := by
  have h : Reachable artistSetup sampleServices sampleFiles none
      (Run.steps artistSetup sampleServices 4 (.new artistSetup sampleFiles)) :=
    Run.reachable_steps .new (by decide +kernel)
  have hdone : ((Run.steps artistSetup sampleServices 4 (.new artistSetup sampleFiles)).step
      artistSetup sampleServices).2 = .ok .done := by decide +kernel
  have h₂ : Reachable artistSetup sampleServices (leftBehind artistSetup sampleFiles 4) none
      (Run.steps artistSetup sampleServices 4
        (.new artistSetup (leftBehind artistSetup sampleFiles 4))) :=
    Run.reachable_steps .new (by decide +kernel)
  have hdone₂ : ((Run.steps artistSetup sampleServices 4
      (.new artistSetup (leftBehind artistSetup sampleFiles 4))).step artistSetup
        sampleServices).2 = .ok .done := by decide +kernel
  exact ⟨_, _, _, _, h, by decide +kernel, by decide +kernel, Prod.ext rfl hdone, by decide +kernel,
    by decide +kernel, by decide +kernel, h₂, by decide +kernel, by decide +kernel,
    Prod.ext rfl hdone₂, by decide +kernel, by decide +kernel⟩

end SongLibrary.Reconcile
