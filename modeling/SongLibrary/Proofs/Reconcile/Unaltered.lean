/-
  Runs that copy records.

  Such a run changes nothing but its new table, so it comes to the same verdict on a
  candidate whenever it looks at it (`unaltered_foreseen`).  The records that it copies keep
  their ids, and the songs that it adds get greater ones, so that either may come first
  (`unaltered_swappable`).
-/
import SongLibrary.Proofs.Reconcile.Upcoming
import SongLibrary.Proofs.SongTable.NewIds

namespace SongLibrary.Reconcile

variable {s : Setup} {w : Services} {t : FileTree} {primary : OpenTable} {b b' : Books}
  {rest candidates : List Candidate} {c : Candidate} {job : Job} {r : Run}

/-! ## Verdicts -/

namespace Setup

/-- Where records are copied, there are jobs for candidates without a record alone. -/
theorem job_of_copying (hmode : ∃ checkNew, s.mode = .compact checkNew) {isThere : Bool}
    {existing : Option Song} (h : (s.verdict c isThere existing).job = some job) :
    existing = none ∧ job = ⟨c.path, c.key, pathFrom s.root c.path, none⟩ := by
  obtain ⟨checkNew, hmode⟩ := hmode
  unfold verdict at h
  split at h
  · cases h
  · split at h
    · cases h
    · cases existing with
      | none =>
        simp only [settlement, admission] at h
        split at h
        · cases h
        · exact ⟨rfl, (Option.some.inj h).symm⟩
      | some song => simp [settlement, hmode] at h

/-- A record that is copied is the one that the candidate has. -/
theorem copied_of_verdict {isThere : Bool} {existing : Option Song} {song : Song}
    (h : (s.verdict c isThere existing).copy = some song) : existing = some song := by
  have hadmission : ∀ existing, (s.admission c existing).copy = none := by
    intro existing
    unfold admission
    split <;> rfl
  unfold verdict at h
  split at h
  · cases h
  · split at h
    · cases h
    · dsimp only at h
      unfold settlement at h
      split at h
      · rw [hadmission] at h
        cases h
      · cases h
      · exact h
      · rw [hadmission] at h
        cases h

end Setup

/-! ## What stays as it is -/

/-- A run that copies records, before it looks at some candidates: the files and the table
    of the library are as given. -/
structure Unaltered (s : Setup) (t : FileTree) (primary : OpenTable) (rest : List Candidate)
    (b : Books) : Prop where
  files : b.files = t
  library : b.primary = some primary
  target : b.target.isSome
  coming : (∃ paths, Scans s rest b paths) ∨ ∃ songs, rest = songs.map s.ofSong ∧
    (b.source = none → songs = []) ∧ ∀ source ∈ b.source, ∃ visit, source = .table visit ∧
      0 < visit.pageSize ∧ visit.rest primary.table = songs

/-- Where records are copied, a job changes nothing but the new table. -/
theorem Books.Works.unaltered (hmode : ∃ checkNew, s.mode = .compact checkNew)
    (htarget : b.target.isSome) (h : Works s w b job b') :
    b'.files = b.files ∧ b'.primary = b.primary ∧ b'.target.isSome ∧ b'.source = b.source := by
  obtain ⟨checkNew, hmode⟩ := hmode
  cases h with
  | idle => exact ⟨rfl, rfl, htarget, rfl⟩
  | written hwrite _ _ _ => simp [hmode] at hwrite
  | tracks htracks _ _ _ _ => simp [hmode] at htracks
  | reorganized hreorganize _ _ _ => simp [hmode] at hreorganize
  | read _ _ _ _ hmoves hstores _ =>
    obtain ⟨rfl, rfl⟩ := hmoves.resolve_left fun hmoves => by
      rw [hmode] at hmoves
      cases hmoves.1
    rcases hstores with ⟨-, rfl⟩ | hstores
    · exact ⟨rfl, rfl, htarget, rfl⟩
    · cases hstores with
      | refused _ => exact ⟨rfl, rfl, htarget, rfl⟩
      | added _ _ _ => exact ⟨rfl, rfl, rfl, rfl⟩
      | saved hnone _ _ => simp [hnone] at htarget

/-- **A run that copies records looks at each candidate as if it were the first.** -/
theorem unaltered_foreseen (hmode : ∃ checkNew, s.mode = .compact checkNew) (t : FileTree)
    (primary : OpenTable) :
    Foreseen s w (fun c => s.verdict c (t.pathExists c.path) (s.recordIn c primary.table))
      (Unaltered s t primary) where
  look := by
    rintro rest b c source h htakes
    have hverdict : ∃ primary', b.primary = some primary' ∧
        s.verdict c (b.files.pathExists c.path) (s.recordIn c primary'.table) =
          s.verdict c (t.pathExists c.path) (s.recordIn c primary.table) :=
      ⟨primary, h.library, by rw [h.files]⟩
    rcases h.coming with ⟨paths, hscans⟩ | ⟨songs, rfl, hended, hvisit⟩
    · obtain ⟨p, paths', -, rfl, rfl, rfl, hrest⟩ := hscans.next htakes
      exact ⟨_, hrest, hverdict, h.files, h.library, h.target, .inl ⟨paths', .of_source s b paths'⟩⟩
    · cases htakes with
      | file hsource =>
        obtain ⟨_, hsame, -⟩ := hvisit _ hsource
        cases hsame
      | @visited visit visit' primary' song hsource hprimary hnext =>
        obtain rfl := Option.some.inj (h.library.symm.trans hprimary)
        obtain ⟨_, hsame, hsize, hrest⟩ := hvisit _ hsource
        cases hsame
        obtain ⟨hsongs, -, hsize'⟩ := SongTable.Visit.rest_of_next hnext
        have hsplit := hrest.symm.trans hsongs
        subst hsplit
        refine ⟨_, List.map_cons .., hverdict, h.files, h.library, h.target,
          .inr ⟨_, rfl, by simp, ?_⟩⟩
        rintro _ ⟨⟩
        exact ⟨visit', rfl, hsize' ▸ hsize, rfl⟩
  copy h _ htarget := ⟨h.files, h.library, htarget.trans h.target, h.coming.imp
    (fun ⟨paths, hscans⟩ => ⟨paths, hscans.congr rfl⟩) id⟩
  exhaust := by
    rintro rest b h hend
    have hnil : rest = [] := by
      rcases h.coming with ⟨paths, hscans⟩ | ⟨songs, rfl, hended, hvisit⟩
      · exact (hscans.exhausted hend).2
      · refine List.map_eq_nil_iff.2 ?_
        cases hend with
        | none hsource => exact hended hsource
        | files hsource =>
          obtain ⟨_, hsame, -⟩ := hvisit _ hsource
          cases hsame
        | table hsource hprimary hnext =>
          obtain rfl := Option.some.inj (h.library.symm.trans hprimary)
          obtain ⟨_, hsame, hsize, hrest⟩ := hvisit _ hsource
          cases hsame
          rw [← hrest, SongTable.Visit.rest_of_end hsize hnext]
    exact ⟨hnil, h.files, h.library, h.target, .inl ⟨[], .nil s b⟩⟩
  ended := by
    rintro rest b h hsource
    rcases h.coming with ⟨paths, hscans⟩ | ⟨songs, rfl, hended, -⟩
    · rw [hscans.candidates, hscans.ended hsource]
      rfl
    · rw [hended hsource]
      rfl
  work := by
    rintro rest b b' job jobs h hjobs hworks
    obtain ⟨hfiles, hprimary, htarget, hsource⟩ := hworks.unaltered (b := { b with jobs }) hmode h.target
    refine ⟨hfiles.trans h.files, hprimary.trans h.library, htarget, ?_⟩
    rcases h.coming with ⟨paths, hscans⟩ | ⟨songs, hrest, hended, hvisit⟩
    · exact .inl ⟨paths, hscans.congr hsource⟩
    · exact .inr ⟨songs, hrest, hsource ▸ hended, hsource ▸ hvisit⟩

/-! ## In either order -/

/-- Copying records leaves the next id as it is. -/
theorem Run.copyAll_keeps (w : Services) (r : Run) (songs : List Song) :
    (r.copyAll w songs).nextId = r.nextId ∧
      (r.copyAll w songs).target.isSome = r.target.isSome := by
  induction songs generalizing r with
  | nil => exact ⟨rfl, rfl⟩
  | cons song songs ih =>
    obtain ⟨r₁, hcopied, heq⟩ := r.copyRecord_cases w song
    have hkept : (r.copyRecord w song).nextId = r.nextId ∧
        (r.copyRecord w song).target.isSome = r.target.isSome := by
      rw [heq]
      cases hcopied with
      | repeated _ => exact ⟨rfl, rfl⟩
      | added htarget _ => exact ⟨rfl, by rw [htarget]; rfl⟩
      | failed => exact ⟨rfl, rfl⟩
    obtain ⟨hnext, htarget⟩ := ih (r.copyRecord w song)
    exact ⟨hnext.trans hkept.1, htarget.trans hkept.2⟩

/-- Jobs for candidates without a record are jobs for new files. -/
theorem exists_newJobs (sees : Candidate → Verdict) {l : List Candidate}
    (h : ∀ c ∈ l, ∀ job, (sees c).job = some job → c.record = none ∧ job = s.newJob c.path) :
    ∃ paths : List Path, jobsFor sees l = paths.map s.newJob ∧
      paths.length ≤ (l.filter fun c => c.record.isNone).length := by
  induction l with
  | nil => exact ⟨[], rfl, Nat.zero_le _⟩
  | cons c l ih =>
    obtain ⟨paths, hpaths, hlength⟩ := ih fun c hc => h c (List.mem_cons_of_mem _ hc)
    unfold jobsFor at hpaths ⊢
    cases hjob : (sees c).job with
    | none =>
      refine ⟨paths, by simpa only [List.filterMap_cons, hjob] using hpaths, Nat.le_trans hlength ?_⟩
      exact ((List.sublist_cons_self c l).filter _).length_le
    | some job =>
      obtain ⟨hrecord, rfl⟩ := h c (by simp) job hjob
      refine ⟨c.path :: paths, by simp only [List.filterMap_cons, hjob, hpaths, List.map_cons], ?_⟩
      simpa [List.filter_cons, hrecord] using hlength

/-- **A record may be copied before jobs are done as well as afterwards**, as long as there
    are ids for the files without a record. -/
theorem unaltered_swappable (hw : w.Steady) (hmode : ∃ checkNew, s.mode = .compact checkNew)
    (htarget : r.target.isSome) (hnext : r.nextId = some (primary.table.maxId + 1))
    (hfiles : ∀ c ∈ candidates, c.record = none → c = s.ofFile c.path)
    (hrecords : ∀ c ∈ candidates, ∀ song ∈ c.record, ∃ row ∈ primary.table.rows, song = row.song)
    (hroom : primary.table.maxId.toInt + (candidates.filter fun c => c.record.isNone).length ≤
      Int64.maxValue.toInt) :
    Swappable s w (fun c => s.verdict c (t.pathExists c.path) (s.recordIn c primary.table))
      candidates r := by
  intro seen rest c song taken jobs hsplit hcopy hjobs
  obtain ⟨hnext', htarget'⟩ := r.copyAll_keeps w
    (copiesFor (fun c => s.verdict c (t.pathExists c.path) (s.recordIn c primary.table)) seen)
  rw [htarget] at htarget'
  obtain ⟨target, htarget'⟩ := Option.isSome_iff_exists.1 htarget'
  -- The record is one of the table.
  obtain ⟨row, hrow, rfl⟩ : ∃ row ∈ primary.table.rows, song = row.song := by
    have hrecord := Setup.copied_of_verdict hcopy
    unfold Setup.recordIn at hrecord
    rw [if_neg (by obtain ⟨_, hmode⟩ := hmode; simp [hmode])] at hrecord
    cases hown : c.record with
    | some own =>
      rw [hown] at hrecord
      obtain rfl : own = song := Option.some.inj hrecord
      exact hrecords c (by simp [hsplit]) own hown
    | none =>
      rw [hown, Option.none_or] at hrecord
      obtain ⟨row, hrow, hsame, -⟩ := SongTable.songAt?_eq_some_iff.1 hrecord
      exact ⟨row, hrow, hsame.symm⟩
  -- The jobs are for files without a record.
  obtain ⟨paths, hpaths, hlength⟩ := exists_newJobs (s := s) (l := seen)
    (fun c => s.verdict c (t.pathExists c.path) (s.recordIn c primary.table))
    fun c hc job hjob => by
      obtain ⟨hnone, rfl⟩ := Setup.job_of_copying hmode hjob
      have hrecord : c.record = none := by
        unfold Setup.recordIn at hnone
        rw [if_neg (by obtain ⟨_, hmode⟩ := hmode; simp [hmode]), Option.or_eq_none_iff] at hnone
        exact hnone.1
      refine ⟨hrecord, ?_⟩
      rw [hfiles c (by simp [hsplit, hc]) hrecord]
      rfl
  rw [hpaths, List.map_eq_append_iff] at hjobs
  obtain ⟨front, back, rfl, rfl, -⟩ := hjobs
  refine Run.performAll_swaps hw hmode htarget' (hnext'.trans hnext) rfl fun k hk => ?_
  refine SongTable.id_ne_after hrow hroom (Nat.lt_of_lt_of_le hk ?_)
  rw [List.length_append] at hlength
  rw [hsplit, List.filter_append, List.length_append]
  omega

end SongLibrary.Reconcile
