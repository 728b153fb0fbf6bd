/-
  Candidates that a run has yet to look at.

  A run that does not copy records comes to the same verdict on a candidate whenever it
  looks at it:

  * a rebuild takes no notice of tables and of earlier jobs (`rebuild_foreseen`);
  * a run that adds new files does not move one to where another is, and so adds no row
    at the key of a file that it is to look at (`checkNew_foreseen`);
  * a run over the table comes to the songs as they were, and their files are there, if
    each is reached directly and no two songs share one (`byId_foreseen`).
-/
import SongLibrary.Proofs.FileTree.Siblings
import SongLibrary.Proofs.Reconcile.Addressed
import SongLibrary.Proofs.Reconcile.Foreseeing
import SongLibrary.Proofs.SongTable.Visit

namespace SongLibrary

open FileTree (MovesFile find_file_iff)

/-! ## Files that are not moved -/

section

variable {t t' : FileTree} {source musicDir : Path} {l m : Location} {c : Content}
  {relative : String}

/-- Moving a file leaves a file wherever another one was. -/
theorem organizeFile_hasFile {result : FileTree × Except Failure Path}
    (hs : t.find source = .ok (l, .file c)) (h : organizeFile t source musicDir relative = result)
    (hm : m ≠ l) (hfile : t.HasFile m) : result.1.HasFile m := by
  cases hr : relative.isEmpty with
  | true =>
    simp only [organizeFile, hr, if_true] at h
    subst h
    exact hfile
  | false =>
    have hcases := organizeFile_cases musicDir hs hr
    rw [h] at hcases
    clear h
    cases hcases with
    | same _ => exact hfile
    | refused _ _ h _ =>
      rcases h with rfl | rfl
      · exact hfile
      · exact ((createParent_adds t _).hasFile m).2 hfile
    | @moved t₁ t₂ k hp _ _ hmoved =>
      rw [(cleanUp_prunes t₂ musicDir source).hasFile]
      have hfile₁ := (hp.adds.hasFile m).2 hfile
      rcases hmoved with ⟨-, rfl⟩ | ⟨-, hmoves⟩
      · exact hfile₁
      · exact (hmoves.hasFile m).2 (.inr ⟨hm, hfile₁⟩)

/-- **A file is not moved to where another one of the same directory is**, by whatever path
    with the names of that one. -/
theorem organizeFile_ne_sibling {root place : Path} {names others : List Name}
    (hwf : t.WellFormed) (hroot : root.isAbsolute) (hproper : ∀ name ∈ names, name.IsProper)
    (hothers : ∀ name ∈ others, name.IsProper) (hne : others ≠ [])
    (hs : t.find (others.foldl Path.child root) = .ok (l, .file c))
    (hfile : t.HasFile (t.destination (names.foldl Path.child root)))
    (hl : t.destination (names.foldl Path.child root) ≠ l)
    (h : organizeFile t (others.foldl Path.child root) musicDir relative = (t', .ok place)) :
    ¬ (resolve musicDir relative).sameAs (names.foldl Path.child root) := by
  intro htarget
  have hplace := FileTree.destination_of_sameAs (t := t) htarget
  cases hr : relative.isEmpty with
  | true =>
    simp only [organizeFile, hr, if_true] at h
    cases h
  | false =>
    have hcases := organizeFile_cases musicDir hs hr
    rw [h] at hcases
    obtain ⟨-, hdest⟩ := FileTree.route_of_find hs
    cases hcases with
    | same hsame =>
      rw [← hplace, FileTree.destination_of_sameAs hsame, ← hdest] at hl
      exact hl rfl
    | @moved t₁ t₂ k hp hlands _ _ =>
      have hk : k = t.destination (resolve musicDir relative) :=
        hlands.eq_destination.trans (FileTree.destination_congr hp.adds.workingDir _)
      obtain ⟨d, hget⟩ := hplace ▸ hfile
      obtain ⟨parent, name, hlocate, rfl, -⟩ := hlands
      have hfound : t₁.find (resolve musicDir relative) = .ok (parent ++ [name], .file d) :=
        find_file_iff.2 ⟨parent, name, hlocate, rfl, hp.adds.some (hk ▸ hget)⟩
      have hthere := FileTree.find_sibling hwf hroot hproper hothers hne hs htarget hget
        hp.adds.workingDir hfound
      have hfree := hp.free
      simp [FileTree.pathExists, hthere, Except.isOk, Except.toBool] at hfree

end

/-- Two files that a walk comes to are below its root. -/
theorem FileTree.exists_names_of_mem_walk {t : FileTree} {root p q : Path} (hwf : t.WellFormed)
    (hlisted : t.Listed) (hp : p ∈ t.walk root) (hq : q ∈ t.walk root)
    (hne : t.destination p ≠ t.destination q) :
    ∃ names others : List Name, p = names.foldl Path.child root ∧ q = others.foldl Path.child root ∧
      (∀ name ∈ names, name.IsProper) ∧ (∀ name ∈ others, name.IsProper) ∧ others ≠ [] := by
  rcases mem_walk hlisted hp with ⟨_, _, hfile, rfl⟩ | ⟨l, names, _, hroot, rfl, hget⟩ <;>
    rcases mem_walk hlisted hq with ⟨_, _, hfile', rfl⟩ | ⟨l', others, _, hroot', rfl, hget'⟩
  · exact absurd rfl hne
  · rw [hfile] at hroot'
    cases hroot'
  · rw [hfile'] at hroot
    cases hroot
  · refine ⟨names, others, rfl, rfl, fun name hname => hwf.proper_of_get? hget name (by simp [hname]),
      fun name hname => hwf.proper_of_get? hget' name (by simp [hname]), ?_⟩
    rintro rfl
    rw [List.append_nil, hwf.directory_of_find hroot'] at hget'
    cases hget'

theorem SongTable.songAt?_isSome_iff {table : SongTable} {uri : String} :
    (table.songAt? uri).isSome ↔ ∃ row ∈ table.rows, row.uri = uri := by
  rw [Option.isSome_iff_ne_none, ne_eq, songAt?_eq_none_iff]
  simp

namespace Reconcile

variable {s : Setup} {w : Services} {b b' : Books} {rest : List Candidate} {c : Candidate}
  {source : Source} {job : Job} {jobs : List Job}

/-! ## What a job leaves alone -/

namespace Books

theorem Moves.keeps {song song' : Song} {path : Path} (h : Moves s b song path (song', b')) :
    b'.jobs = b.jobs ∧ b'.source = b.source ∧ b'.primary = b.primary ∧ b'.target = b.target := by
  cases h <;> exact ⟨rfl, rfl, rfl, rfl⟩

/-- A job leaves alone which jobs and which candidates are to come, and no table is closed. -/
theorem Works.keeps (h : Works s w b job b') :
    b'.jobs = b.jobs ∧ b'.source = b.source ∧ b'.primary.isSome = b.primary.isSome ∧
      b'.target.isSome = b.target.isSome := by
  have hstored : ∀ {b b' : Books} {song : Song}, Stores b song b' →
      b'.jobs = b.jobs ∧ b'.source = b.source ∧ b'.primary.isSome = b.primary.isSome ∧
        b'.target.isSome = b.target.isSome := by
    rintro b b' song h
    cases h with
    | refused _ => exact ⟨rfl, rfl, rfl, rfl⟩
    | added _ htarget _ => exact ⟨rfl, rfl, rfl, by rw [htarget]; rfl⟩
    | saved _ hprimary _ => exact ⟨rfl, rfl, by rw [hprimary]; rfl, rfl⟩
  cases h with
  | idle => exact ⟨rfl, rfl, rfl, rfl⟩
  | written _ _ _ _ => exact ⟨rfl, rfl, rfl, rfl⟩
  | tracks _ _ _ hstores _ => exact hstored hstores
  | @read _ _ _ song song' b₁ b₂ _ _ _ _ hmoves hstores _ =>
    have hmoved : b₁.jobs = b.jobs ∧ b₁.source = b.source ∧ b₁.primary = b.primary ∧
        b₁.target = b.target := by
      rcases hmoves with ⟨-, hmoves⟩ | ⟨-, rfl⟩
      · exact hmoves.keeps
      · exact ⟨rfl, rfl, rfl, rfl⟩
    rw [← hmoved.1, ← hmoved.2.1, ← hmoved.2.2.1, ← hmoved.2.2.2]
    rcases hstores with ⟨-, rfl⟩ | hstores
    · exact ⟨rfl, rfl, rfl, rfl⟩
    · exact hstored hstores
  | reorganized _ _ hmoves hstores =>
    have hmoved := hmoves.keeps
    rw [← hmoved.1, ← hmoved.2.1, ← hmoved.2.2.1, ← hmoved.2.2.2]
    rcases hstores with ⟨-, rfl⟩ | ⟨-, hstores⟩
    · exact ⟨rfl, rfl, rfl, rfl⟩
    · exact hstored hstores

/-- Moving a file leaves the others there. -/
theorem Moves.elsewhere {song song' : Song} {path : Path} {l : Location} {content : Content}
    (hwf : b.files.WellFormed) (hfind : b.files.find path = .ok (l, .file content))
    (h : Moves s b song path (song', b')) :
    b'.files.WellFormed ∧ b'.files.workingDir = b.files.workingDir ∧
      ∀ m, m ≠ l → b.files.HasFile m → b'.files.HasFile m := by
  have hmoved : ∀ {relative : String} {result : FileTree × Except Failure Path},
      organizeFile b.files path s.musicDir relative = result → result.1.WellFormed ∧
        result.1.workingDir = b.files.workingDir ∧
        ∀ m, m ≠ l → b.files.HasFile m → result.1.HasFile m := by
    intro relative result hmove
    obtain ⟨hwf', hworking, -⟩ := organizeFile_elsewhere hfind hwf hmove
    exact ⟨hwf', hworking, fun m hm => organizeFile_hasFile hfind hmove hm⟩
  cases h with
  | stays => exact ⟨hwf, rfl, fun _ _ hfile => hfile⟩
  | failed hmove => exact hmoved hmove
  | moved _ hmove => exact hmoved hmove

end Books

/-! ## Scans -/

namespace Setup

variable (s)

/-- The candidate that a file is. -/
def ofFile (p : Path) : Candidate :=
  ⟨p, keyOf s.musicDir p, none⟩

variable {s}

/-- Whether its file is there does not matter for a candidate that comes from a scan. -/
theorem verdict_file (h : c.record = none) (isThere isThere' : Bool) (existing : Option Song) :
    s.verdict c isThere existing = s.verdict c isThere' existing := by
  simp [verdict, h]

/-- Where new files are added, it does not matter which record a file has. -/
theorem verdict_checkNew (hmode : s.mode = .checkNew) {isThere : Bool} {existing existing' : Option Song}
    (h : existing.isSome = existing'.isSome) :
    s.verdict c isThere existing = s.verdict c isThere existing' := by
  have hsettlement : s.settlement c existing = s.settlement c existing' := by
    cases existing with
    | none =>
      obtain rfl : existing' = none := by simpa using h.symm
      rfl
    | some song =>
      obtain ⟨song', rfl⟩ := Option.isSome_iff_exists.1 h.symm
      simp [settlement, hmode]
  simp [verdict, hsettlement]

/-- The job for a candidate is about its file and its record. -/
theorem eq_of_verdict {isThere : Bool} {existing : Option Song}
    (h : (s.verdict c isThere existing).job = some job) :
    job = ⟨c.path, c.key, pathFrom s.root c.path, existing⟩ := by
  have hadmission : ∀ existing, (s.admission c existing).job = some job →
      job = ⟨c.path, c.key, pathFrom s.root c.path, existing⟩ := by
    intro existing h
    unfold admission at h
    split at h
    · cases h
    · exact (Option.some.inj h).symm
  unfold verdict at h
  split at h
  · cases h
  · split at h
    · cases h
    · dsimp only at h
      unfold settlement at h
      split at h
      · exact hadmission _ h
      · cases h
      · cases h
      · exact hadmission _ h

theorem job_of_verdict {isThere : Bool} {existing : Option Song}
    (h : (s.verdict c isThere existing).job = some job) :
    job.path = c.path ∧ job.key = c.key ∧ job.existing = existing := by
  rw [eq_of_verdict h]
  exact ⟨rfl, rfl, rfl⟩

end Setup

/-- The candidates to come are the files that a scan is still to come to. -/
structure Scans (s : Setup) (rest : List Candidate) (b : Books) (paths : List Path) : Prop where
  candidates : rest = paths.map s.ofFile
  coming : ∀ source ∈ b.source, source = .files paths
  ended : b.source = none → paths = []

namespace Scans

variable {paths : List Path}

theorem next (h : Scans s rest b paths) (htakes : Books.Takes s b c source) :
    ∃ p paths', b.source = some (.files (p :: paths')) ∧ paths = p :: paths' ∧ c = s.ofFile p ∧
      source = .files paths' ∧ rest = c :: paths'.map s.ofFile := by
  cases htakes with
  | visited hsource _ _ => cases h.coming _ hsource
  | file hsource =>
    cases h.coming _ hsource
    exact ⟨_, _, hsource, rfl, rfl, rfl, h.candidates⟩

theorem exhausted (h : Scans s rest b paths) (hend : Books.Exhausted b) : paths = [] ∧ rest = [] := by
  have hpaths : paths = [] := by
    cases hend with
    | none hsource => exact h.ended hsource
    | files hsource =>
      cases h.coming _ hsource
      rfl
    | table hsource _ _ => cases h.coming _ hsource
  exact ⟨hpaths, by rw [h.candidates, hpaths]; rfl⟩

/-- A scan goes on. -/
theorem of_source {jobs : List Job} (s : Setup) (b : Books) (paths : List Path) :
    Scans s (paths.map s.ofFile) { b with source := some (.files paths), jobs } paths :=
  ⟨rfl, by rintro _ ⟨⟩; rfl, by simp⟩

/-- A scan has come to its end. -/
theorem nil (s : Setup) (b : Books) : Scans s [] { b with source := none } [] :=
  ⟨rfl, by simp, fun _ => rfl⟩

theorem congr (h : Scans s rest b paths) (hsource : b'.source = b.source) : Scans s rest b' paths :=
  ⟨h.candidates, hsource ▸ h.coming, hsource ▸ h.ended⟩

end Scans

/-- **A rebuild looks at every file as if it were the first.** -/
theorem rebuild_foreseen (hmode : s.mode = .rebuild) :
    Foreseen s w (fun c => s.verdict c true none)
      fun rest b => b.primary.isSome ∧ ∃ paths, Scans s rest b paths where
  look := by
    rintro rest b c source ⟨hprimary, paths, hscans⟩ htakes
    obtain ⟨p, paths', -, rfl, rfl, rfl, hrest⟩ := hscans.next htakes
    obtain ⟨primary, hsome⟩ := Option.isSome_iff_exists.1 hprimary
    refine ⟨_, hrest, ⟨primary, hsome, ?_⟩, hprimary, paths', .of_source s b paths'⟩
    rw [Setup.recordIn, if_pos hmode]
    exact Setup.verdict_file rfl _ _ _
  copy _ hcopy _ := by
    rw [Setup.copy_verdict (by simp [hmode])] at hcopy
    cases hcopy
  exhaust := by
    rintro rest b ⟨hprimary, paths, hscans⟩ hend
    exact ⟨(hscans.exhausted hend).2, hprimary, [], .nil s b⟩
  ended := by
    rintro rest b ⟨-, paths, hscans⟩ hsource
    rw [hscans.candidates, hscans.ended hsource]
    rfl
  work := by
    rintro rest b b' job jobs ⟨hprimary, paths, hscans⟩ - hworks
    obtain ⟨-, hsource, hsome, -⟩ := hworks.keeps
    exact ⟨hsome ▸ hprimary, paths, hscans.congr hsource⟩

/-! ## New files -/

/-- A run that adds new files, before it looks at some of them: these are there, at places of
    their own, and so are those that it has jobs for, and the table has a record of such a
    file just if it had one in the beginning. -/
structure Awaited (s : Setup) (t : FileTree) (table : SongTable) (b : Books) (paths : List Path) :
    Prop where
  wellFormed : b.files.WellFormed
  workingDir : b.files.workingDir = t.workingDir
  target : b.target = none
  primary : ∃ primary, b.primary = some primary ∧ ∀ p ∈ paths,
    (primary.table.songAt? (keyOf s.musicDir p)).isSome = (table.songAt? (keyOf s.musicDir p)).isSome
  jobs : ∀ job ∈ b.jobs, job.existing = none ∧ job.key = keyOf s.musicDir job.path
  paths : ∀ p ∈ paths, p ∈ b.paths
  walked : ∀ p ∈ b.ahead, p ∈ t.walk s.root
  there : ∀ p ∈ b.ahead, b.files.HasFile (t.destination p)
  distinct : (b.ahead.map t.destination).Nodup

namespace Awaited

variable {t : FileTree} {table : SongTable} {paths : List Path}

/-- A file is looked at: it is passed over, or there will be a job for it. -/
theorem look {p : Path} {isThere : Bool} {existing : Option Song} (hmode : s.mode = .checkNew)
    (h : Awaited s t table b (p :: paths)) (hsource : b.source = some (.files (p :: paths))) :
    Awaited s t table { b with
      source := some (.files paths)
      jobs := b.jobs ++ (s.verdict (s.ofFile p) isThere existing).job.toList } paths := by
  obtain ⟨primary, hprimary, hsame⟩ := h.primary
  obtain ⟨hpassed, hqueued⟩ := Books.ahead_files hsource
  have hsub : ∀ b' : Books, b'.ahead.Sublist b.ahead → (∀ q ∈ b'.ahead, q ∈ t.walk s.root) ∧
      (∀ q ∈ b'.ahead, b.files.HasFile (t.destination q)) ∧ (b'.ahead.map t.destination).Nodup :=
    fun _ hsub => ⟨fun q hq => h.walked q (hsub.subset hq), fun q hq => h.there q (hsub.subset hq),
      h.distinct.sublist (hsub.map _)⟩
  have hrest : ∃ primary, b.primary = some primary ∧ ∀ q ∈ paths,
      (primary.table.songAt? (keyOf s.musicDir q)).isSome =
        (table.songAt? (keyOf s.musicDir q)).isSome :=
    ⟨primary, hprimary, fun q hq => hsame q (List.mem_cons_of_mem _ hq)⟩
  cases hjob : (s.verdict (s.ofFile p) isThere existing).job with
  | none =>
    rw [Option.toList_none, List.append_nil]
    obtain ⟨hwalked, hthere, hdistinct⟩ := hsub _ hpassed
    exact ⟨h.wellFormed, h.workingDir, h.target, hrest, h.jobs, fun _ hq => hq, hwalked, hthere,
      hdistinct⟩
  | some job =>
    obtain ⟨hpath, hkey, hexisting⟩ := Setup.job_of_verdict hjob
    obtain ⟨path, key, relative, record⟩ := job
    obtain rfl : path = p := hpath
    obtain ⟨hwalked, hthere, hdistinct⟩ := hsub { b with
        source := some (.files paths), jobs := b.jobs ++ [⟨path, key, relative, record⟩] }
      (by rw [hqueued key relative record])
    refine ⟨h.wellFormed, h.workingDir, h.target, hrest, fun job hjob' => ?_, fun _ hq => hq, hwalked,
      hthere, hdistinct⟩
    rcases List.mem_append.1 hjob' with hold | hnew
    · exact h.jobs job hold
    · obtain rfl := List.mem_singleton.1 hnew
      refine ⟨hexisting.trans ?_, hkey⟩
      -- There is no job for a file that has a record.
      cases existing with
      | none => rfl
      | some song =>
        simp [Setup.verdict, Setup.settlement, hmode] at hjob
        split at hjob
        · cases hjob
        · split at hjob <;> cases hjob

/-- A job moves its file to where no other one is that the run is to look at. -/
theorem moves {song song' : Song} {path : Path} {b₁ : Books} (hwf : t.WellFormed)
    (hlisted : t.Listed) (hmusic : s.musicDir.isAbsolute) (hroot : s.root.isAbsolute)
    (htext : ∀ p ∈ t.walk s.root, p.IsText) {l : Location} {content : Content}
    (hb : b.files.WellFormed) (hworking : b.files.workingDir = t.workingDir)
    (hpath : path ∈ t.walk s.root) (hfind : b.files.find path = .ok (l, .file content))
    (huri : song.uri = keyOf s.musicDir path) (h : Books.Moves s b song path (song', b₁)) :
    b₁.files.WellFormed ∧ b₁.files.workingDir = t.workingDir ∧
      ∀ p ∈ t.walk s.root, t.destination p ≠ t.destination path →
        b.files.HasFile (t.destination p) →
          b₁.files.HasFile (t.destination p) ∧ song'.uri ≠ keyOf s.musicDir p := by
  have hdest : ∀ p, b.files.destination p = t.destination p := FileTree.destination_congr hworking
  have hl : l = t.destination path := (FileTree.route_of_find hfind).2.trans (hdest path)
  have hkey : ∀ p ∈ t.walk s.root, (resolve s.musicDir (keyOf s.musicDir p)).sameAs p := fun p hp =>
    sameAs_resolve_keyOf hmusic (isAbsolute_of_mem_walk hlisted hroot hp) (htext p hp)
  have hstays : ∀ p ∈ t.walk s.root, t.destination p ≠ t.destination path →
      song.uri ≠ keyOf s.musicDir p := by
    intro p hp hne heq
    refine hne ?_
    rw [← FileTree.destination_of_sameAs (hkey p hp), ← heq, huri,
      FileTree.destination_of_sameAs (hkey path hpath)]
  obtain ⟨hwf', hworking', hleft⟩ := h.elsewhere hb hfind
  refine ⟨hwf', hworking'.trans hworking, fun p hp hne hfile => ⟨hleft _ (hl ▸ hne) hfile, ?_⟩⟩
  cases h with
  | stays => exact hstays p hp hne
  | failed _ => exact hstays p hp hne
  | @moved files relative place _ hmove =>
    rintro (rfl : relative = keyOf s.musicDir p)
    obtain ⟨names, others, rfl, rfl, hproper, hothers, hnil⟩ :=
      FileTree.exists_names_of_mem_walk hwf hlisted hp hpath hne
    exact organizeFile_ne_sibling hb hroot hproper hothers hnil hfind ((hdest _).symm ▸ hfile)
      (by rw [hdest, hl]; exact hne) hmove (hkey _ hp)

/-- A job is taken from the queue. -/
theorem taken (h : Awaited s t table b paths) (hjobs : b.jobs = job :: jobs) :
    Awaited s t table { b with jobs } paths ∧ ∀ p ∈ Books.ahead { b with jobs },
      t.destination p ≠ t.destination job.path := by
  obtain ⟨hdistinct, hothers⟩ := Books.nodup_ahead_jobs hjobs h.distinct
  have hlater : ∀ p ∈ Books.ahead { b with jobs }, p ∈ b.ahead := fun p hp =>
    Books.ahead_jobs hjobs ▸ List.mem_cons_of_mem _ hp
  exact ⟨⟨h.wellFormed, h.workingDir, h.target, h.primary,
    fun job' hjob' => h.jobs job' (hjobs ▸ List.mem_cons_of_mem _ hjob'), h.paths,
    fun p hp => h.walked p (hlater p hp), fun p hp => h.there p (hlater p hp), hdistinct⟩, hothers⟩

/-- Files may change as long as those that the run is to look at are there. -/
theorem refiled {b₁ : Books} (h : Awaited s t table b paths)
    (hkept : b₁.jobs = b.jobs ∧ b₁.source = b.source ∧ b₁.primary = b.primary ∧ b₁.target = b.target)
    (hwf : b₁.files.WellFormed) (hworking : b₁.files.workingDir = t.workingDir)
    (hthere : ∀ p ∈ b.ahead, b₁.files.HasFile (t.destination p)) : Awaited s t table b₁ paths := by
  obtain ⟨hjobs, hsource, hprimary, htarget⟩ := hkept
  have hpaths : b₁.paths = b.paths := by simp only [Books.paths, hsource]
  have hahead : b₁.ahead = b.ahead := by simp only [Books.ahead, hpaths, hjobs]
  refine ⟨hwf, hworking, htarget.trans h.target, hprimary ▸ h.primary, hjobs ▸ h.jobs,
    hpaths ▸ h.paths, ?_, ?_, ?_⟩ <;> rw [hahead]
  · exact h.walked
  · exact hthere
  · exact h.distinct

/-- A song without an id is stored under another key than those of the files to come. -/
theorem stored {song : Song} (h : Awaited s t table b paths) (hid : song.id = none)
    (hcoming : ∀ p ∈ paths, song.uri ≠ keyOf s.musicDir p) (hstores : Books.Stores b song b') :
    Awaited s t table b' paths := by
  cases hstores with
  | refused _ => exact h
  | added _ hsome _ => simp [h.target] at hsome
  | @saved primary table' how _ hprimary hsave =>
    obtain ⟨primary₀, hprimary₀, hsame⟩ := h.primary
    obtain rfl := Option.some.inj (hprimary.symm.trans hprimary₀)
    obtain ⟨id, -, hrows⟩ := (SongTable.save?_cases hsave).resolve_left (by simp [hid])
    refine ⟨h.wellFormed, h.workingDir, h.target,
      ⟨{ primary with table := table' }, rfl, fun p hp => ?_⟩, h.jobs, h.paths, h.walked, h.there,
      h.distinct⟩
    rw [← hsame p hp, Bool.eq_iff_iff, SongTable.songAt?_isSome_iff, SongTable.songAt?_isSome_iff]
    simp only [hrows.mem_iff, List.mem_cons, exists_eq_or_imp]
    exact or_iff_right (hcoming p hp)

/-- A job adds a record of its own file alone, and leaves the other files there. -/
theorem work (hmode : s.mode = .checkNew) (hwf : t.WellFormed)
    (hlisted : t.Listed) (hmusic : s.musicDir.isAbsolute) (hroot : s.root.isAbsolute)
    (htext : ∀ p ∈ t.walk s.root, p.IsText) (h : Awaited s t table b paths)
    (hjobs : b.jobs = job :: jobs) (hworks : Books.Works s w { b with jobs } job b') :
    Awaited s t table b' paths := by
  obtain ⟨htaken, hothers⟩ := h.taken hjobs
  obtain ⟨hexisting, hkey⟩ := h.jobs job (by simp [hjobs])
  cases hworks with
  | idle => exact htaken
  | written hwrite _ _ _ => simp [hmode] at hwrite
  | tracks hitunes _ _ _ => simp [hmode] at hitunes
  | reorganized hreorganize _ _ _ => simp [hmode] at hreorganize
  | @read content n tags song song' b₁ b₂ _ hread _ huri hmoves hstores hid =>
    obtain ⟨l, hfind⟩ := FileTree.read_eq_ok_iff.1 hread
    have hpath : job.path ∈ t.walk s.root :=
      h.walked _ (by rw [Books.ahead_jobs hjobs]; exact List.mem_cons_self ..)
    have hmoved : Books.Moves s { b with jobs } song job.path (song', b₁) := by
      rcases hmoves with ⟨-, hmoves⟩ | ⟨rfl, rfl⟩
      · exact hmoves
      · exact .stays
    obtain ⟨hwf', hworking', hfiles⟩ := Awaited.moves hwf hlisted hmusic hroot htext htaken.wellFormed
      htaken.workingDir hpath hfind (huri.trans hkey) hmoved
    have hleft : ∀ p ∈ Books.ahead { b with jobs },
        b₁.files.HasFile (t.destination p) ∧ song'.uri ≠ keyOf s.musicDir p := fun p hp =>
      hfiles p (htaken.walked p hp) (hothers p hp) (htaken.there p hp)
    have hnone : song'.id = none := by
      have hsong : song.id = none := by
        rw [hid (by simp [hmode]), hexisting]
        rfl
      rcases hmoved.cases_uri with ⟨rfl, -⟩ | ⟨_, rfl, -⟩ <;> exact hsong
    exact (htaken.refiled hmoved.keeps hwf' hworking' fun p hp => (hleft p hp).1).stored hnone
      (fun p hp => (hleft p (List.mem_append_right _ (htaken.paths p hp))).2)
      (hstores.resolve_left (by simp [hexisting]))

end Awaited

/-- **A run that adds new files looks at each as if it were the first**: no job before
    makes or unmakes a record of it. -/
theorem checkNew_foreseen {t : FileTree} (hmode : s.mode = .checkNew) (hwf : t.WellFormed)
    (hlisted : t.Listed) (hmusic : s.musicDir.isAbsolute) (hroot : s.root.isAbsolute)
    (htext : ∀ p ∈ t.walk s.root, p.IsText) (table : SongTable) :
    Foreseen s w (fun c => s.verdict c true (table.songAt? c.key))
      fun rest b => ∃ paths, Scans s rest b paths ∧ Awaited s t table b paths where
  look := by
    rintro rest b c source ⟨paths, hscans, hawaited⟩ htakes
    obtain ⟨p, paths', hsource, rfl, rfl, rfl, hrest⟩ := hscans.next htakes
    obtain ⟨primary, hprimary, hsame⟩ := hawaited.primary
    refine ⟨_, hrest, ⟨primary, hprimary, ?_⟩, paths', .of_source s b paths',
      hawaited.look hmode hsource⟩
    rw [Setup.recordIn, if_neg (by simp [hmode]), Setup.verdict_file rfl _ true]
    exact Setup.verdict_checkNew hmode (hsame p (by simp))
  copy _ hcopy _ := by
    rw [Setup.copy_verdict (by simp [hmode])] at hcopy
    cases hcopy
  exhaust := by
    rintro rest b ⟨paths, hscans, hawaited⟩ hend
    obtain ⟨rfl, hrest⟩ := hscans.exhausted hend
    have hsub : ∀ p ∈ Books.ahead { b with source := none }, p ∈ b.ahead := by
      simp [Books.ahead, Books.paths]
      exact fun job hjob => .inl ⟨job, hjob, rfl⟩
    refine ⟨hrest, [], .nil s b, hawaited.wellFormed, hawaited.workingDir, hawaited.target,
      hawaited.primary, hawaited.jobs, by simp, fun p hp => hawaited.walked p (hsub p hp),
      fun p hp => hawaited.there p (hsub p hp), ?_⟩
    refine hawaited.distinct.sublist (List.Sublist.map _ ?_)
    simp [Books.ahead, Books.paths]
  ended := by
    rintro rest b ⟨paths, hscans, -⟩ hsource
    rw [hscans.candidates, hscans.ended hsource]
    rfl
  work := by
    rintro rest b b' job jobs ⟨paths, hscans, hawaited⟩ hjobs hworks
    exact ⟨paths, hscans.congr hworks.keeps.2.1,
      hawaited.work hmode hwf hlisted hmusic hroot htext hjobs hworks⟩

/-! ## The songs of the table -/

namespace Books

/-- The songs that a run has jobs for. -/
def pending (b : Books) : List Song :=
  b.jobs.filterMap Job.existing

/-- What a job does to the file of a song and to its record: the other files stay, and the
    record is written anew under its id. -/
structure Rewrites (b : Books) (song : Song) (l : Location) (b' : Books) : Prop where
  wellFormed : b'.files.WellFormed
  workingDir : b'.files.workingDir = b.files.workingDir
  others : ∀ m, m ≠ l → b.files.HasFile m → b'.files.HasFile m
  primary : ∀ primary, b.primary = some primary → ∃ table,
    b'.primary = some { primary with table } ∧ (table = primary.table ∨
      ∃ song' how, song'.id = song.id ∧ primary.table.save? song' = some (how, table))
  target : b'.target = none
  kept : b'.jobs = b.jobs ∧ b'.source = b.source

namespace Rewrites

variable {song song' : Song} {l : Location} {b₁ : Books}

/-- Where only the files have changed, the song may be stored. -/
theorem stores (h : Rewrites b song l b₁) (hprimary : b₁.primary = b.primary)
    (hid : song'.id = song.id) (hstores : Stores b₁ song' b') : Rewrites b song l b' := by
  cases hstores with
  | refused _ => exact h
  | added _ hsome _ => simp [h.target] at hsome
  | @saved primary table how _ hsome hsave =>
    refine { h with primary := fun primary' hsome' => ?_ }
    obtain rfl := Option.some.inj (hsome.symm.trans (hprimary.trans hsome'))
    exact ⟨table, rfl, .inr ⟨song', how, hid, hsave⟩⟩

end Rewrites

/-- A job for a song of the table, which is not new, works on its file and its record. -/
theorem Works.rewrites {song : Song} {l : Location} {content : Content} (hwf : b.files.WellFormed)
    (htarget : b.target = none) (hmode : s.mode ≠ .rebuild) (hexisting : job.existing = some song)
    (hfind : b.files.find job.path = .ok (l, .file content)) (h : Works s w b job b') :
    Rewrites b song l b' := by
  have hsame : ∀ {b₁ : Books}, b₁.files.WellFormed ∧ b₁.files.workingDir = b.files.workingDir ∧
      (∀ m, m ≠ l → b.files.HasFile m → b₁.files.HasFile m) → b₁.primary = b.primary →
      b₁.target = b.target → b₁.jobs = b.jobs ∧ b₁.source = b.source → Rewrites b song l b₁ :=
    fun hfiles hprimary htarget' hkept => ⟨hfiles.1, hfiles.2.1, hfiles.2.2,
      fun primary hsome => ⟨primary.table, hprimary.trans hsome, .inl rfl⟩, htarget'.trans htarget,
      hkept⟩
  have hidle : Rewrites b song l b := hsame ⟨hwf, rfl, fun _ _ hfile => hfile⟩ rfl rfl ⟨rfl, rfl⟩
  have hmoved : ∀ {song₁ song₂ : Song} {b₁ : Books}, Moves s b song₁ job.path (song₂, b₁) →
      Rewrites b song l b₁ ∧ b₁.primary = b.primary ∧ song₂.id = song₁.id := by
    intro song₁ song₂ b₁ hmoves
    obtain ⟨hjobs, hsource, hprimary, htarget'⟩ := hmoves.keeps
    refine ⟨hsame (hmoves.elsewhere hwf hfind) hprimary htarget' ⟨hjobs, hsource⟩, hprimary, ?_⟩
    rcases hmoves.cases_uri with ⟨rfl, -⟩ | ⟨_, rfl, -⟩ <;> rfl
  -- Whatever the job does is done to the file of the song and to its row.
  cases h with
  | idle => exact hidle
  | @written before after files n tags _ _ _ hwrite =>
    obtain ⟨k, hlands, rfl⟩ := FileTree.write_eq_ok_iff.1 hwrite
    refine hsame ⟨hwf.put_file hlands after, rfl, fun m _ hfile => ?_⟩ rfl rfl ⟨rfl, rfl⟩
    obtain ⟨c, hget⟩ := hfile
    by_cases hm : m = k
    · exact ⟨after, by rw [FileTree.get?_put _ hlands.ne_nil, if_pos hm]⟩
    · exact ⟨c, by rw [FileTree.get?_put _ hlands.ne_nil, if_neg hm, hget]⟩
  | tracks _ he _ hstores hid =>
    obtain rfl := Option.some.inj (hexisting.symm.trans he)
    exact hidle.stores rfl hid hstores
  | @read content' n tags song₁ song₂ b₁ b₂ _ _ _ _ hmoves hstores hid =>
    have hsong : song₁.id = song.id := by rw [hid hmode, hexisting]; rfl
    obtain ⟨hrewrites, hprimary, hid'⟩ : Rewrites b song l b₁ ∧ b₁.primary = b.primary ∧
        song₂.id = song₁.id := by
      rcases hmoves with ⟨-, hmoves⟩ | ⟨rfl, rfl⟩
      · exact hmoved hmoves
      · exact ⟨hidle, rfl, rfl⟩
    rcases hstores with ⟨-, rfl⟩ | hstores
    · exact hrewrites
    · exact hrewrites.stores hprimary (hid'.trans hsong) hstores
  | reorganized _ he hmoves hstores =>
    obtain rfl := Option.some.inj (hexisting.symm.trans he)
    obtain ⟨hrewrites, hprimary, hid'⟩ := hmoved hmoves
    rcases hstores with ⟨-, rfl⟩ | ⟨-, hstores⟩
    · exact hrewrites
    · exact hrewrites.stores hprimary hid' hstores

end Books

namespace Setup

/-- The candidate that a song of the table is. -/
def ofSong (s : Setup) (song : Song) : Candidate :=
  ⟨resolve s.musicDir song.uri, song.uri, some song⟩

end Setup

/-- A run over the table, before it comes to some songs: their files are there, each
    reached directly and at a place of its own, and so are those of the songs that it has
    jobs for. -/
structure Coming (s : Setup) (t : FileTree) (b : Books) (songs : List Song) : Prop where
  wellFormed : b.files.WellFormed
  workingDir : b.files.workingDir = t.workingDir
  target : b.target = none
  jobs : ∀ job ∈ b.jobs, ∃ song, job.existing = some song ∧ job.path = resolve s.musicDir song.uri
  primary : ∃ primary, b.primary = some primary ∧ ∀ source ∈ b.source, ∃ visit,
    source = .table visit ∧ visit.order = .byId ∧ 0 < visit.pageSize ∧
      visit.rest primary.table = songs ∧
      ∀ song ∈ b.pending ++ visit.page, ∃ id, song.id = some id ∧ id ≤ visit.cursor.id
  ended : b.source = none → songs = []
  leads : ∀ song ∈ b.pending ++ songs, t.Leads (resolve s.musicDir song.uri)
  there : ∀ song ∈ b.pending ++ songs, b.files.HasFile (s.place t song.uri)
  distinct : ((b.pending ++ songs).map fun song => s.place t song.uri).Nodup

namespace Coming

variable {t : FileTree} {songs : List Song} {song : Song}

/-- The file of a song is found. -/
theorem find (h : Coming s t b songs) (hsong : song ∈ b.pending ++ songs) :
    ∃ content, b.files.find (resolve s.musicDir song.uri) =
      .ok (s.place t song.uri, .file content) := by
  have hplace : b.files.destination (resolve s.musicDir song.uri) = s.place t song.uri :=
    FileTree.destination_congr h.workingDir _
  obtain ⟨content, hget⟩ := h.there song hsong
  have hleads := (FileTree.leads_congr h.workingDir).2 (h.leads song hsong)
  have hfind := h.wellFormed.find_of_leads hleads (hplace.symm ▸ hget)
  exact ⟨content, hplace ▸ hfind⟩

/-- The songs of a page are behind where it ends, and so are those before it. -/
theorem behind {visit visit' : SongTable.Visit} {table : SongTable} {old : List Song}
    (horder : visit.order = .byId) (hnext : visit.next table = (some song, visit'))
    (hbehind : ∀ x ∈ old ++ visit.page, ∃ id, x.id = some id ∧ id ≤ visit.cursor.id) :
    ∀ x ∈ old ++ song :: visit'.page, ∃ id, x.id = some id ∧ id ≤ visit'.cursor.id := by
  obtain ⟨-, ⟨hpage, hcursor⟩ | ⟨hempty, rows, hpage, -, hrows⟩⟩ :=
    SongTable.Visit.next_byId horder hnext
  · rwa [hpage, hcursor]
  · rw [hpage]
    have hlater : visit.cursor.id < visit'.cursor.id := by
      have hmem : song ∈ rows.map Row.song := by simp [← hpage]
      obtain ⟨row, hrow, -⟩ := List.mem_map.1 hmem
      exact Int64.lt_of_lt_of_le (hrows row hrow).2.1 (hrows row hrow).2.2
    intro x hx
    rcases List.mem_append.1 hx with hx | hx
    · obtain ⟨id, hid, hle⟩ := hbehind x (List.mem_append_left _ hx)
      exact ⟨id, hid, Int64.le_of_lt (Int64.lt_of_le_of_lt hle hlater)⟩
    · obtain ⟨row, hrow, rfl⟩ := List.mem_map.1 hx
      exact ⟨row.id, rfl, (hrows row hrow).2.2⟩

/-- A song is looked at: it is passed over, or there will be a job for it. -/
theorem look {visit visit' : SongTable.Visit} {primary : OpenTable} (h : Coming s t b songs)
    (hsource : b.source = some (.table visit)) (hprimary : b.primary = some primary)
    (hnext : visit.next primary.table = (some song, visit')) (isThere : Bool) :
    songs = song :: visit'.rest primary.table ∧
      Coming s t { b with
        source := some (.table visit')
        jobs := b.jobs ++ (s.verdict (s.ofSong song) isThere (some song)).job.toList }
        (visit'.rest primary.table) := by
  obtain ⟨primary', hprimary', hvisit⟩ := h.primary
  obtain rfl := Option.some.inj (hprimary.symm.trans hprimary')
  obtain ⟨visit, hsame, horder, hsize, hrest, hbehind⟩ := hvisit _ hsource
  cases hsame
  obtain ⟨hsongs, horder', hsize'⟩ := SongTable.Visit.rest_of_next hnext
  have hsplit := hrest.symm.trans hsongs
  have hbehind' := behind horder hnext hbehind
  refine ⟨hsplit, ?_⟩
  subst hsplit
  -- The song gets a job, or not.
  generalize hjob : (s.verdict (s.ofSong song) isThere (some song)).job = given
  have hpending : ∀ rest : List Song,
      (b.pending ++ (given.toList.filterMap Job.existing ++ rest)).Sublist
        (b.pending ++ song :: rest) := by
    intro rest
    refine List.Sublist.append_left ?_ b.pending
    cases given with
    | none => exact List.sublist_cons_self song rest
    | some job =>
      obtain ⟨-, -, hexisting⟩ := Setup.job_of_verdict hjob
      simp [hexisting]
  have hnew : ∀ rest : List Song, (Books.pending { b with
        source := some (.table visit'), jobs := b.jobs ++ given.toList } ++ rest) =
      b.pending ++ (given.toList.filterMap Job.existing ++ rest) := by
    simp [Books.pending]
  refine ⟨h.wellFormed, h.workingDir, h.target, ?_, ⟨primary, hprimary, ?_⟩, by simp, ?_, ?_, ?_⟩
  · intro job hmem
    rcases List.mem_append.1 hmem with hold | hadded
    · exact h.jobs job hold
    · obtain ⟨hpath, -, hexisting⟩ := Setup.job_of_verdict (hjob.trans (by simpa using hadded))
      exact ⟨song, hexisting, hpath⟩
  · rintro _ ⟨⟩
    refine ⟨visit', rfl, horder'.trans horder, hsize' ▸ hsize, rfl, fun x hx => hbehind' x ?_⟩
    exact (hpending _).subset (hnew _ ▸ hx)
  · exact fun x hx => h.leads x ((hpending _).subset (hnew _ ▸ hx))
  · exact fun x hx => h.there x ((hpending _).subset (hnew _ ▸ hx))
  · rw [hnew]
    exact h.distinct.sublist ((hpending _).map _)

/-- There are no more songs. -/
theorem exhausted (h : Coming s t b songs) (hend : Books.Exhausted b) : songs = [] := by
  obtain ⟨primary, hprimary, hvisit⟩ := h.primary
  cases hend with
  | none hsource => exact h.ended hsource
  | files hsource =>
    obtain ⟨_, hsame, -⟩ := hvisit _ hsource
    cases hsame
  | table hsource hprimary' hnext =>
    obtain rfl := Option.some.inj (hprimary.symm.trans hprimary')
    obtain ⟨_, hsame, -, hsize, hrest, -⟩ := hvisit _ hsource
    cases hsame
    rw [← hrest, SongTable.Visit.rest_of_end hsize hnext]

theorem stop (h : Coming s t b []) : Coming s t { b with source := none } [] := by
  obtain ⟨primary, hprimary, -⟩ := h.primary
  exact ⟨h.wellFormed, h.workingDir, h.target, h.jobs, ⟨primary, hprimary, by simp⟩, fun _ => rfl,
    h.leads, h.there, h.distinct⟩

/-- A job works on its own song alone. -/
theorem work (hmode : s.mode ≠ .rebuild) (h : Coming s t b songs) (hjobs : b.jobs = job :: jobs)
    (hworks : Books.Works s w { b with jobs } job b') : Coming s t b' songs := by
  obtain ⟨song, hexisting, hpath⟩ := h.jobs job (by simp [hjobs])
  have hpending : b.pending = song :: Books.pending { b with jobs } := by
    simp [Books.pending, hjobs, hexisting]
  have hahead : song ∈ b.pending ++ songs := by simp [hpending]
  obtain ⟨content, hfind⟩ := h.find hahead
  have hrewrites := hworks.rewrites (b := { b with jobs }) h.wellFormed h.target hmode
    hexisting (hpath ▸ hfind)
  have hnew : b'.pending = Books.pending { b with jobs } := by
    rw [Books.pending, hrewrites.kept.1]
    rfl
  have hlater : ∀ rest : List Song, ∀ x ∈ b'.pending ++ rest, x ∈ b.pending ++ rest := by
    intro rest x hx
    rw [hpending, List.cons_append, ← hnew]
    exact List.mem_cons_of_mem _ hx
  -- The songs to come have other files than the one of the job, so theirs are still there.
  have hdistinct := h.distinct
  rw [hpending, List.cons_append, List.map_cons, List.nodup_cons, ← hnew] at hdistinct
  obtain ⟨primary, hprimary, hvisit⟩ := h.primary
  obtain ⟨table, hprimary', htable⟩ := hrewrites.primary primary hprimary
  refine ⟨hrewrites.wellFormed, hrewrites.workingDir.trans h.workingDir, hrewrites.target, ?_,
    ⟨_, hprimary', ?_⟩, ?_, ?_, ?_, hdistinct.2⟩
  · intro job' hjob'
    rw [hrewrites.kept.1] at hjob'
    exact h.jobs job' (hjobs ▸ List.mem_cons_of_mem _ hjob')
  · intro source hsource
    rw [hrewrites.kept.2] at hsource
    obtain ⟨visit, rfl, horder, hsize, hrest, hbehind⟩ := hvisit source hsource
    refine ⟨visit, rfl, horder, hsize, ?_, fun x hx => hbehind x (hlater _ x hx)⟩
    rcases htable with rfl | ⟨song', how, hid, hsave⟩
    · exact hrest
    · obtain ⟨id, hid', hle⟩ := hbehind song (by simp [hpending])
      exact (SongTable.Visit.rest_save? horder (hid.trans hid') hle hsave).trans hrest
  · rw [hrewrites.kept.2]
    exact h.ended
  · exact fun x hx => h.leads x (hlater _ x hx)
  · intro x hx
    refine hrewrites.others _ ?_ (h.there x (hlater _ x hx))
    intro hsame
    exact hdistinct.1 (List.mem_map.2 ⟨x, hx, hsame⟩)

end Coming

/-- **A run over the table looks at each song as it was**, and its file is there, whatever
    has become of the songs before. -/
theorem byId_foreseen (hmode : s.mode ≠ .rebuild)
    (hcompact : ∀ checkNew, s.mode ≠ .compact checkNew) (t : FileTree) :
    Foreseen s w (fun c => s.verdict c true c.record)
      fun rest b => ∃ songs, rest = songs.map s.ofSong ∧ Coming s t b songs where
  look := by
    rintro rest b c source ⟨songs, rfl, hcoming⟩ htakes
    cases htakes with
    | file hsource =>
      obtain ⟨_, _, hvisit⟩ := hcoming.primary
      obtain ⟨_, hsame, -⟩ := hvisit _ hsource
      cases hsame
    | @visited visit visit' primary song hsource hprimary hnext =>
      obtain ⟨hsplit, hnext'⟩ := hcoming.look hsource hprimary hnext true
      refine ⟨(visit'.rest primary.table).map s.ofSong, by rw [hsplit]; rfl,
        ⟨primary, hprimary, ?_⟩, _, rfl, hnext'⟩
      have hahead : song ∈ b.pending ++ songs := by simp [hsplit]
      obtain ⟨content, hfind⟩ := hcoming.find hahead
      have hthere : b.files.pathExists (resolve s.musicDir song.uri) = true := by
        rw [FileTree.pathExists, hfind]
        rfl
      rw [hthere, Setup.recordIn, if_neg hmode]
      rfl
  copy _ hcopy _ := by
    rw [Setup.copy_verdict hcompact] at hcopy
    cases hcopy
  exhaust := by
    rintro rest b ⟨songs, rfl, hcoming⟩ hend
    obtain rfl := hcoming.exhausted hend
    exact ⟨rfl, [], rfl, hcoming.stop⟩
  ended := by
    rintro rest b ⟨songs, rfl, hcoming⟩ hsource
    rw [hcoming.ended hsource]
    rfl
  work := by
    rintro rest b b' job jobs ⟨songs, rfl, hcoming⟩ hjobs hworks
    exact ⟨songs, rfl, hcoming.work hmode hjobs hworks⟩

end Reconcile

end SongLibrary
