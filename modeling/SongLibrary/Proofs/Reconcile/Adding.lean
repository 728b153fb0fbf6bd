/-
  Runs that add files, and may move them.

  `Adding` is the invariant: every record in the table that the run writes points to
  a file, and the files still to come are others, each there and at its own place.
-/
import SongLibrary.Proofs.Reconcile.Places

namespace SongLibrary.Reconcile

/-- Every record points to a file, and none to a file to come, but for files that the
    table is still to be asked for. -/
structure Adding (s : Setup) (files : FileTree) (b : Books) : Prop extends Kept s files b where
  source : ∀ visit, b.source ≠ some (.table visit)
  rows : ∀ t ∈ b.live, ∀ row ∈ t.table.rows, Backed s files b.files row.uri
  jobs : ∀ job ∈ b.jobs, job.existing = none ∧ job.key = keyOf s.musicDir job.path
  distinct : (b.ahead.map files.destination).Nodup
  ahead : ∀ p ∈ b.ahead, Sought s files p ∧ b.files.HasFile (files.destination p)
  apart : ∀ t ∈ b.live, ∀ row ∈ t.table.rows, ∀ job ∈ b.jobs,
    s.place files row.uri ≠ files.destination job.path
  keyed : ∀ t ∈ b.live, ∀ row ∈ t.table.rows, ∀ p ∈ b.paths,
    s.place files row.uri = files.destination p →
      s.mode = .checkNew ∧ row.uri = keyOf s.musicDir p

variable {s : Setup} {w : Services} {files : FileTree} {b b' : Books}

/-- A record that a library had points to a file to come by the key of that file. -/
theorem Books.Ready.keyed {row : Row} {p : Path} (h : b.Ready s files) (ho : s.Orderly files)
    (hrow : row ∈ s.rows files) (hp : p ∈ b.files.walk s.root)
    (hplace : s.place files row.uri = files.destination p) : row.uri = keyOf s.musicDir p := by
  have hapart := (h.backed ho hrow).apart
  rw [hplace] at hapart
  have hscanned := (h.sought ho.listed hp).1.resolve_right hapart
  obtain ⟨q, hq, huri⟩ := ho.found row hrow
  have hsame : files.destination q = files.destination p := by
    rw [← hplace, huri, (ho.leads q hq).2]
  rw [huri, ho.same q hq p hscanned hsame]

namespace Adding

theorem begin {source : Option Source} (ho : s.Orderly files) (hmode : s.mode.allowsMoves)
    (h : b.Ready s files) (hs : Books.Begins s b source) : Adding s files { b with source } := by
  have hkept : Kept s files { b with source } := (Kept.of_ready h).congr rfl rfl rfl rfl
  have horigin : s.mode.origin = .fileTree := by
    rcases Mode.rebuild_or_checkNew hmode with heq | heq <;> rw [heq] <;> rfl
  have hlive : ∀ t ∈ b.live, ∀ row ∈ t.table.rows, row ∈ s.rows files ∧ s.mode = .checkNew := by
    intro t ht row hrow
    obtain ⟨hold, hd⟩ := h.mem_live ho.leftover ht hrow
    exact ⟨hold, (Mode.rebuild_or_checkNew hmode).resolve_left fun heq => hd (by rw [heq]; rfl)⟩
  have hbacked : ∀ t ∈ b.live, ∀ row ∈ t.table.rows, Backed s files b.files row.uri :=
    fun t ht row hrow => h.backed ho (hlive t ht row hrow).1
  have hahead : Books.ahead { b with source } = Books.paths { b with source } := by
    simp [Books.ahead, h.jobs]
  cases hs with
  | stopped =>
    exact ⟨hkept, by simp, hbacked, by simp [h.jobs], by simp [hahead, Books.paths],
      by simp [hahead, Books.paths], by simp [h.jobs], by simp [Books.paths]⟩
  | files _ =>
    refine ⟨hkept, by simp, hbacked, by simp [h.jobs], ?_, ?_, by simp [h.jobs], ?_⟩
    · rw [hahead]
      exact h.nodup_walk ho.listed
    · rw [hahead]
      exact fun p hp => h.sought ho.listed hp
    · intro t ht row hrow p hp hplace
      obtain ⟨hold, hcheckNew⟩ := hlive t ht row hrow
      exact ⟨hcheckNew, h.keyed ho hold hp hplace⟩
  | table htable _ =>
    rw [horigin] at htable
    cases htable

theorem stop (h : Adding s files b) : Adding s files { b with source := none } := by
  have hsub : (Books.ahead { b with source := none }).Sublist b.ahead := by
    simp [Books.ahead, Books.paths]
  exact ⟨h.toKept.congr rfl rfl rfl rfl, by simp, h.rows, h.jobs, h.distinct.sublist (hsub.map _),
    fun p hp => h.ahead p (hsub.subset hp), h.apart, by simp [Books.paths]⟩

/-- The next candidate is passed over, or there will be a job for it. -/
theorem settles {c : Candidate} {source : Source} (hmode : s.mode.allowsMoves)
    (h : Adding s files b) (ht : Books.Takes s b c source)
    (hs : Books.Settles s { b with source := some source } c b') : Adding s files b' := by
  have hkept : Kept s files { b with source := some source } := h.toKept.congr rfl rfl rfl rfl
  cases ht with
  | visited hsource _ _ => exact absurd hsource (h.source _)
  | @file path paths hsource =>
    have hpaths : b.paths = path :: paths := by simp [Books.paths, hsource]
    obtain ⟨hsub, hqueued⟩ := Books.ahead_files hsource
    have hsource' : ∀ visit, some (Source.files paths) ≠ some (.table visit) := by simp
    have hkeyed : ∀ t ∈ b.live, ∀ row ∈ t.table.rows, ∀ p ∈ paths,
        s.place files row.uri = files.destination p →
          s.mode = .checkNew ∧ row.uri = keyOf s.musicDir p := by
      intro t ht row hrow p hp
      exact h.keyed t ht row hrow p (hpaths ▸ List.mem_cons_of_mem _ hp)
    cases hs with
    | idle =>
      exact ⟨hkept, hsource', h.rows, h.jobs, h.distinct.sublist (hsub.map _),
        fun p hp => h.ahead p (hsub.subset hp), h.apart, hkeyed⟩
    | copied hcompact _ _ _ =>
      obtain ⟨checkNew, hcompact⟩ := hcompact
      rw [hcompact] at hmode
      cases hmode
    | queuedNew relative hrecord =>
      have hsame := hqueued (keyOf s.musicDir path) relative none
      refine ⟨hkept.congr rfl rfl rfl rfl, hsource', h.rows, ?_, ?_, ?_,
        ?_, hkeyed⟩
      · intro job hjob
        rcases List.mem_append.1 hjob with hjob | hjob
        · exact h.jobs job hjob
        · rw [List.mem_singleton.1 hjob]
          exact ⟨rfl, rfl⟩
      · rw [hsame]
        exact h.distinct
      · rw [hsame]
        exact h.ahead
      · intro t ht row hrow job hjob
        rcases List.mem_append.1 hjob with hjob | hjob
        · exact h.apart t ht row hrow job hjob
        · rw [List.mem_singleton.1 hjob]
          intro hplace
          -- A record at the place of the file would be the one at its key, and there is none.
          obtain ⟨hcheckNew, huri⟩ := h.keyed t ht row hrow path (by simp [hpaths]) hplace
          obtain ⟨-, hnone⟩ := hrecord.resolve_left (by simp [hcheckNew])
          have htarget : b.target = none := by
            simpa [hcheckNew, Mode.isDestructive] using h.target
          have hprimary : b.primary = some t := by simpa [Books.live, htarget] using ht
          have hsong := hnone t hprimary
          simp only [SongTable.songAt?, Option.map_eq_none_iff, List.find?_eq_none] at hsong
          exact hsong row hrow (by simp [huri])
    | queuedOld _ _ hother =>
      rcases Mode.rebuild_or_checkNew hmode with heq | heq
      · exact absurd heq hother.1
      · exact absurd heq hother.2.1

/-- A song may be stored that points to a file, and to none to come. -/
theorem stores {song : Song} (h : Adding s files b) (hb : Backed s files b.files song.uri)
    (hahead : ∀ p ∈ b.ahead, s.place files song.uri ≠ files.destination p)
    (hs : Books.Stores b song b') : Adding s files b' := by
  have hkept := h.toKept.stores hs
  obtain ⟨hfiles, hjobs, hsource⟩ := hs.keeps
  have hpaths : b'.paths = b.paths := by rw [Books.paths, Books.paths, hsource]
  have hsame := hs.ahead
  refine ⟨hkept, hsource ▸ h.source, ?_, hjobs ▸ h.jobs, hsame ▸ h.distinct, ?_, ?_, ?_⟩
  · intro t ht row hrow
    rw [hfiles]
    rcases hs.mem_live ht hrow with huri | ⟨t₀, ht₀, hold⟩
    · exact huri ▸ hb
    · exact h.rows t₀ ht₀ row hold
  · rw [hsame, hfiles]
    exact h.ahead
  · intro t ht row hrow job hjob
    rw [hjobs] at hjob
    rcases hs.mem_live ht hrow with huri | ⟨t₀, ht₀, hold⟩
    · rw [huri]
      exact hahead _ (List.mem_append_left _ (List.mem_map_of_mem hjob))
    · exact h.apart t₀ ht₀ row hold job hjob
  · intro t ht row hrow p hp hplace
    rw [hpaths] at hp
    rcases hs.mem_live ht hrow with huri | ⟨t₀, ht₀, hold⟩
    · rw [huri] at hplace
      exact absurd hplace (hahead p (List.mem_append_right _ hp))
    · exact h.keyed t₀ ht₀ row hold p hp hplace

/-- A file may be moved that no record points to and that is none to come. -/
theorem shifted {l k : Location} (h : Adding s files b) (hkept : Kept s files b')
    (hs : Shifted s files b b' l k)
    (hrows : ∀ t ∈ b.live, ∀ row ∈ t.table.rows, s.place files row.uri ≠ l)
    (hahead : ∀ p ∈ b.ahead, files.destination p ≠ l) : Adding s files b' := by
  have hlive := hs.live
  have hpaths : b'.paths = b.paths := by rw [Books.paths, Books.paths, hs.source]
  have hsame := hs.ahead
  refine ⟨hkept, hs.source ▸ h.source, ?_, hs.jobs ▸ h.jobs, hsame ▸ h.distinct, ?_, ?_, ?_⟩
  · rw [hlive]
    exact fun t ht row hrow => hs.backed (h.rows t ht row hrow) (hrows t ht row hrow)
  · rw [hsame]
    intro p hp
    obtain ⟨hsought, hfile⟩ := h.ahead p hp
    exact ⟨hsought, hs.hasFile_of_ne hfile (hahead p hp)⟩
  · rw [hlive, hs.jobs]
    exact h.apart
  · rw [hlive, hpaths]
    exact h.keyed

/-- A job is taken from the queue: its file is none to come then. -/
theorem taken {job : Job} {jobs : List Job} (h : Adding s files b) (hjobs : b.jobs = job :: jobs) :
    Adding s files { b with jobs } ∧ ∀ p ∈ Books.ahead { b with jobs },
      files.destination p ≠ files.destination job.path := by
  have hrest : ∀ other ∈ jobs, other ∈ b.jobs := fun other hother =>
    hjobs ▸ List.mem_cons_of_mem _ hother
  obtain ⟨hdistinct, hother⟩ := Books.nodup_ahead_jobs hjobs h.distinct
  exact ⟨⟨h.toKept.congr rfl rfl rfl rfl, h.source, h.rows,
    fun other ho => h.jobs other (hrest other ho), hdistinct,
    fun p hp => h.ahead p (Books.ahead_jobs hjobs ▸ List.mem_cons_of_mem _ hp),
    fun t ht row hrow other ho => h.apart t ht row hrow other (hrest other ho), h.keyed⟩, hother⟩

/-- Doing a job adds a record that points to the file, wherever that has moved. -/
theorem works {job : Job} {jobs : List Job} (hw : w.Reliable) (ho : s.Orderly files)
    (hmode : s.mode.allowsMoves) (h : Adding s files b) (hjobs : b.jobs = job :: jobs)
    (hworks : Books.Works s w { b with jobs } job b') (hd : b'.Direct files) :
    Adding s files b' := by
  have hahead := Books.ahead_jobs hjobs
  have hjob : job ∈ b.jobs := by simp [hjobs]
  obtain ⟨h₀, hother⟩ := h.taken hjobs
  cases hworks with
  | idle => exact h₀
  | written hwrite _ _ _ =>
    rw [hwrite] at hmode
    cases hmode
  | tracks htracks _ _ _ =>
    rw [htracks] at hmode
    cases hmode
  | reorganized hreorganize _ _ _ =>
    rw [hreorganize] at hmode
    cases hmode
  | @read content n tags song song' b₁ _ _ hread htags huri hmoves hstores =>
    obtain ⟨hexisting, hkey⟩ := h.jobs job hjob
    obtain ⟨l, hfind⟩ := FileTree.read_eq_ok_iff.1 hread
    have hl : l = files.destination job.path := h₀.toKept.destination_of_find hfind
    have hapart : l ∉ s.tablePlaces files := h₀.toKept.not_tablePlace hw hfind htags
    have hsought : Sought s files job.path := (h.ahead _ (by simp [hahead])).1
    obtain ⟨hbacked, hplace⟩ := h₀.toKept.backed_key hw ho hsought hread htags
    rw [hkey] at huri
    rw [← huri] at hbacked hplace
    have hdirect : b₁.Direct files := by
      rcases hstores with ⟨-, rfl⟩ | hstores
      · exact hd
      · rw [Books.Direct, ← hstores.moves]
        exact hd
    obtain ⟨hkept, k, hshifted, hfollowed⟩ :=
      h₀.toKept.moves_or_stays hfind hapart hmoves hdirect
    -- The record points to where the file is now.
    have hk : k = s.place files song'.uri := hfollowed.place_eq (hplace.trans hl.symm)
    have h₁ : Adding s files b₁ := by
      refine h₀.shifted hkept hshifted ?_ ?_
      · intro t ht row hrow
        rw [hl]
        exact h.apart t ht row hrow job hjob
      · rw [hl]
        exact hother
    rcases hstores with ⟨hsome, -⟩ | hstores
    · rw [hexisting] at hsome
      cases hsome
    · refine h₁.stores ⟨hfollowed.leads hbacked.leads, ?_, ?_⟩ ?_ hstores
      · rw [← hk]
        exact (hshifted.hasFile k).2 (.inl rfl)
      · rw [← hk]
        exact hshifted.apart
      · intro p hp
        rw [hshifted.ahead] at hp
        rw [← hk]
        exact (hshifted.place_ne (h₀.ahead p hp).2 (hl ▸ hother p hp)).symm

/-- **A run that adds files keeps records pointing to files.** -/
theorem invariant (hw : w.Reliable) (ho : s.Orderly files) (hmode : s.mode.allowsMoves) :
    Books.Invariant s w files (Adding s files) where
  begin := begin ho hmode
  stop := stop
  settle := settles hmode
  work h hjobs hworks hd := h.works hw ho hmode hjobs hworks hd

end Adding

end SongLibrary.Reconcile
