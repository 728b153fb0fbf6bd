/-
  Runs that go through files and record them.

  `Recording` is the invariant: every row of the table that the run writes has the id and
  the location of a record that there was, or points to a file of its own, which is none
  to come; and no two rows have a location in common.
-/
import SongLibrary.Proofs.Reconcile.Addressed

namespace SongLibrary.Reconcile

open SongTable (OwnLocations)

/-- A location that no record had, of a file that is none to come. -/
structure IsNew (s : Setup) (files : FileTree) (b : Books) (uri : String) : Prop where
  file : b.files.HasFile (s.place files uri)
  apart : ∀ p ∈ b.ahead, s.place files uri ≠ files.destination p
  unknown : ∀ old ∈ s.known files, uri ≠ old.uri

/-- The table that the run writes has records that there were and new ones, at locations
    of their own. -/
structure Recording (s : Setup) (files : FileTree) (b : Books) : Prop extends Kept s files b where
  source : ∀ visit, b.source ≠ some (.table visit)
  jobs : ∀ job ∈ b.jobs, job.existing = none ∧ job.key = keyOf s.musicDir job.path ∧
    ∀ old ∈ s.known files, job.key ≠ old.uri
  distinct : (b.ahead.map files.destination).Nodup
  ahead : ∀ p ∈ b.ahead, Sought s files p ∧ b.files.HasFile (files.destination p)
  library : ∀ t ∈ b.primary, (∀ old ∈ s.known files, ∃ row ∈ t.table.rows, row.uri = old.uri) ∧
    (s.mode ≠ .checkNew → t.table.rows = s.rows files)
  rows : ∀ t ∈ b.live, ∀ row ∈ t.table.rows, IsKnown s files row ∨ IsNew s files b row.uri
  unique : ∀ t ∈ b.live, OwnLocations t.table.rows

variable {s : Setup} {w : Services} {files : FileTree} {b b' : Books}

theorem IsNew.mono {uri : String} (h : IsNew s files b uri) (hfiles : b'.files = b.files)
    (hahead : b'.ahead ⊆ b.ahead) : IsNew s files b' uri :=
  ⟨hfiles ▸ h.file, fun p hp => h.apart p (hahead hp), h.unknown⟩

/-- The modes that go through files. -/
theorem Mode.cases_of_fileTree {mode : Mode} (h : mode.origin = .fileTree) :
    mode = .rebuild ∨ mode = .checkNew ∨ mode = .compact true := by
  rcases mode with _ | _ | ⟨_ | _⟩ | _ | _ | _ | _ <;> simp_all [origin]

namespace Recording

theorem begin {source : Option Source} (ha : s.Addressed files) (hmode : s.mode.origin = .fileTree)
    (h : b.Ready s files) (hs : Books.Begins s b source) : Recording s files { b with source } := by
  have hkept : Kept s files { b with source } := (Kept.of_ready h).congr rfl rfl rfl rfl
  obtain ⟨primary, hprimary, hrows, -⟩ := h.primary
  have hlibrary : ∀ t ∈ b.primary,
      (∀ old ∈ s.known files, ∃ row ∈ t.table.rows, row.uri = old.uri) ∧
        (s.mode ≠ .checkNew → t.table.rows = s.rows files) := by
    intro t ht
    obtain rfl := Option.some.inj (hprimary.symm.trans ht)
    exact ⟨fun old hold => ⟨old, hrows ▸ Setup.mem_of_mem_known hold, rfl⟩, fun _ => hrows⟩
  -- A new table is empty, so the rows at the beginning are those of the library.
  have hlive : ∀ t ∈ b.live, ∀ row ∈ t.table.rows, IsKnown s files row := by
    intro t ht row hrow
    obtain ⟨hold, hd⟩ := h.mem_live ha.leftover ht hrow
    have hne : s.mode ≠ .rebuild := fun heq => hd (by rw [heq]; rfl)
    exact ⟨row, by simpa [Setup.known, hne] using hold, rfl, rfl⟩
  have hahead : Books.ahead { b with source } = Books.paths { b with source } := by
    simp [Books.ahead, h.jobs]
  have hunique : ∀ t ∈ b.live, OwnLocations t.table.rows := fun t ht row hrow row' hrow' =>
    ha.id_eq (hlive t ht row hrow) (hlive t ht row' hrow')
  refine ⟨hkept, ?_, by simp [h.jobs], ?_, ?_, hlibrary, fun t ht row hrow => .inl (hlive t ht row hrow),
    hunique⟩
  · rintro visit rfl
    cases hs with
    | table htable _ =>
      rw [hmode] at htable
      cases htable
  · rw [hahead]
    cases hs with
    | files _ => exact h.nodup_walk ha.listed
    | _ => exact List.nodup_nil
  · rw [hahead]
    intro p hp
    cases hs with
    | files _ => exact h.sought ha.listed hp
    | _ => cases hp

/-- Fewer files may be to come. -/
theorem fewer {source : Option Source} (h : Recording s files b)
    (hsource : ∀ visit, source ≠ some (.table visit))
    (hsub : (Books.ahead { b with source }).Sublist b.ahead) :
    Recording s files { b with source } :=
  ⟨h.toKept.congr rfl rfl rfl rfl, hsource, h.jobs, h.distinct.sublist (hsub.map _),
    fun p hp => h.ahead p (hsub.subset hp), h.library,
    fun t ht row hrow => (h.rows t ht row hrow).imp_right (·.mono rfl hsub.subset), h.unique⟩

theorem stop (h : Recording s files b) : Recording s files { b with source := none } :=
  h.fewer (by simp) (by simp [Books.ahead, Books.paths])

/-- A record may be copied. -/
theorem copies {old : Row} {target : OpenTable} {id : Int64} {table : SongTable}
    (ha : s.Addressed files) (h : Recording s files b) (hold : old ∈ s.known files)
    (hsome : b.target = some target) (hinsert : target.table.insert? old.song = some (id, table)) :
    Recording s files { b with target := some { target with table } } := by
  have hlive : target ∈ b.live := by simp [Books.live, hsome]
  have hid : old.id = id := SongTable.id_of_insert? hinsert rfl
  have hrows : ∀ row ∈ table.rows, (row.id = id ∧ row.uri = old.uri) ∨ row ∈ target.table.rows := by
    intro row hrow
    rcases List.mem_cons.1 ((SongTable.perm_of_insert? hinsert).subset hrow) with rfl | hrow
    · exact .inl ⟨rfl, rfl⟩
    · exact .inr hrow
  refine ⟨h.toKept.congr rfl rfl rfl (by simp [hsome]), h.source, h.jobs, h.distinct, h.ahead,
    h.library, ?_, ?_⟩
  · intro t ht row hrow
    obtain rfl : { target with table } = t := by simpa [Books.live] using ht
    rcases hrows row hrow with ⟨hrowid, huri⟩ | hrow
    · exact .inl ⟨old, hold, hrowid.trans hid.symm, huri⟩
    · exact (h.rows target hlive row hrow).imp_right (·.mono rfl (List.Subset.refl _))
  · intro t ht
    obtain rfl : { target with table } = t := by simpa [Books.live] using ht
    refine (h.unique target hlive).added hrows fun row hrow huri => ?_
    rcases h.rows target hlive row hrow with hrow | hnew
    · exact (ha.id_eq hrow ⟨old, hold, rfl, rfl⟩ huri).trans hid
    · exact absurd huri (hnew.unknown old hold)

/-- The next file is passed over, its record is copied, or there will be a job for it. -/
theorem settles {c : Candidate} {source : Source} (ha : s.Addressed files)
    (hmode : s.mode.origin = .fileTree) (h : Recording s files b) (ht : Books.Takes s b c source)
    (hs : Books.Settles s { b with source := some source } c b') : Recording s files b' := by
  cases ht with
  | visited hsource _ _ => exact absurd hsource (h.source _)
  | @file path paths hsource =>
    obtain ⟨hsub, hqueued⟩ := Books.ahead_files hsource
    have h₀ : Recording s files { b with source := some (.files paths) } := h.fewer (by simp) hsub
    have hkept := h₀.toKept.settles hs
    cases hs with
    | idle => exact h₀
    | @copied song target id table hcompact hrecord hsome hinsert =>
      obtain ⟨checkNew, hcompact⟩ := hcompact
      -- The song that is copied is that of a record.
      obtain ⟨primary, hprimary, hat⟩ := hrecord.resolve_left (by simp) |>.2
      obtain ⟨old, hold, rfl, -⟩ := SongTable.songAt?_eq_some_iff.1 hat
      rw [(h.library primary hprimary).2 (by simp [hcompact])] at hold
      exact h₀.copies ha (by simpa [Setup.known, hcompact] using hold) hsome hinsert
    | queuedNew relative hrecord =>
      have hsame := hqueued (keyOf s.musicDir path) relative none
      refine ⟨hkept, by simp, fun job hjob => ?_, hsame ▸ h.distinct, hsame ▸ h.ahead, h.library,
        fun t ht row hrow => (h.rows t ht row hrow).imp_right (·.mono rfl (hsame ▸ List.Subset.refl _)),
        h.unique⟩
      rcases List.mem_append.1 hjob with hjob | hjob
      · exact h.jobs job hjob
      · rw [List.mem_singleton.1 hjob]
        refine ⟨rfl, rfl, fun old hold hkey => ?_⟩
        rcases hrecord with hrebuild | ⟨-, hnone⟩
        · simp [Setup.known, hrebuild] at hold
        · obtain ⟨primary, hprimary, -⟩ := Option.map_eq_some_iff.1 h.primary
          obtain ⟨row, hrow, huri⟩ := (h.library primary hprimary).1 old hold
          exact SongTable.songAt?_eq_none_iff.1 (hnone primary hprimary) row hrow (huri.trans hkey.symm)
    | queuedOld _ _ hother =>
      rcases Mode.cases_of_fileTree hmode with heq | heq | heq
      · exact absurd heq hother.1
      · exact absurd heq hother.2.1
      · exact absurd heq (hother.2.2 true)

/-- A song may be stored that is at a new location, where no row is. -/
theorem stores {song : Song} (hmode : s.mode.origin = .fileTree) (h : Recording s files b)
    (hnew : IsNew s files b song.uri)
    (hfresh : ∀ t ∈ b.live, ∀ row ∈ t.table.rows, row.uri ≠ song.uri)
    (hid : b.target = none → song.id = none) (hs : Books.Stores b song b') :
    Recording s files b' := by
  have hkept := h.toKept.stores hs
  obtain ⟨hfiles, hjobs, hsource⟩ := hs.keeps
  have hsame := hs.ahead
  have hmono : ∀ {uri : String}, IsNew s files b uri → IsNew s files b' uri := fun hnew =>
    hnew.mono hfiles (hsame ▸ List.Subset.refl _)
  refine ⟨hkept, hsource ▸ h.source, hjobs ▸ h.jobs, hsame ▸ h.distinct, ?_, ?_, ?_, ?_⟩
  · rw [hsame, hfiles]
    exact h.ahead
  · cases hs with
    | refused _ => exact h.library
    | added _ _ _ => exact h.library
    | @saved primary table how hnone hsome hsave =>
      -- Only where new files are checked is a song saved in the table of the library.
      have hcheckNew : s.mode = .checkNew := by
        have hd : ¬ s.mode.isDestructive := fun hd => by simpa [hnone, hd] using h.target
        rcases Mode.cases_of_fileTree hmode with heq | heq | heq
        · exact absurd (by rw [heq]; rfl) hd
        · exact heq
        · exact absurd (by rw [heq]; rfl) hd
      intro t ht
      cases ht
      refine ⟨fun old hold => ?_, absurd hcheckNew⟩
      obtain ⟨row, hrow, huri⟩ := (h.library primary hsome).1 old hold
      rcases SongTable.save?_cases hsave with ⟨given, hgiven, -⟩ | ⟨given, -, hperm⟩
      · rw [hid hnone] at hgiven
        cases hgiven
      · exact ⟨row, hperm.symm.subset (List.mem_cons_of_mem _ hrow), huri⟩
  · intro t ht row hrow
    rcases hs.mem_live ht hrow with huri | ⟨t₀, ht₀, hold⟩
    · exact .inr (huri ▸ hmono hnew)
    · exact (h.rows t₀ ht₀ row hold).imp_right hmono
  · intro t ht
    rcases hs.table_cases with rfl | ⟨old, new, id, hrows, ⟨hsome, rfl⟩ | ⟨hnone, hsome, rfl, -⟩⟩
    · exact h.unique t ht
    · obtain rfl : new = t := by simpa [Books.live] using ht
      have hlive : old ∈ b.live := by simp [Books.live, hsome]
      exact (h.unique old hlive).added hrows fun row hrow huri =>
        absurd huri (hfresh old hlive row hrow)
    · obtain rfl : new = t := by simpa [Books.live, hnone] using ht
      have hlive : old ∈ b.live := by simp [Books.live, hnone, hsome]
      exact (h.unique old hlive).added hrows fun row hrow huri =>
        absurd huri (hfresh old hlive row hrow)

/-- A file that no new record points to may be moved. -/
theorem shifted {l k : Location} (h : Recording s files b) (hkept : Kept s files b')
    (hs : Shifted s files b b' l k)
    (hrows : ∀ t ∈ b.live, ∀ row ∈ t.table.rows, IsNew s files b row.uri →
      s.place files row.uri ≠ l)
    (hahead : ∀ p ∈ b.ahead, files.destination p ≠ l) : Recording s files b' := by
  have hlive := hs.live
  have hsame := hs.ahead
  refine ⟨hkept, hs.source ▸ h.source, hs.jobs ▸ h.jobs, hsame ▸ h.distinct, ?_,
    hs.primary ▸ h.library, ?_, hlive ▸ h.unique⟩
  · rw [hsame]
    intro p hp
    obtain ⟨hsought, hfile⟩ := h.ahead p hp
    exact ⟨hsought, hs.hasFile_of_ne hfile (hahead p hp)⟩
  · rw [hlive]
    intro t ht row hrow
    refine (h.rows t ht row hrow).imp_right fun hnew => ?_
    exact ⟨hs.hasFile_of_ne hnew.file (hrows t ht row hrow hnew), hsame ▸ hnew.apart, hnew.unknown⟩

/-- A file stays where no record is, or is moved there. -/
theorem unknown_moved {song song' : Song} {path : Path} (ha : ∀ move ∈ b'.moves, s.Avoids files move)
    (hallows : s.mode.allowsMoves) (hm : Books.Moves s b song path (song', b'))
    (hsong : ∀ old ∈ s.known files, song.uri ≠ old.uri) :
    song'.id = song.id ∧ ∀ old ∈ s.known files, song'.uri ≠ old.uri := by
  rcases hm.cases_uri with ⟨rfl, -⟩ | ⟨relative, rfl, hmove⟩
  · exact ⟨rfl, hsong⟩
  · refine ⟨rfl, fun old hold huri => ?_⟩
    have hcheckNew : s.mode = .checkNew :=
      (Mode.rebuild_or_checkNew hallows).resolve_left fun heq => by simp [Setup.known, heq] at hold
    refine (ha (path, resolve s.musicDir relative) (by simp [hmove])).taken old hold (.inl hcheckNew) ?_
    rw [← show relative = old.uri from huri]
    rfl

/-- A job is taken from the queue: its file is none to come then. -/
theorem taken {job : Job} {jobs : List Job} (h : Recording s files b) (hjobs : b.jobs = job :: jobs) :
    Recording s files { b with jobs } ∧ ∀ p ∈ Books.ahead { b with jobs },
      files.destination p ≠ files.destination job.path := by
  have hsub : Books.ahead { b with jobs } ⊆ b.ahead := fun p hp =>
    Books.ahead_jobs hjobs ▸ List.mem_cons_of_mem _ hp
  obtain ⟨hdistinct, hother⟩ := Books.nodup_ahead_jobs hjobs h.distinct
  exact ⟨⟨h.toKept.congr rfl rfl rfl rfl, h.source,
    fun other hother => h.jobs other (hjobs ▸ List.mem_cons_of_mem _ hother), hdistinct,
    fun p hp => h.ahead p (hsub hp), h.library,
    fun t ht row hrow => (h.rows t ht row hrow).imp_right (·.mono rfl hsub), h.unique⟩, hother⟩

/-- Doing a job adds a record at a location where none is. -/
theorem works {job : Job} {jobs : List Job} (hw : w.Reliable) (ha : s.Addressed files)
    (hmode : s.mode.origin = .fileTree) (h : Recording s files b) (hjobs : b.jobs = job :: jobs)
    (hworks : Books.Works s w { b with jobs } job b')
    (havoids : ∀ move ∈ b'.moves, s.Avoids files move) : Recording s files b' := by
  have hahead := Books.ahead_jobs hjobs
  obtain ⟨h₀, hother⟩ := h.taken hjobs
  cases hworks with
  | idle => exact h₀
  | written hwrite _ _ _ =>
    rw [hwrite] at hmode
    cases hmode
  | tracks htracks _ _ _ =>
    rw [htracks] at hmode
    cases hmode
  | reorganized hreorganize _ _ _ =>
    rw [hreorganize] at hmode
    cases hmode
  | @read content n tags song song' b₁ _ _ hread htags huri hmoves hstores hid =>
    obtain ⟨hexisting, hkey, hunknown⟩ := h.jobs job (by simp [hjobs])
    obtain ⟨l, hfind⟩ := FileTree.read_eq_ok_iff.1 hread
    have hl : l = files.destination job.path := h₀.toKept.destination_of_find hfind
    have hapart : l ∉ s.tablePlaces files := h₀.toKept.not_tablePlace hw hfind htags
    -- The key of the file leads back to where it was found.
    have hplace : s.place files song.uri = l := by
      have hsought : Sought s files job.path := (h.ahead _ (by simp [hahead])).1
      rw [huri, hkey, hl]
      exact ha.place_keyOf (hsought.resolve_right (hl ▸ hapart))
    have hstored : Books.Stores b₁ song' b' :=
      hstores.resolve_left fun hsame => by simp [hexisting] at hsame
    rw [hstored.moves] at havoids
    obtain ⟨hkept, k, hshifted, hfollowed⟩ := h₀.toKept.moves_or_stays hfind hapart hmoves
      fun move hmove => (havoids move hmove).leads
    have hsong : song'.id = song.id ∧ ∀ old ∈ s.known files, song'.uri ≠ old.uri := by
      have hsong : ∀ old ∈ s.known files, song.uri ≠ old.uri := huri ▸ hunknown
      rcases hmoves with ⟨hallows, hmoves⟩ | ⟨rfl, -⟩
      · exact unknown_moved havoids hallows hmoves hsong
      · exact ⟨rfl, hsong⟩
    have hk : k = s.place files song'.uri := hfollowed.place_eq hplace
    have hnot : ∀ {uri : String}, IsNew s files b uri → s.place files uri ≠ l := fun hnew =>
      hl ▸ hnew.apart _ (by simp [hahead])
    have h₁ : Recording s files b₁ := by
      refine h₀.shifted hkept hshifted (fun t ht row hrow hnew => ?_) (hl ▸ hother)
      rcases h.rows t ht row hrow with ⟨old, hold, -, hsame⟩ | hnew'
      · exact absurd hsame (hnew.unknown old hold)
      · exact hnot hnew'
    refine h₁.stores hmode ⟨?_, fun p hp => ?_, hsong.2⟩ (fun t ht row hrow huri' => ?_)
      (fun hnone => ?_) hstored
    · rw [← hk]
      exact (hshifted.hasFile k).2 (.inl rfl)
    · rw [hshifted.ahead] at hp
      rw [← hk]
      exact (hshifted.place_ne (h₀.ahead p hp).2 (hl ▸ hother p hp)).symm
    · rw [hshifted.live] at ht
      rcases h.rows t ht row hrow with ⟨old, hold, -, hsame⟩ | hnew
      · exact hsong.2 old hold (huri'.symm.trans hsame)
      · refine hshifted.place_ne hnew.file (hnot hnew) ?_
        rw [hk, huri']
    · rw [hsong.1, hid ?_, hexisting]
      · rfl
      · rintro hrebuild
        have htarget := hkept.target
        rw [hnone, hrebuild] at htarget
        cases htarget

/-- **A run that goes through files records them at locations of their own**, as long as
    its moves avoid the places of records. -/
theorem invariant (hw : w.Reliable) (ha : s.Addressed files) (hmode : s.mode.origin = .fileTree) :
    Books.Invariant s w files fun b =>
      (∀ move ∈ b.moves, s.Avoids files move) → Recording s files b :=
  .avoiding (begin ha hmode) stop (settles ha hmode)
    fun h hjobs hworks havoids => h.works hw ha hmode hjobs hworks havoids

end Recording

end SongLibrary.Reconcile
