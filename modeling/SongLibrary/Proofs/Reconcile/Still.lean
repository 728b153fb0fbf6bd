/-
  Runs that move no files.

  `Still` is the invariant: every record in a table, on the page at hand or in a job
  points to a file, and so does every key.
-/
import SongLibrary.Proofs.Reconcile.Places

namespace SongLibrary.Reconcile

/-- No file has moved, and every record points to one. -/
structure Still (s : Setup) (files : FileTree) (b : Books) : Prop extends Kept s files b where
  moves : b.moves = []
  rows : ∀ t, b.primary = some t ∨ b.target = some t →
    ∀ row ∈ t.table.rows, Backed s files b.files row.uri
  existing : ∀ job ∈ b.jobs, ∀ song ∈ job.existing, Backed s files b.files song.uri
  keys : ∀ job ∈ b.jobs, Backed s files b.files job.key ∨
    job.key = keyOf s.musicDir job.path ∧ Sought s files job.path
  paths : ∀ p ∈ b.paths, Sought s files p
  page : ∀ song ∈ b.page, Backed s files b.files song.uri

/-- A candidate is known: its record points to a file, and so does its key, if the
    file has tags. -/
structure Known (s : Setup) (files t : FileTree) (c : Candidate) : Prop where
  record : ∀ song ∈ c.record, Backed s files t song.uri
  key : Backed s files t c.key ∨ c.key = keyOf s.musicDir c.path ∧ Sought s files c.path

variable {s : Setup} {w : Services} {files : FileTree} {b b' : Books}

namespace Still

theorem begin {source : Option Source} (ho : s.Orderly files) (h : b.Ready s files)
    (hs : Books.Begins s b source) : Still s files { b with source } := by
  have hkept : Kept s files { b with source } := (Kept.of_ready h).congr rfl rfl rfl rfl
  refine ⟨hkept, h.moves, ?_, ?_, ?_, ?_, ?_⟩
  · rintro t (ht | ht) row hrow
    · obtain ⟨primary, hprimary, hrows, -⟩ := h.primary
      obtain rfl : primary = t := Option.some.inj (hprimary.symm.trans ht)
      rw [hrows] at hrow
      exact h.backed ho hrow
    · rw [h.target_rows ho.leftover ht] at hrow
      cases hrow
  · simp [h.jobs]
  · simp [h.jobs]
  · intro p hp
    cases hs with
    | files _ => exact (h.sought ho.listed hp).1
    | _ => cases hp
  · intro song hsong
    cases hs <;> cases hsong

theorem stores {song : Song} (h : Still s files b) (hb : Backed s files b.files song.uri)
    (hs : Books.Stores b song b') : Still s files b' := by
  have hkept := h.toKept.stores hs
  rcases hs.table_cases with rfl | ⟨old, new, _, hrows, ⟨hsome, rfl⟩ | ⟨-, hsome, rfl, -⟩⟩
  · exact h
  · refine ⟨hkept, h.moves, ?_, h.existing, h.keys, h.paths, h.page⟩
    rintro t (ht | ht) row hrow
    · exact h.rows t (.inl ht) row hrow
    · cases ht
      rcases hrows row hrow with ⟨-, huri⟩ | hold
      · exact huri ▸ hb
      · exact h.rows old (.inr hsome) row hold
  · refine ⟨hkept, h.moves, ?_, h.existing, h.keys, h.paths, h.page⟩
    rintro t (ht | ht) row hrow
    · cases ht
      rcases hrows row hrow with ⟨-, huri⟩ | hold
      · exact huri ▸ hb
      · exact h.rows old (.inl hsome) row hold
    · exact h.rows t (.inr ht) row hrow

/-- The next candidate is known, and those after it stay so. -/
theorem takes {c : Candidate} {source : Source} (h : Still s files b)
    (ht : Books.Takes s b c source) :
    Still s files { b with source := some source } ∧ Known s files b.files c := by
  have hkept : Kept s files { b with source := some source } := h.toKept.congr rfl rfl rfl rfl
  cases ht with
  | @file path paths hsource =>
    have hpaths : ∀ p ∈ path :: paths, Sought s files p := by
      intro p hp
      exact h.paths p (by simpa [Books.paths, hsource] using hp)
    refine ⟨⟨hkept, h.moves, h.rows, h.existing, h.keys,
      fun p hp => hpaths p (List.mem_cons_of_mem _ hp), ?_⟩,
      ⟨by simp, .inr ⟨rfl, hpaths path (List.mem_cons_self ..)⟩⟩⟩
    intro song hsong
    cases hsong
  | @visited visit visit' primary song hsource hprimary hnext =>
    have hsongs : ∀ x ∈ song :: visit'.page, Backed s files b.files x.uri := by
      intro x hx
      rcases SongTable.Visit.mem_of_next hnext hx with hpage | ⟨row, hrow, rfl⟩
      · exact h.page x (by simpa [Books.page, hsource] using hpage)
      · exact h.rows primary (.inl hprimary) row hrow
    have hsong := hsongs song (List.mem_cons_self ..)
    refine ⟨⟨hkept, h.moves, h.rows, h.existing, h.keys, ?_,
      fun x hx => hsongs x (List.mem_cons_of_mem _ hx)⟩, ⟨?_, .inl hsong⟩⟩
    · intro p hp
      cases hp
    · intro x hx
      cases hx
      exact hsong

/-- The record of a known candidate points to a file. -/
theorem backed_record {c : Candidate} {song : Song} (h : Still s files b)
    (hc : Known s files b.files c) (hr : b.IsRecordOf c song) : Backed s files b.files song.uri := by
  rcases hr with hown | ⟨-, primary, hprimary, hsong⟩
  · exact hc.record song hown
  · obtain ⟨row, hrow, rfl⟩ := Option.map_eq_some_iff.1 hsong
    exact h.rows primary (.inl hprimary) row (List.mem_of_find?_eq_some hrow)

theorem settles {c : Candidate} (h : Still s files b) (hc : Known s files b.files c)
    (hs : Books.Settles s b c b') : Still s files b' := by
  have hkept := h.toKept.settles hs
  cases hs with
  | idle => exact h
  | @copied song target id table _ hrecord hsome hinsert =>
    exact h.stores (h.backed_record hc hrecord) (.added song.id hsome hinsert)
  | queuedNew relative _ =>
    refine ⟨hkept, h.moves, h.rows, ?_, ?_, h.paths, h.page⟩
    · intro job hjob
      rcases List.mem_append.1 hjob with hjob | hjob
      · exact h.existing job hjob
      · rw [List.mem_singleton.1 hjob]
        simp
    · intro job hjob
      rcases List.mem_append.1 hjob with hjob | hjob
      · exact h.keys job hjob
      · rw [List.mem_singleton.1 hjob]
        exact hc.key
  | @queuedOld song relative hrecord _ =>
    refine ⟨hkept, h.moves, h.rows, ?_, ?_, h.paths, h.page⟩
    · intro job hjob
      rcases List.mem_append.1 hjob with hjob | hjob
      · exact h.existing job hjob
      · rw [List.mem_singleton.1 hjob]
        intro x hx
        cases hx
        exact h.backed_record hc hrecord
    · intro job hjob
      rcases List.mem_append.1 hjob with hjob | hjob
      · exact h.keys job hjob
      · rw [List.mem_singleton.1 hjob]
        exact hc.key

/-- Doing a job keeps records pointing to files. -/
theorem works {job : Job} {jobs : List Job} (hw : w.Reliable) (ho : s.Orderly files)
    (hmoves : s.mode.allowsMoves = false) (hmode : s.mode ≠ .reorganize) (h : Still s files b)
    (hjobs : b.jobs = job :: jobs) (hworks : Books.Works s w { b with jobs } job b') :
    Still s files b' := by
  have hjob : job ∈ b.jobs := by simp [hjobs]
  have hrest : ∀ other ∈ jobs, other ∈ b.jobs := by
    intro other hother
    rw [hjobs]
    exact List.mem_cons_of_mem _ hother
  have h₀ : Still s files { b with jobs } :=
    ⟨h.toKept.congr rfl rfl rfl rfl, h.moves, h.rows,
      fun other hother => h.existing other (hrest other hother),
      fun other hother => h.keys other (hrest other hother), h.paths, h.page⟩
  -- No job moves a file here: it writes one in its place, or stores its song at its key.
  cases hworks with
  | idle => exact h₀
  | written _ hread htags hwrite =>
    obtain ⟨hkept, hsame⟩ := h₀.toKept.written hw hread htags hwrite
    have hbacked : ∀ {uri : String}, Backed s files b.files uri → Backed s files _ uri :=
      fun hb => ⟨hb.leads, (hsame _).2 hb.file, hb.apart⟩
    exact ⟨hkept, h₀.moves, fun t ht row hrow => hbacked (h₀.rows t ht row hrow),
      fun other hother song hsong => hbacked (h₀.existing other hother song hsong),
      fun other hother => (h₀.keys other hother).imp_left hbacked, h₀.paths,
      fun song hsong => hbacked (h₀.page song hsong)⟩
  | tracks _ hexisting huri hstores =>
    have hb := h.existing job hjob _ hexisting
    exact h₀.stores (huri ▸ hb) hstores
  | read _ hread htags huri hmoved hstores =>
    obtain ⟨rfl, rfl⟩ := hmoved.resolve_left (by simp [hmoves])
    rcases hstores with ⟨-, rfl⟩ | hstores
    · exact h₀
    · refine h₀.stores ?_ hstores
      rw [huri]
      rcases h.keys job hjob with hb | ⟨hkey, hsought⟩
      · exact hb
      · rw [hkey]
        exact (h₀.toKept.backed_key hw ho hsought hread htags).1
  | reorganized hreorganize _ _ _ => exact absurd hreorganize hmode

/-- **A run that moves no files keeps records pointing to files.** -/
theorem invariant (hw : w.Reliable) (ho : s.Orderly files) (hmoves : s.mode.allowsMoves = false)
    (hmode : s.mode ≠ .reorganize) : Books.Invariant s w files (Still s files) where
  begin := begin ho
  stop h := ⟨h.toKept.congr rfl rfl rfl rfl, h.moves, h.rows, h.existing, h.keys,
    by simp [Books.paths], by simp [Books.page]⟩
  settle h ht hs := by
    obtain ⟨h', hknown⟩ := h.takes ht
    exact h'.settles hknown hs
  work h hjobs hworks _ := h.works hw ho hmoves hmode hjobs hworks

end Still

end SongLibrary.Reconcile
