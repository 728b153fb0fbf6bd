/-
  Runs that go through a table and move no files.

  `Fixed` is the invariant: every row of a table has the id and the location of a record
  that there was, and so has every song still to come.
-/
import SongLibrary.Proofs.Reconcile.Addressed

namespace SongLibrary.Reconcile

/-- A song with the id and the location of a record. -/
def Setup.Knows (s : Setup) (files : FileTree) (song : Song) : Prop :=
  ∃ old ∈ s.known files, song.id = some old.id ∧ song.uri = old.uri

/-- Rows and songs have the ids and locations of records that there were. -/
structure Fixed (s : Setup) (files : FileTree) (b : Books) : Prop extends Kept s files b where
  source : ∀ paths, b.source ≠ some (.files paths)
  rows : ∀ t, b.primary = some t ∨ b.target = some t → ∀ row ∈ t.table.rows, IsKnown s files row
  page : ∀ song ∈ b.page, s.Knows files song
  jobs : ∀ job ∈ b.jobs, b.target = none ∧
    ∃ song, job.existing = some song ∧ job.key = song.uri ∧ s.Knows files song

variable {s : Setup} {w : Services} {files : FileTree} {b b' : Books}

namespace Fixed

theorem begin {source : Option Source} (ha : s.Addressed files) (hmode : s.mode.origin ≠ .fileTree)
    (h : b.Ready s files) (hs : Books.Begins s b source) : Fixed s files { b with source } := by
  have hkept : Kept s files { b with source } := (Kept.of_ready h).congr rfl rfl rfl rfl
  have hne : s.mode ≠ .rebuild := by
    rintro heq
    rw [heq] at hmode
    exact hmode rfl
  refine ⟨hkept, ?_, ?_, ?_, by simp [h.jobs]⟩
  · rintro paths rfl
    cases hs with
    | files horigin => exact hmode horigin
  · rintro t (ht | ht) row hrow
    · obtain ⟨primary, hprimary, hrows, -⟩ := h.primary
      obtain rfl := Option.some.inj (hprimary.symm.trans ht)
      exact ⟨row, by simpa [Setup.known, hne] using hrows ▸ hrow, rfl, rfl⟩
    · rw [h.target_rows ha.leftover ht] at hrow
      cases hrow
  · intro song hsong
    cases hs <;> cases hsong

theorem stop (h : Fixed s files b) : Fixed s files { b with source := none } :=
  ⟨h.toKept.congr rfl rfl rfl rfl, by simp, h.rows, by simp [Books.page], h.jobs⟩

/-- The next candidate has a song that is known, or there will be a job for it. -/
theorem settles {c : Candidate} {source : Source} (hmode : s.mode ≠ .rebuild) (h : Fixed s files b)
    (ht : Books.Takes s b c source) (hs : Books.Settles s { b with source := some source } c b') :
    Fixed s files b' := by
  cases ht with
  | file hsource => exact absurd hsource (h.source _)
  | @visited visit visit' primary song hsource hprimary hnext =>
    -- The visit comes to rows of the table, and their songs are known.
    have hsongs : ∀ x ∈ song :: visit'.page, s.Knows files x := by
      intro x hx
      rcases SongTable.Visit.mem_of_next hnext hx with hpage | ⟨row, hrow, rfl⟩
      · exact h.page x (by simpa [Books.page, hsource] using hpage)
      · obtain ⟨old, hold, hid, huri⟩ := h.rows primary (.inl hprimary) row hrow
        exact ⟨old, hold, congrArg some hid, huri⟩
    have h₀ : Fixed s files { b with source := some (.table visit') } :=
      ⟨h.toKept.congr rfl rfl rfl rfl, by simp, h.rows,
        fun x hx => hsongs x (List.mem_cons_of_mem _ hx), h.jobs⟩
    have hkept := h₀.toKept.settles hs
    have hrecord : ∀ {b : Books} {x : Song},
        b.IsRecordOf ⟨resolve s.musicDir song.uri, song.uri, some song⟩ x → x = song := by
      rintro b x (hsome | ⟨hnone, -⟩)
      · exact (Option.some.inj hsome).symm
      · cases hnone
    obtain ⟨old, hold, hid, huri⟩ := hsongs song (List.mem_cons_self ..)
    cases hs with
    | idle => exact h₀
    | @copied song' target id table _ hsong hsome hinsert =>
      obtain rfl := hrecord hsong
      refine ⟨hkept, by simp, ?_, h₀.page, fun job hjob => ?_⟩
      · rintro t (ht | ht) row hrow
        · exact h.rows t (.inl ht) row hrow
        · cases ht
          rcases List.mem_cons.1 ((SongTable.perm_of_insert? hinsert).subset hrow) with rfl | hrow
          · exact ⟨old, hold, (SongTable.id_of_insert? hinsert hid).symm, huri⟩
          · exact h.rows target (.inr hsome) row hrow
      · have hnone : b.target = some target := hsome
        rw [(h.jobs job hjob).1] at hnone
        cases hnone
    | queuedNew _ hnone =>
      rcases hnone with hrebuild | ⟨hnone, -⟩
      · exact absurd hrebuild hmode
      · cases hnone
    | @queuedOld song' relative hsong hother =>
      obtain rfl := hrecord hsong
      refine ⟨hkept, by simp, h.rows, h₀.page, fun job hjob => ?_⟩
      rcases List.mem_append.1 hjob with hjob | hjob
      · exact h.jobs job hjob
      · rw [List.mem_singleton.1 hjob]
        refine ⟨?_, song', rfl, rfl, old, hold, hid, huri⟩
        have hnone := h.target
        have hd : ¬ s.mode.isDestructive := by
          obtain ⟨hrebuild, -, hcompact⟩ := hother
          cases hcase : s.mode with
          | rebuild => exact absurd hcase hrebuild
          | compact checkNew => exact absurd hcase (hcompact checkNew)
          | _ => decide
        simpa [hd] using hnone

/-- A song that is known may be stored. -/
theorem stores {song : Song} (h : Fixed s files b) (htarget : b.target = none)
    (hsong : s.Knows files song) (hs : Books.Stores b song b') : Fixed s files b' := by
  have hkept := h.toKept.stores hs
  rcases hs.table_cases with rfl | ⟨old, new, id, hrows, ⟨hsome, -⟩ | ⟨-, hsome, rfl, hid⟩⟩
  · exact h
  · rw [htarget] at hsome
    cases hsome
  · refine ⟨hkept, h.source, ?_, h.page, h.jobs⟩
    rintro t (ht | ht) row hrow
    · cases ht
      rcases hrows row hrow with ⟨hrow, huri⟩ | hold
      · obtain ⟨known, hmem, hgiven, hsame⟩ := hsong
        exact ⟨known, hmem, hrow.trans (hid _ hgiven).symm, huri.trans hsame⟩
      · exact h.rows old (.inl hsome) row hold
    · exact h.rows t (.inr ht) row hrow

/-- Doing a job stores the song with its id and its location. -/
theorem works {job : Job} {jobs : List Job} (hw : w.Reliable) (hmode : s.mode.origin ≠ .fileTree)
    (hne : s.mode ≠ .reorganize) (h : Fixed s files b) (hjobs : b.jobs = job :: jobs)
    (hworks : Books.Works s w { b with jobs } job b') : Fixed s files b' := by
  have h₀ : Fixed s files { b with jobs } :=
    ⟨h.toKept.congr rfl rfl rfl rfl, h.source, h.rows, h.page,
      fun other hother => h.jobs other (by simp [hjobs, show other ∈ jobs from hother])⟩
  obtain ⟨htarget, song₀, hexisting, hkey, hknown⟩ := h.jobs job (by simp [hjobs])
  obtain ⟨old, hold, hid₀, huri₀⟩ := hknown
  cases hworks with
  | idle => exact h₀
  | written _ hread htags hwrite =>
    exact ⟨(h₀.toKept.written hw hread htags hwrite).1, h₀.source, h₀.rows, h₀.page, h₀.jobs⟩
  | tracks _ he huri hstores hid =>
    obtain rfl := Option.some.inj (hexisting.symm.trans he)
    exact h₀.stores htarget ⟨old, hold, hid.trans hid₀, huri.trans huri₀⟩ hstores
  | read _ _ _ huri hmoves hstores hid =>
    have hallows : s.mode.allowsMoves = false := by
      cases hcase : s.mode with
      | rebuild => simp [hcase, Mode.origin] at hmode
      | checkNew => simp [hcase, Mode.origin] at hmode
      | _ => rfl
    obtain ⟨rfl, rfl⟩ := hmoves.resolve_left (by simp [hallows])
    rcases hstores with ⟨-, rfl⟩ | hstores
    · exact h₀
    · refine h₀.stores htarget ⟨old, hold, ?_, huri.trans (hkey.trans huri₀)⟩ hstores
      rw [hid fun hrebuild => hmode (by rw [hrebuild]; rfl), hexisting]
      exact hid₀
  | reorganized hreorganize _ _ _ => exact absurd hreorganize hne

/-- **A run that goes through a table and moves no files keeps ids and locations.** -/
theorem invariant (hw : w.Reliable) (ha : s.Addressed files) (hmode : s.mode.origin ≠ .fileTree)
    (hne : s.mode ≠ .reorganize) : Books.Invariant s w files (Fixed s files) where
  begin := begin ha hmode
  stop := stop
  settle := settles fun hrebuild => hmode (by rw [hrebuild]; rfl)
  work h hjobs hworks _ := h.works hw hmode hne hjobs hworks

end Fixed

end SongLibrary.Reconcile
