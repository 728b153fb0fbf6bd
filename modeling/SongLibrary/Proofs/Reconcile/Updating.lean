/-
  Runs that bring the songs of the table up to date.

  A run that reads tags again, or takes over fields of a track list, makes of a song what it
  finds (`Setup.refreshed`), and finds the same the next time (`refreshed_refreshed`).

  * `Updating` is the invariant of such a run: it has still to look at a song of the table, has
    a job for it, or there is nothing to be done about it, unless its id is not positive;
  * in the end nothing is to be done about any of them (`settled_of_run`), and another run then
    stores nothing (`nothing_updated`).
-/
import SongLibrary.Proofs.Json.RoundTrip
import SongLibrary.Proofs.Reconcile.Repeating

namespace SongLibrary

open FileTree (OnlyTables)

/-- The values of a map are for different keys. -/
theorem TagMap.pairwise_toList (m : TagMap) : m.toList.Pairwise (·.1 ≠ ·.1) := by
  have hkeys : TagKey.all.Nodup := by decide
  refine List.pairwise_filterMap.2 (hkeys.imp ?_)
  intro a b hne x hx y hy
  obtain ⟨_, -, rfl⟩ := Option.map_eq_some_iff.1 hx
  obtain ⟨_, -, rfl⟩ := Option.map_eq_some_iff.1 hy
  exact hne

theorem Song.get?_set (song : Song) (key k : TagKey) (value : String) :
    (song.set key value).get? k =
      if k = key then (some value).filter (!·.isEmpty) else song.get? k := by
  unfold get? set
  rw [TagMap.get?_set]
  split <;> rfl

namespace Reconcile

variable {s : Setup} {w : Services} {files t t' : FileTree} {r r' : Run} {primary : OpenTable}
  {song : Song}

/-! ## Fields of a track list -/

namespace Run

theorem takeOver_eq_iff {field : TagKey × String} : takeOver w song field = song ↔
    ¬ (!field.2.isEmpty && w.wants field.1 && song.get? field.1 != some field.2) := by
  unfold takeOver
  split
  · next htaken =>
    refine iff_of_false (fun heq => ?_) (not_not_intro htaken)
    simp only [Bool.and_eq_true, Bool.not_eq_true', bne_iff_ne] at htaken
    refine htaken.2 ?_
    rw [← heq, Song.get?_set, if_pos rfl]
    simp [htaken.1.1]
  · next hleft => exact iff_of_true rfl hleft

/-- Nothing is taken over again. -/
theorem takeOver_takeOver (song : Song) (field : TagKey × String) :
    takeOver w (takeOver w song field) field = takeOver w song field := by
  rw [takeOver_eq_iff]
  by_cases htaken : (!field.2.isEmpty && w.wants field.1 && song.get? field.1 != some field.2)
  · have hset : takeOver w song field = song.set field.1 field.2 := if_pos htaken
    simp only [Bool.and_eq_true, Bool.not_eq_true'] at htaken
    rw [hset, Song.get?_set, if_pos rfl]
    simp [htaken.1.1]
  · rw [takeOver_eq_iff.2 htaken]
    exact htaken

theorem get?_takeOver {field : TagKey × String} {key : TagKey} (hkey : key ≠ field.1) :
    (takeOver w song field).get? key = song.get? key := by
  unfold takeOver
  split
  · rw [Song.get?_set, if_neg hkey]
  · rfl

/-- Nothing is taken over again after other fields. -/
theorem takeOver_foldl {field : TagKey × String} {fields : List (TagKey × String)}
    (hkeys : ∀ other ∈ fields, field.1 ≠ other.1) (h : takeOver w song field = song) :
    takeOver w (fields.foldl (takeOver w) song) field = fields.foldl (takeOver w) song := by
  induction fields generalizing song with
  | nil => exact h
  | cons other rest ih =>
    obtain ⟨hkey, hrest⟩ := List.forall_mem_cons.1 hkeys
    refine ih hrest ?_
    rw [takeOver_eq_iff, get?_takeOver hkey]
    exact takeOver_eq_iff.1 h

/-- **The fields of a track list are taken over once.** -/
theorem takeOver_fields {fields : List (TagKey × String)} (hkeys : fields.Pairwise (·.1 ≠ ·.1))
    (song : Song) : fields.foldl (takeOver w) (fields.foldl (takeOver w) song) =
      fields.foldl (takeOver w) song := by
  have hfixed : ∀ field ∈ fields,
      takeOver w (fields.foldl (takeOver w) song) field = fields.foldl (takeOver w) song := by
    induction fields generalizing song with
    | nil => simp
    | cons first rest ih =>
      obtain ⟨hfirst, hrest⟩ := List.pairwise_cons.1 hkeys
      simp only [List.foldl_cons]
      exact List.forall_mem_cons.2
        ⟨takeOver_foldl hfirst (takeOver_takeOver song first), ih hrest (takeOver w song first)⟩
  generalize fields.foldl (takeOver w) song = taken at hfixed
  clear hkeys
  induction fields with
  | nil => rfl
  | cons first rest ih =>
    obtain ⟨hfirst, hrest⟩ := List.forall_mem_cons.1 hfixed
    rw [List.foldl_cons, hfirst, ih hrest]

end Run

/-! ## What a job makes of a song -/

namespace Setup

/-- What the job for a song of the table makes of it: the song with the tags of its file, or
    with the fields that the track list has for that. -/
def refreshed (s : Setup) (w : Services) (t : FileTree) (song : Song) : Song :=
  if s.mode = .updateItunes then
    match w.trackTags? 0 (Run.nameOf (resolve s.musicDir song.uri)) with
    | none => song
    | some fields => fields.toList.foldl (Run.takeOver w) song
  else
    match w.tagsIn? t (resolve s.musicDir song.uri) with
    | none => song
    | some parsed =>
      if parsed.isEmpty then song
      else fillDerived s.refs s.readingTemplate (pathFrom s.root (resolve s.musicDir song.uri))
        { song with tags := parsed.tags }

/-- The job for a song of the table. -/
def songJob (s : Setup) (song : Song) : Job :=
  ⟨resolve s.musicDir song.uri, song.uri, pathFrom s.root (resolve s.musicDir song.uri), some song⟩

/-- Nothing is to be done about a song of the table: it has no job, or that leaves it as it
    is. -/
def IsSettled (s : Setup) (w : Services) (t : FileTree) (song : Song) : Prop :=
  (s.verdict (s.ofSong song) (t.pathExists (resolve s.musicDir song.uri)) (some song)).job = none ∨
    s.refreshed w t song = song

/-- A job changes the tags of a song, and nothing else. -/
theorem refreshed_tags (s : Setup) (w : Services) (t : FileTree) (song : Song) :
    ∃ tags, s.refreshed w t song = { song with tags } := by
  unfold refreshed
  split
  · split
    · exact ⟨song.tags, rfl⟩
    · exact Run.takeOver_tags w _ song
  · split
    · exact ⟨song.tags, rfl⟩
    · next parsed _ =>
      split
      · exact ⟨song.tags, rfl⟩
      · obtain ⟨g, hg⟩ := onTags_fillDerived s.refs s.readingTemplate
          (pathFrom s.root (resolve s.musicDir song.uri))
        exact ⟨g parsed.tags, hg _⟩

theorem refreshed_id (s : Setup) (w : Services) (t : FileTree) (song : Song) :
    (s.refreshed w t song).id = song.id := by
  obtain ⟨tags, heq⟩ := s.refreshed_tags w t song
  rw [heq]

/-- **Doing a job again changes nothing.** -/
theorem refreshed_refreshed (s : Setup) (w : Services) (t : FileTree) (song : Song) :
    s.refreshed w t (s.refreshed w t song) = s.refreshed w t song := by
  -- Taking over fields again gives the same, and reading does not look at the tags before.
  by_cases hmode : s.mode = .updateItunes
  · have hany : ∀ song, s.refreshed w t song =
        match w.trackTags? 0 (Run.nameOf (resolve s.musicDir song.uri)) with
        | none => song
        | some fields => fields.toList.foldl (Run.takeOver w) song := fun _ => if_pos hmode
    cases hfields : w.trackTags? 0 (Run.nameOf (resolve s.musicDir song.uri)) with
    | none =>
      have hsame : s.refreshed w t song = song := by rw [hany, hfields]
      rw [hsame, hsame]
    | some fields =>
      have hsame : s.refreshed w t song = fields.toList.foldl (Run.takeOver w) song := by
        rw [hany, hfields]
      obtain ⟨tags, htags⟩ := s.refreshed_tags w t song
      have huri : (s.refreshed w t song).uri = song.uri := by rw [htags]
      rw [hany (s.refreshed w t song), huri, hfields, hsame]
      exact Run.takeOver_fields fields.pairwise_toList song
  · have hany : ∀ song, s.refreshed w t song =
        match w.tagsIn? t (resolve s.musicDir song.uri) with
        | none => song
        | some parsed =>
          if parsed.isEmpty then song
          else fillDerived s.refs s.readingTemplate (pathFrom s.root (resolve s.musicDir song.uri))
            { song with tags := parsed.tags } := fun _ => if_neg hmode
    cases hparsed : w.tagsIn? t (resolve s.musicDir song.uri) with
    | none =>
      have hsame : s.refreshed w t song = song := by rw [hany, hparsed]
      rw [hsame, hsame]
    | some parsed =>
      by_cases hempty : parsed.isEmpty
      · have hsame : s.refreshed w t song = song := by rw [hany, hparsed]; exact if_pos hempty
        rw [hsame, hsame]
      · obtain ⟨g, hg⟩ := onTags_fillDerived s.refs s.readingTemplate
          (pathFrom s.root (resolve s.musicDir song.uri))
        have hsame : ∀ tags, s.refreshed w t { song with tags } =
            { song with tags := g parsed.tags } := by
          intro tags
          rw [hany, hparsed]
          exact (if_neg hempty).trans (hg _)
        rw [show s.refreshed w t song = _ from hsame song.tags, hsame]

/-- A job makes the same of a song where only tables have changed. -/
theorem refreshed_congr (hw : w.Reliable) (hwf : t.WellFormed) (hwf' : t'.WellFormed)
    (h : OnlyTables t t') (song : Song) : s.refreshed w t' song = s.refreshed w t song := by
  simp only [refreshed, hw.tagsIn?_congr hwf hwf' h]

theorem IsSettled.congr (hw : w.Reliable) (hwf : t.WellFormed) (hwf' : t'.WellFormed)
    (h : OnlyTables t t') (hsettled : s.IsSettled w t song) : s.IsSettled w t' song := by
  unfold IsSettled at hsettled ⊢
  rwa [h.pathExists hwf hwf', refreshed_congr hw hwf hwf' h]

end Setup

/-- What looking at a song of the table comes to is the job for it, or nothing. -/
theorem songJob_of_verdict {isThere : Bool} {job : Job}
    (h : (s.verdict (s.ofSong song) isThere (some song)).job = some job) : job = s.songJob song :=
  Setup.eq_of_verdict h

namespace Run

/-- **The job for a song of the table stores it anew**, if there is something new. -/
theorem perform_refreshes (hw : w.Steady) (hmode : s.mode = .updateTags ∨ s.mode = .updateItunes)
    (r : Run) (song : Song) :
    s.refreshed w r.files song = song ∧ Unstored r (r.perform s w (s.songJob song)) ∧
        (r.perform s w (s.songJob song)).files = r.files ∨
      s.refreshed w r.files song ≠ song ∧ ∃ moment, r.perform s w (s.songJob song) =
        ({ r with moment }.store w (s.refreshed w r.files song) true).count .processed := by
  have hmoment : ∀ moment, Unstored r { r with moment } := fun _ => ⟨rfl, rfl, fun _ _ => rfl⟩
  have hprocessed : ∀ moment, Unstored r ({ r with moment }.count .processed) := fun moment =>
    (hmoment moment).count .processed (by decide)
  -- A song is stored just if what is read or taken over makes it another one.
  rcases hmode with hmode | hmode
  · have hperform : r.perform s w (s.songJob song) = r.updateFromFile s w (s.songJob song) := by
      simp only [perform, hmode]
    obtain ⟨moment, hread⟩ := r.readTags_eq hw (s.songJob song).path
    have hskip : Unstored r ({ r with moment }.skip .noTags) :=
      ((hmoment moment).count .noTags (by decide)).count .skipped (by decide)
    have hrefreshed : s.refreshed w r.files song = match w.tagsIn? r.files (s.songJob song).path with
        | none => song
        | some parsed =>
          if parsed.isEmpty then song
          else fillDerived s.refs s.readingTemplate (s.songJob song).relative
            { song with tags := parsed.tags } := if_neg (by simp [hmode])
    rw [hperform, updateFromFile, hread, hrefreshed]
    cases w.tagsIn? r.files (s.songJob song).path with
    | none => exact .inl ⟨rfl, hskip, rfl⟩
    | some parsed =>
      dsimp only
      by_cases hempty : parsed.isEmpty
      · rw [if_pos hempty, if_pos hempty]
        exact .inl ⟨rfl, hskip, rfl⟩
      · have hmoves : (s.autoOrganize && s.mode.allowsMoves) = false := by simp [hmode, Mode.allowsMoves]
        rw [if_neg hempty, if_neg hempty, if_neg (show ¬ s.mode = .rebuild by simp [hmode]), hmoves]
        have hrecord : recordFor w { r with moment } (s.songJob song) (s.songJob song).existing =
            (song, { r with moment }) := rfl
        simp only [hrecord, Bool.false_eq_true, if_false]
        generalize fillDerived s.refs s.readingTemplate (s.songJob song).relative
          { song with tags := parsed.tags } = filled
        by_cases hsame : filled = song
        · rw [if_pos (show (s.songJob song).existing = some filled by rw [hsame]; rfl)]
          exact .inl ⟨hsame, hprocessed moment, rfl⟩
        · rw [if_neg fun heq : (s.songJob song).existing = some filled =>
            hsame (Option.some.inj heq).symm]
          exact .inr ⟨hsame, moment, rfl⟩
  · have hperform : r.perform s w (s.songJob song) = r.updateFromTracks w (s.songJob song) := by
      simp only [perform, hmode]
    have hrefreshed : s.refreshed w r.files song =
        match w.trackTags? 0 (nameOf (s.songJob song).path) with
        | none => song
        | some fields => fields.toList.foldl (takeOver w) song := if_pos hmode
    rw [hperform, hrefreshed, ← hw.tracks r.moment 0]
    unfold updateFromTracks
    dsimp only [Setup.songJob]
    cases w.trackTags? r.moment (nameOf (resolve s.musicDir song.uri)) with
    | none => exact .inl ⟨rfl, hprocessed (r.moment + 1), rfl⟩
    | some fields =>
      dsimp only
      by_cases hsame : fields.toList.foldl (takeOver w) song = song
      · rw [if_pos hsame]
        exact .inl ⟨hsame, hprocessed (r.moment + 1), rfl⟩
      · rw [if_neg hsame]
        exact .inr ⟨hsame, r.moment + 1, rfl⟩

/-- A song that has a row in the table of the library is stored there. -/
theorem store_row {id : Int64} (hw : w.Sound) (htarget : r.target = none)
    (hprimary : r.primary = some primary) (hid : song.id = some id)
    (hhas : ∃ row ∈ primary.table.rows, row.id = id) :
    ∃ how table, primary.table.save? song = some (how, table) ∧
      r.store w song true =
        ({ r with primary := some { primary with table }, moment := r.moment + 1 }).count .updated := by
  obtain ⟨⟨how, table⟩, hsave⟩ := Option.isSome_iff_exists.1 (SongTable.save?_isSome hid hhas)
  refine ⟨how, table, hsave, ?_⟩
  simp [store, storeIn, saveToPrimary, hw.tableFails, htarget, hprimary, hsave, asked]

end Run

/-! ## The course of a run -/

/-- What holds of a run that brings songs up to date: it waits to do the jobs of some songs, and
    is to come to others.  These are in the table as they were, and about all others there with
    a positive id nothing is to be done. -/
structure Updating (s : Setup) (w : Services) (files : FileTree) (r : Run) (primary : OpenTable)
    (waiting coming : List Song) : Prop where
  opened : r.primary = some primary
  location : primary.location = files.tableFile? s.databasePath
  target : r.target = none
  tree : r.files = s.opened files
  jobs : r.queue.toList = waiting.map s.songJob
  source : ∀ source ∈ r.source, ∃ visit, source = .table visit ∧ visit.order = .byId ∧
    0 < visit.pageSize ∧ visit.rest primary.table = coming ∧
    ∀ song ∈ waiting ++ visit.page, ∃ id, song.id = some id ∧ id ≤ visit.cursor.id
  ended : r.source = none → coming = []
  current : ∀ song ∈ waiting ++ coming, ∃ row ∈ primary.table.rows, row.song = song
  distinct : ((waiting ++ coming).map Song.id).Nodup
  settled : ∀ row ∈ primary.table.rows, 0 < row.id →
    row.song ∈ waiting ++ coming ∨ s.IsSettled w (s.opened files) row.song

namespace Updating

variable {waiting coming : List Song}

theorem exhaust (h : Updating s w files r primary waiting coming)
    (hnext : r.nextCandidate s w = (r', .ok none)) :
    Updating s w files { r' with source := none } primary waiting [] := by
  obtain ⟨⟨source, moment, rfl⟩, rfl⟩ :
      (∃ source moment, r' = { r with source, moment }) ∧ coming = [] := by
    unfold Run.nextCandidate at hnext
    split at hnext
    · next hsource =>
      cases hnext
      exact ⟨⟨r.source, r.moment, rfl⟩, h.ended hsource⟩
    · next hsource =>
      obtain ⟨_, hvisit, -⟩ := h.source _ hsource
      cases hvisit
    · cases hnext
    · next visit hsource =>
      obtain ⟨_, ⟨⟩, -, hsize, hrest, -⟩ := h.source _ hsource
      split at hnext
      · cases hnext
      · rw [h.opened] at hnext
        dsimp only at hnext
        split at hnext
        · next hvisit =>
          refine ⟨?_, hrest ▸ SongTable.Visit.rest_of_end hsize hvisit⟩
          split at hnext <;> cases hnext <;> exact ⟨_, _, rfl⟩
        · cases hnext
  exact ⟨h.opened, h.location, h.target, h.tree, h.jobs, by simp, fun _ => rfl, h.current,
    h.distinct, h.settled⟩

/-- The next song, which is looked at. -/
theorem next {c : Candidate} (h : Updating s w files r primary waiting coming)
    (hnext : r.nextCandidate s w = (r', .ok (some c))) :
    ∃ song rest, coming = song :: rest ∧ c = s.ofSong song ∧ ∃ visit moment,
      r' = { r with source := some (.table visit), moment } ∧ visit.order = .byId ∧
      0 < visit.pageSize ∧ visit.rest primary.table = rest ∧
      ∀ x ∈ waiting ++ song :: visit.page, ∃ id, x.id = some id ∧ id ≤ visit.cursor.id := by
  unfold Run.nextCandidate at hnext
  split at hnext
  · cases hnext
  · cases hnext
  · next hsource =>
    obtain ⟨_, hvisit, -⟩ := h.source _ hsource
    cases hvisit
  · next visit hsource =>
    obtain ⟨_, ⟨⟩, horder, hsize, hrest, hbehind⟩ := h.source _ hsource
    split at hnext
    · cases hnext
    · rw [h.opened] at hnext
      dsimp only at hnext
      split at hnext
      · cases hnext
      · next song visit' hvisit =>
        obtain ⟨hsongs, horder', hsize'⟩ := SongTable.Visit.rest_of_next hvisit
        refine ⟨song, visit'.rest primary.table, hrest.symm.trans hsongs, ?_⟩
        split at hnext <;> cases hnext <;>
          exact ⟨rfl, visit', _, rfl, horder'.trans horder, hsize' ▸ hsize, rfl,
            Coming.behind horder hvisit hbehind⟩

/-- A song is looked at: there will be a job for it, or nothing is to be done about it. -/
theorem look {c : Candidate} {r₁ : Run} (hw : w.Sound)
    (hmode : s.mode = .updateTags ∨ s.mode = .updateItunes)
    (h : Updating s w files r primary waiting coming) (hopen : r.queue.closed = false)
    (hnext : r.nextCandidate s w = (r₁, .ok (some c))) (hclassify : r₁.classify s w c = (r', .ok ())) :
    ∃ waiting coming, Updating s w files r' primary waiting coming := by
  have hcompact : ∀ checkNew, s.mode ≠ .compact checkNew := by
    rcases hmode with hmode | hmode <;> simp [hmode]
  obtain ⟨song, rest, rfl, rfl, visit, moment, rfl, horder, hsize, hrest, hbehind⟩ := h.next hnext
  obtain ⟨queue, counters, moment', history, hqueue, -, -, rfl⟩ :=
    Run.classify_judged (r := { r with source := some (.table visit), moment }) hw h.opened hopen
      hclassify
  have hrecord : s.recordIn (s.ofSong song) primary.table = some song := by
    rcases hmode with hmode | hmode <;> simp [Setup.recordIn, hmode, Setup.ofSong]
  rw [Setup.copy_verdict hcompact]
  rw [hrecord] at hqueue
  dsimp only at hqueue ⊢
  -- The song is passed over, and is settled then, or it waits behind the others.
  cases hjob : (s.verdict (s.ofSong song) (r.files.pathExists (s.ofSong song).path) (some song)).job with
  | none =>
    rw [hjob, Option.toList_none, List.append_nil] at hqueue
    have hsub : (waiting ++ rest).Sublist (waiting ++ song :: rest) :=
      (List.sublist_cons_self song rest).append_left waiting
    refine ⟨waiting, rest, h.opened, h.location, h.target, h.tree, hqueue.trans h.jobs, ?_, by simp,
      fun x hx => h.current x (hsub.subset hx), h.distinct.sublist (hsub.map _), fun row hrow hid => ?_⟩
    · rintro _ ⟨⟩
      refine ⟨visit, rfl, horder, hsize, hrest, fun x hx => hbehind x ?_⟩
      exact ((List.sublist_cons_self song visit.page).append_left waiting).subset hx
    · rcases h.settled row hrow hid with hmem | hsettled
      · rcases List.mem_append.1 hmem with hmem | hmem
        · exact .inl (List.mem_append_left _ hmem)
        · rcases List.mem_cons.1 hmem with heq | hmem
          · refine .inr (.inl ?_)
            rw [heq, ← h.tree]
            exact hjob
          · exact .inl (List.mem_append_right _ hmem)
      · exact .inr hsettled
  | some job =>
    rw [hjob, songJob_of_verdict hjob, h.jobs] at hqueue
    refine ⟨waiting ++ [song], rest, h.opened, h.location, h.target, h.tree, ?_, ?_, by simp, ?_, ?_, ?_⟩
    · rw [hqueue, List.map_append]
      rfl
    · rintro _ ⟨⟩
      refine ⟨visit, rfl, horder, hsize, hrest, ?_⟩
      rwa [List.append_assoc]
    · rw [List.append_assoc]
      exact h.current
    · rw [List.append_assoc]
      exact h.distinct
    · rw [List.append_assoc]
      exact h.settled

/-- Where the songs still to come are when the job for the first of them has been done. -/
theorem behind {row : Row} {rest : List Song}
    (h : Updating s w files r primary (row.song :: rest) coming) {source : Source}
    (hsource : source ∈ r.source) : ∃ visit, source = .table visit ∧ visit.order = .byId ∧
      0 < visit.pageSize ∧ visit.rest primary.table = coming ∧ row.id ≤ visit.cursor.id ∧
      ∀ x ∈ rest ++ visit.page, ∃ id, x.id = some id ∧ id ≤ visit.cursor.id := by
  obtain ⟨visit, hvisit, horder, hsize, hrest, hbehind⟩ := h.source source hsource
  obtain ⟨id, hid, hle⟩ := hbehind row.song (by simp)
  cases hid
  exact ⟨visit, hvisit, horder, hsize, hrest, hle, fun x hx => hbehind x (List.mem_cons_of_mem _ hx)⟩

/-- A job that finds nothing to do leaves the row of its song. -/
theorem work_idle {row : Row} {rest : List Song}
    (h : Updating s w files r primary (row.song :: rest) coming)
    (hprimary : r'.primary = r.primary) (htarget : r'.target = r.target) (hfiles : r'.files = r.files)
    (hsource : r'.source = r.source) (hqueue : r'.queue.toList = rest.map s.songJob)
    (hfixed : s.IsSettled w (s.opened files) row.song) :
    Updating s w files r' primary rest coming := by
  have hdistinct := h.distinct
  rw [List.cons_append, List.map_cons, List.nodup_cons] at hdistinct
  refine ⟨hprimary.trans h.opened, h.location, htarget.trans h.target, hfiles.trans h.tree, hqueue,
    fun source hmem => ?_, hsource ▸ h.ended, fun x hx => h.current x (List.mem_cons_of_mem _ hx),
    hdistinct.2, fun other hother hid => ?_⟩
  · obtain ⟨visit, hvisit, horder, hsize, hrest, -, hpage⟩ := h.behind (hsource ▸ hmem)
    exact ⟨visit, hvisit, horder, hsize, hrest, hpage⟩
  · rcases h.settled other hother hid with hmem | hsettled
    · rcases List.mem_cons.1 hmem with heq | hmem
      · exact .inr (heq ▸ hfixed)
      · exact .inl hmem
    · exact .inr hsettled

/-- A job that saves its song anew leaves the other rows, and a job would find what the row of
    its song has now. -/
theorem work_saved {row : Row} {song : Song} {rest : List Song} {how : SongTable.Saved}
    {table : SongTable} (h : Updating s w files r primary (row.song :: rest) coming)
    (hrow : row ∈ primary.table.rows) (hid : song.id = some row.id)
    (hsave : primary.table.save? song = some (how, table))
    (hprimary : r'.primary = some { primary with table }) (htarget : r'.target = r.target)
    (hfiles : r'.files = r.files) (hsource : r'.source = r.source)
    (hqueue : r'.queue.toList = rest.map s.songJob)
    (hfixed : s.IsSettled w (s.opened files) song) :
    Updating s w files r' { primary with table } rest coming := by
  have hdistinct := h.distinct
  rw [List.cons_append, List.map_cons, List.nodup_cons] at hdistinct
  have hrows := SongTable.rows_of_save? hid ⟨row, hrow, rfl⟩ hsave
  refine ⟨hprimary, h.location, htarget.trans h.target, hfiles.trans h.tree, hqueue,
    fun source hmem => ?_, hsource ▸ h.ended, fun x hx => ?_, hdistinct.2,
    fun other hother hpositive => ?_⟩
  · obtain ⟨visit, hvisit, horder, hsize, hrest, hle, hpage⟩ := h.behind (hsource ▸ hmem)
    exact ⟨visit, hvisit, horder, hsize,
      (SongTable.Visit.rest_save? horder hid hle hsave).trans hrest, hpage⟩
  · obtain ⟨other, hother, rfl⟩ := h.current x (List.mem_cons_of_mem _ hx)
    have hne : other.id ≠ row.id := fun heq =>
      hdistinct.1 (List.mem_map.2 ⟨other.song, hx, congrArg some heq⟩)
    rw [hrows]
    exact ⟨other, List.mem_map.2 ⟨other, hother, if_neg hne⟩, rfl⟩
  · rw [hrows] at hother
    obtain ⟨old, hold, rfl⟩ := List.mem_map.1 hother
    by_cases heq : old.id = row.id
    · have hsong : (SongTable.replaceRow old row.id song).song = song := by
        rw [SongTable.replaceRow, if_pos heq, Song.song_row, ← hid]
      exact .inr (hsong.symm ▸ hfixed)
    · rw [SongTable.replaceRow, if_neg heq] at hpositive ⊢
      rcases h.settled old hold hpositive with hmem | hsettled
      · rcases List.mem_cons.1 hmem with hsong | hmem
        · exact absurd (congrArg Song.id hsong) fun hids => heq (Option.some.inj hids)
        · exact .inl hmem
      · exact .inr hsettled

/-- The job for a song is done: then nothing more is to be done about it. -/
theorem work (hw : w.Steady) (hmode : s.mode = .updateTags ∨ s.mode = .updateItunes)
    (h : Updating s w files r primary waiting coming) {job : Job} {queue : Queue Job}
    (hpop : r.queue.pop? = some (job, queue))
    (hr : r' = { r with queue, history.taken := job :: r.history.taken }.perform s w job) :
    ∃ primary waiting coming, Updating s w files r' primary waiting coming := by
  have hjobs := Queue.toList_of_pop? hpop
  obtain ⟨song, rest, rfl, rfl, hleft⟩ := List.map_eq_cons_iff.1 (h.jobs.symm.trans hjobs)
  have hsame := Run.perform_kept s w
    { r with queue, history.taken := s.songJob song :: r.history.taken } (s.songJob song)
  rw [← hr] at hsame
  have hqueue : r'.queue.toList = rest.map s.songJob := by rw [hsame.queue, ← hleft]
  have hsource : r'.source = r.source := hsame.source
  have hrefreshes := Run.perform_refreshes hw hmode
    { r with queue, history.taken := s.songJob song :: r.history.taken } song
  rw [← hr] at hrefreshes
  obtain ⟨row, hrow, rfl⟩ := h.current song (by simp)
  rcases hrefreshes with ⟨hfixed, hunstored, hfiles⟩ | ⟨-, moment, heq⟩
  · exact ⟨primary, rest, coming, h.work_idle hunstored.primary hunstored.target hfiles hsource hqueue
      (.inr (h.tree ▸ hfixed))⟩
  · have hid : (s.refreshed w r.files row.song).id = some row.id :=
      (s.refreshed_id w r.files row.song).trans rfl
    obtain ⟨how, table, hsave, hstore⟩ := Run.store_row
      (r := { r with queue, history.taken := s.songJob row.song :: r.history.taken, moment })
      hw.toSound h.target h.opened hid ⟨row, hrow, rfl⟩
    rw [show r' = _ from heq.trans (congrArg (Run.count · .processed) hstore)] at hqueue hsource ⊢
    refine ⟨_, rest, coming, h.work_saved hrow hid hsave rfl rfl rfl hsource hqueue (.inr ?_)⟩
    rw [← h.tree, Setup.refreshed_refreshed]

/-- A slice of such a run. -/
theorem slice (hw : w.Steady) (hmode : s.mode = .updateTags ∨ s.mode = .updateItunes)
    (h : Updating s w files r primary waiting coming) (hslice : Run.Slice s w r r') :
    ∃ primary waiting coming, Updating s w files r' primary waiting coming := by
  cases hslice with
  | note phase reported sent =>
    exact ⟨primary, waiting, coming, h.opened, h.location, h.target, h.tree, h.jobs, h.source,
      h.ended, h.current, h.distinct, h.settled⟩
  | exhaust hopen hnext => exact ⟨primary, waiting, [], h.exhaust hnext⟩
  | look hopen hnext hclassify => exact ⟨primary, h.look hw.toSound hmode hopen hnext hclassify⟩
  | work hpop => exact h.work hw hmode hpop rfl

/-- Such a run when its table is open and it has prepared. -/
theorem begin {r₀ : Run} (hmode : s.mode = .updateTags ∨ s.mode = .updateItunes)
    (hstart : (Run.new s files).start s w = (r₀, .ok ()))
    (hprepare : r₀.prepare s w = (r, .ok ())) :
    ∃ primary waiting coming, Updating s w files r primary waiting coming := by
  have hnot : s.mode.isDestructive = false := by rcases hmode with hmode | hmode <;> rw [hmode] <;> rfl
  have horigin' : s.mode.origin = .table .byId := by
    rcases hmode with hmode | hmode <;> rw [hmode] <;> rfl
  obtain ⟨table, moment, hopened, rfl⟩ := Run.start_opens hnot hstart
  cases Run.prepare_begun rfl hprepare with
  | files horigin hid =>
    rw [horigin'] at horigin
    cases horigin
  | @table order primary nextId total moment' sent horigin hprimary hid =>
    rw [horigin'] at horigin
    cases horigin
    cases hprimary
    have hpositive : ∀ row : Row,
        SongTable.Cursor.precedes .byId {} row = true ↔ 0 < row.id := fun row => decide_eq_true_iff
    refine ⟨_, [], ((table.rows.filter (SongTable.Cursor.precedes .byId {})).map Row.song), rfl, rfl,
      rfl, rfl, rfl, ?_, by simp, ?_, ?_, ?_⟩
    · rintro _ ⟨⟩
      exact ⟨_, rfl, rfl, Nat.le_max_right _ _, SongTable.Visit.rest_visit _ _ _,
        fun song hsong => by cases hsong⟩
    · intro song hsong
      obtain ⟨row, hrow, rfl⟩ := List.mem_map.1 hsong
      exact ⟨row, (List.mem_filter.1 hrow).1, rfl⟩
    · rw [List.nil_append, List.map_map]
      refine List.pairwise_map.2 ((table.sorted.filter _).imp ?_)
      intro a b hlt heq
      exact (Int64.lt_iff_le_and_ne.1 hlt).2 (Option.some.inj heq)
    · intro row hrow hid
      exact .inl (List.mem_map.2 ⟨row, List.mem_filter.2 ⟨hrow, (hpositive row).2 hid⟩, rfl⟩)

/-- Such a run when it is to close its table. -/
theorem of_reachable (hw : w.Steady) (hmode : s.mode = .updateTags ∨ s.mode = .updateItunes)
    (h : Reachable s w files none r) (hphase : r.phase = .finish) (hstop : r.stopped = false) :
    ∃ primary, Updating s w files r primary [] [] := by
  have hworking := Run.working_of_reachable h hstop (by simp [hphase])
  obtain ⟨r₀, r₁, hstart, hprepare, hslices⟩ := hworking.slices
  obtain ⟨primary, waiting, coming, hupdating⟩ :
      ∃ primary waiting coming, Updating s w files r primary waiting coming := by
    have hbegin := begin hmode hstart hprepare
    clear hworking h hphase hstop
    induction hslices with
    | refl => exact hbegin
    | tail _ hslice ih =>
      obtain ⟨primary, waiting, coming, hupdating⟩ := ih
      exact hupdating.slice hw hmode hslice
  obtain rfl : coming = [] := hupdating.ended (hworking.seen (by simp [hphase]))
  obtain rfl : waiting = [] :=
    List.map_eq_nil_iff.1 (hupdating.jobs.symm.trans (hworking.done hphase))
  exact ⟨primary, hupdating⟩

end Updating

/-! ## What such a run leaves -/

/-- Opening a table that is in its file changes nothing. -/
theorem Setup.opened_eq (hwf : t.WellFormed)
    (h : FileTree.isFileless s.databasePath ∨ (t.tableAt? (s.library t)).isSome) : s.opened t = t := by
  have hcases := t.openTable_cases s.databasePath
  unfold opened
  generalize t.openTable s.databasePath = result at hcases ⊢
  cases hcases with
  | @created l c result hfile hparent hfree hc =>
    obtain ⟨rfl, -⟩ := hwf.tableFile?_eq hfile
    rcases h with hfileless | htable
    · simp [FileTree.tableFile?, hfileless] at hfile
    · obtain ⟨table, htable⟩ := Option.isSome_iff_exists.1 htable
      rw [FileTree.tableAt?_eq_some] at htable
      rcases hfree with hget | hget <;> cases htable.symm.trans hget
  | _ => rfl

/-- Where no file has changed since its table was opened, closing that changes tables alone. -/
theorem Run.savedFiles_onlyTables {table : SongTable} (hwf : files.WellFormed)
    (hopen : files.openTable s.databasePath = (s.opened files, some table))
    (hr : r.files = s.opened files) (hlocation : primary.location = files.tableFile? s.databasePath) :
    (r.savedFiles primary).WellFormed ∧ s.opened (r.savedFiles primary) = r.savedFiles primary ∧
      OnlyTables (s.opened files) (r.savedFiles primary) := by
  have hopened := files.openTable_cases s.databasePath
  rw [hopen] at hopened
  have hwf' := (s.opened_retabled hwf).wellFormed
  have hplace : ∀ {t}, t.workingDir = files.workingDir → s.library t = s.library files := fun hdir =>
    FileTree.destination_congr hdir _
  unfold savedFiles
  rw [hr]
  by_cases hp : FileTree.isFileless s.databasePath
  · rw [hlocation, show files.tableFile? s.databasePath = none by simp [FileTree.tableFile?, hp]]
    exact ⟨hwf', s.opened_eq hwf' (.inl hp), .refl _⟩
  · obtain ⟨l, hl, htable⟩ := (hopened.table hwf).resolve_left hp
    obtain ⟨rfl, hne⟩ := hwf.tableFile?_eq hl
    rw [hlocation, hl]
    dsimp only
    have hkept := hwf'.keepTable (files.destination s.databasePath) primary.table
    obtain ⟨-, heq⟩ := ((s.opened files).keepTable_cases (files.destination s.databasePath)
      primary.table).resolve_left fun hnone => by simp [htable] at hnone
    have hself := FileTree.tableAt?_put_self (t := s.opened files) hne primary.table
    refine ⟨hkept, s.opened_eq hkept (.inr ?_), FileTree.workingDir_keepTable _ _ _, fun m => ?_⟩
    · rw [hplace ((FileTree.workingDir_keepTable _ _ _).trans (s.opened_retabled hwf).workingDir), heq]
      exact Option.isSome_iff_exists.2 ⟨_, hself⟩
    · by_cases hm : m = files.destination s.databasePath
      · subst hm
        refine .inr ⟨Option.isSome_iff_exists.2 ⟨_, htable⟩, ?_⟩
        rw [heq]
        exact Option.isSome_iff_exists.2 ⟨_, hself⟩
      · exact .inl (FileTree.get?_keepTable_ne hne _ hm)

/-- A library in which nothing is to be done about any song whose id is positive. -/
def Setup.Settled (s : Setup) (w : Services) (t : FileTree) : Prop :=
  ∀ row ∈ s.rows t, 0 < row.id → s.IsSettled w (s.opened t) row.song

theorem Setup.Settled.idle (hw : w.Steady) (hmode : s.mode = .updateTags ∨ s.mode = .updateItunes)
    (h : s.Settled w t) : Idle s w t True := by
  intro r primary hbarren c hknown job hjob
  obtain ⟨row, hrow, hid, rfl⟩ : ∃ row ∈ s.rows t, 0 < row.id ∧ c = s.ofSong row.song := by
    obtain ⟨row, hrow, hprecedes, rfl⟩ : ∃ row ∈ s.rows t,
        SongTable.Cursor.precedes .byId {} row ∧ c = s.ofSong row.song := by
      rcases hmode with hmode | hmode <;> rw [Setup.Known, hmode] at hknown <;> exact hknown
    exact ⟨row, hrow, decide_eq_true_iff.1 hprecedes, rfl⟩
  have hrecord : s.recordIn (s.ofSong row.song) primary.table = some row.song := by
    rcases hmode with hmode | hmode <;> simp [Setup.recordIn, hmode, Setup.ofSong]
  rw [hrecord] at hjob
  obtain rfl := songJob_of_verdict hjob
  have hfixed : s.refreshed w (s.opened t) row.song = row.song := by
    refine (h row hrow hid).resolve_left fun hnone => ?_
    rw [hbarren.files trivial] at hjob
    cases hnone.symm.trans hjob
  intro r primary hbarren
  rcases r.perform_refreshes hw hmode row.song with ⟨-, hunstored, hfiles⟩ | ⟨hchanged, -⟩
  · exact hbarren.unstored hunstored fun _ => hfiles
  · rw [hbarren.files trivial] at hchanged
    exact absurd hfixed hchanged

/-- **A run brings all songs up to date** whose ids are positive. -/
theorem settled_of_run (hw : w.Steady) (hmode : s.mode = .updateTags ∨ s.mode = .updateItunes)
    (hwf : files.WellFormed) (h : Reachable s w files none r) (hphase : r.phase = .finish)
    (hstop : r.stopped = false) {o : Except Failure Run.Progress} (hs : r.step s w = (r', o)) :
    r'.files.WellFormed ∧ s.Settled w r'.files := by
  have hnot : s.mode.isDestructive = false := by rcases hmode with hmode | hmode <;> rw [hmode] <;> rfl
  obtain ⟨primary, hupdating⟩ := Updating.of_reachable hw hmode h hphase hstop
  have hworking := Run.working_of_reachable h hstop (by simp [hphase])
  obtain ⟨r₀, r₁, hstart, -, -⟩ := hworking.slices
  obtain ⟨table, moment, hopened, -⟩ := Run.start_opens hnot hstart
  -- The files that the run leaves.
  have hfiles : r'.files = r.savedFiles primary := by
    obtain ⟨moment, hfinish⟩ :=
      Run.finish_saves (s := s) (r := r) hw.toSound hupdating.target hupdating.opened
    obtain ⟨r₁, outcome, hact, hfiles, -⟩ := act_of_step hs
    obtain ⟨sent, hkeeps⟩ := Run.report_keeps (r := { r with
      source := none, primary := none, files := r.savedFiles primary, moment }) false
    rw [Run.act, hphase, hfinish, hkeeps] at hact
    rw [hfiles, ← (Prod.mk.inj hact).1]
  obtain ⟨hwf', hagain, honly⟩ :=
    Run.savedFiles_onlyTables hwf hopened hupdating.tree hupdating.location
  have hrows := (Run.rows_savedFiles hwf hopened hupdating.tree hupdating.location).1
  rw [hfiles]
  refine ⟨hwf', fun row hrow hid => ?_⟩
  rw [hagain]
  by_cases hfile : FileTree.isFileless s.databasePath
  · rw [Setup.rows, if_pos hfile] at hrow
    cases hrow
  · rw [hrows hfile] at hrow
    exact ((hupdating.settled row hrow hid).resolve_left (by simp)).congr hw.toReliable
      (s.opened_retabled hwf).wellFormed hwf' honly

/-- **A run changes nothing in a library whose songs are up to date.** -/
theorem nothing_updated (hw : w.Steady) (hmode : s.mode = .updateTags ∨ s.mode = .updateItunes)
    (hwf : t.WellFormed) (hsettled : s.Settled w t) (h : Reachable s w t none r)
    (hphase : r.phase = .finish) (hstop : r.stopped = false) :
    ∃ r', r.step s w = (r', .ok .done) ∧ r'.counters.get .new = 0 ∧ r'.counters.get .updated = 0 ∧
      s.rows r'.files = s.rows t ∧ ∀ l, l ≠ s.library t → r'.files.get? l = t.get? l := by
  have hnot : s.mode.isDestructive = false := by rcases hmode with hmode | hmode <;> rw [hmode] <;> rfl
  obtain ⟨r', hstep, hnew, hupdated, hsame⟩ :=
    (hsettled.idle hw hmode).step hw.toSound hnot hwf h hphase hstop
  exact ⟨r', hstep, hnew, hupdated, hsame trivial⟩

end Reconcile

end SongLibrary
