/-
  Runs that move every file to its place.

  `Moving` is the invariant: every record of the library points to a file of its own, or
  its file is missing as before, and the songs still to come are as the table has them,
  each once.
-/
import SongLibrary.Proofs.Reconcile.Addressed

namespace SongLibrary.Reconcile

/-- The songs still to come: those of jobs, and those of the page at hand. -/
def Books.songs (b : Books) : List Song :=
  b.jobs.filterMap Job.existing ++ b.page

/-- A library whose records point to files of their own, or to none. -/
structure Setup.Filed (s : Setup) (files : FileTree) : Prop where
  rows : ∀ row ∈ s.rows files, Backed s files files row.uri ∨
    ¬ files.HasFile (s.place files row.uri)
  distinct : ∀ row ∈ s.rows files, ∀ row' ∈ s.rows files, files.HasFile (s.place files row.uri) →
    s.place files row.uri = s.place files row'.uri → row.id = row'.id

/-- A record whose file is missing: it is as it was, and no file has come to its place. -/
structure Lost (s : Setup) (files t : FileTree) (row : Row) : Prop where
  old : ∃ old ∈ s.rows files, old.id = row.id ∧ old.uri = row.uri
  before : ¬ files.HasFile (s.place files row.uri)
  now : ¬ t.HasFile (s.place files row.uri)

/-- Every record points to a file of its own or has lost it, and the songs still to come
    are those of the table, up to where the page at hand ends. -/
structure Moving (s : Setup) (files : FileTree) (b : Books) : Prop extends Kept s files b where
  source : ∀ paths, b.source ≠ some (.files paths)
  order : ∀ visit, b.source = some (.table visit) → visit.order = .byId
  rows : ∀ t ∈ b.primary, ∀ row ∈ t.table.rows,
    Backed s files b.files row.uri ∨ Lost s files b.files row
  distinct : ∀ t ∈ b.primary, ∀ row ∈ t.table.rows, ∀ row' ∈ t.table.rows,
    b.files.HasFile (s.place files row.uri) → s.place files row.uri = s.place files row'.uri →
      row.id = row'.id
  jobs : ∀ job ∈ b.jobs, ∃ song, job.existing = some song ∧ job.path = resolve s.musicDir song.uri
  songs : ∀ song ∈ b.songs, ∀ t ∈ b.primary, ∃ row ∈ t.table.rows,
    song.id = some row.id ∧ song.uri = row.uri
  once : (b.songs.map Song.id).Nodup
  before : ∀ visit, b.source = some (.table visit) → ∀ song ∈ b.songs, ∀ id ∈ song.id,
    id ≤ visit.cursor.id

variable {s : Setup} {w : Services} {files : FileTree} {b b' : Books}

/-- The songs that a library had are at places of their own. -/
theorem Setup.Orderly.row_eq {row row' : Row} (ho : s.Orderly files) (hrow : row ∈ s.rows files)
    (hrow' : row' ∈ s.rows files) (hplace : s.place files row.uri = s.place files row'.uri) :
    row = row' := by
  obtain ⟨p, hp, huri⟩ := ho.found row hrow
  obtain ⟨q, hq, huri'⟩ := ho.found row' hrow'
  have hsame : files.destination p = files.destination q := by
    rw [← (ho.leads p hp).2, ← (ho.leads q hq).2, ← huri, ← huri', hplace]
  have hkeys : row.uri = row'.uri := by rw [huri, huri', ho.same p hp q hq hsame]
  have hnodup : ((s.rows files).map Row.uri).Nodup := List.pairwise_map.2 ho.distinct
  exact List.inj_on_of_nodup_map hnodup hrow hrow' hkeys

theorem Setup.Orderly.backed {row : Row} (ho : s.Orderly files) (hrow : row ∈ s.rows files) :
    Backed s files files row.uri := by
  obtain ⟨p, hp, huri⟩ := ho.found row hrow
  obtain ⟨hleads, hplace⟩ := ho.leads p hp
  refine ⟨huri ▸ hleads, ?_, fun hmem => ho.apart row hrow (Setup.mem_places.2 (.inl hmem))⟩
  rw [huri, hplace]
  exact ho.hasFile hp

theorem Setup.Orderly.filed (ho : s.Orderly files) : s.Filed files where
  rows _ hrow := .inl (ho.backed hrow)
  distinct _ hrow _ hrow' _ hplace := congrArg Row.id (ho.row_eq hrow hrow' hplace)

/-- Where every record has a file, a move avoids their places if it is direct. -/
theorem Setup.Orderly.avoids {move : Path × Path} (ho : s.Orderly files) (hmode : s.mode ≠ .checkNew)
    (hleads : files.Leads move.2) : s.Avoids files move := by
  have hrows : ∀ row ∈ s.known files, files.HasFile (s.place files row.uri) := fun row hrow =>
    (ho.backed (Setup.mem_of_mem_known hrow)).file
  exact ⟨hleads, fun row hrow hlost => absurd (hrows row hrow) (hlost.resolve_left hmode),
    fun row hrow hlost => absurd (hrows row hrow) hlost⟩

/-- The table of a library is in a file, if it has rows. -/
theorem Setup.hasFile_library {row : Row} (h : row ∈ s.rows files) :
    files.HasFile (s.library files) := by
  unfold Setup.rows FileTree.rowsAt at h
  split at h
  · cases h
  · cases htable : files.tableAt? (s.library files) with
    | none => simp [htable] at h
    | some table => exact ⟨_, FileTree.tableAt?_eq_some.1 htable⟩

namespace Moving

theorem begin {source : Option Source} (hf : s.Filed files) (hmode : s.mode = .reorganize)
    (h : b.Ready s files) (hs : Books.Begins s b source) : Moving s files { b with source } := by
  have hkept : Kept s files { b with source } := (Kept.of_ready h).congr rfl rfl rfl rfl
  obtain ⟨primary, hprimary, hrows, -⟩ := h.primary
  have hrow : ∀ t ∈ b.primary, ∀ row ∈ t.table.rows, row ∈ s.rows files := by
    intro t ht row hrow
    obtain rfl : primary = t := Option.some.inj (hprimary.symm.trans ht)
    exact hrows ▸ hrow
  have hsame : ∀ row ∈ s.rows files, b.files.HasFile (s.place files row.uri) ↔
      files.HasFile (s.place files row.uri) := by
    intro row hrow
    refine h.retabled.hasFile fun hplace => ?_
    -- The one place of a table is that of the library, and there is a file.
    rcases Setup.mem_places.1 hplace with htable | ⟨hd, -⟩
    · rcases hf.rows row hrow with hb | hlost
      · exact hb.apart htable
      · rcases Setup.mem_tablePlaces.1 htable with ⟨-, hlibrary⟩ | ⟨hd, -⟩
        · exact hlost (hlibrary ▸ Setup.hasFile_library hrow)
        · rw [hmode] at hd
          cases hd
    · rw [hmode] at hd
      cases hd
  have hbacked : ∀ t ∈ b.primary, ∀ row ∈ t.table.rows,
      Backed s files b.files row.uri ∨ Lost s files b.files row := by
    intro t ht row hmem
    have hold := hrow t ht row hmem
    rcases hf.rows row hold with hb | hlost
    · exact .inl ⟨hb.leads, (hsame row hold).2 hb.file, hb.apart⟩
    · exact .inr ⟨⟨row, hold, rfl, rfl⟩, hlost, fun hnow => hlost ((hsame row hold).1 hnow)⟩
  have hdistinct : ∀ t ∈ b.primary, ∀ row ∈ t.table.rows, ∀ row' ∈ t.table.rows,
      b.files.HasFile (s.place files row.uri) → s.place files row.uri = s.place files row'.uri →
        row.id = row'.id := by
    intro t ht row hmem row' hmem' hfile hplace
    have hold := hrow t ht row hmem
    exact hf.distinct row hold row' (hrow t ht row' hmem') ((hsame row hold).1 hfile) hplace
  cases hs with
  | stopped =>
    have hnone : Books.songs { b with source := none } = [] := by
      simp [Books.songs, h.jobs, Books.page]
    exact ⟨hkept, by simp, by simp, hbacked, hdistinct, by simp [h.jobs], by simp [hnone],
      by simp [hnone], by simp⟩
  | files hfiles =>
    rw [hmode] at hfiles
    cases hfiles
  | @table order primary' htable _ =>
    have hnone : Books.songs { b with
        source := some (.table (primary'.table.visit order Run.pageSize)) } = [] := by
      simp [Books.songs, h.jobs, Books.page, SongTable.visit]
    rw [hmode] at htable
    cases htable
    refine ⟨hkept, by simp, ?_, hbacked, hdistinct, by simp [h.jobs], by simp [hnone],
      by simp [hnone], by simp [hnone]⟩
    intro visit hvisit
    cases hvisit
    rfl

theorem stop (h : Moving s files b) : Moving s files { b with source := none } := by
  have hsub : (Books.songs { b with source := none }).Sublist b.songs := by
    simp [Books.songs, Books.page]
  exact ⟨h.toKept.congr rfl rfl rfl rfl, by simp, by simp, h.rows, h.distinct, h.jobs,
    fun song hsong => h.songs song (hsub.subset hsong), h.once.sublist (hsub.map _), by simp⟩

/-- The next song is as the table has it, and comes once. -/
theorem visited {visit visit' : SongTable.Visit} {primary : OpenTable} {song : Song}
    (h : Moving s files b) (hsource : b.source = some (.table visit))
    (hprimary : b.primary = some primary) (hnext : visit.next primary.table = (some song, visit')) :
    visit'.order = .byId ∧
      (∀ x ∈ b.jobs.filterMap Job.existing ++ song :: visit'.page,
        (∃ row ∈ primary.table.rows, x.id = some row.id ∧ x.uri = row.uri) ∧
          ∀ id ∈ x.id, id ≤ visit'.cursor.id) ∧
      ((b.jobs.filterMap Job.existing ++ song :: visit'.page).map Song.id).Nodup := by
  have hsongs : b.songs = b.jobs.filterMap Job.existing ++ visit.page := by
    simp [Books.songs, Books.page, hsource]
  obtain ⟨horder, hcases⟩ := SongTable.Visit.next_byId (h.order visit hsource) hnext
  refine ⟨horder, ?_⟩
  -- The song is on the page, or the page was empty and is filled from behind the cursor.
  rcases hcases with ⟨hpage, hcursor⟩ | ⟨hempty, rows, hpage, hsorted, hrows⟩
  · rw [hpage, ← hsongs, hcursor]
    exact ⟨fun x hx => ⟨h.songs x hx primary hprimary, h.before visit hsource x hx⟩, h.once⟩
  · rw [hempty, List.append_nil] at hsongs
    have hlater : visit.cursor.id < visit'.cursor.id := by
      have hmem : song ∈ rows.map Row.song := by simp [← hpage]
      obtain ⟨row, hrow, -⟩ := List.mem_map.1 hmem
      obtain ⟨-, hlt, hle⟩ := hrows row hrow
      exact Int64.lt_of_lt_of_le hlt hle
    rw [hpage, ← hsongs]
    constructor
    · intro x hx
      rcases List.mem_append.1 hx with hx | hx
      · refine ⟨h.songs x hx primary hprimary, ?_⟩
        intro id hid
        exact Int64.le_of_lt (Int64.lt_of_le_of_lt (h.before visit hsource x hx id hid) hlater)
      · obtain ⟨row, hrow, rfl⟩ := List.mem_map.1 hx
        obtain ⟨hmem, -, hle⟩ := hrows row hrow
        refine ⟨⟨row, hmem, rfl, rfl⟩, ?_⟩
        intro id hid
        cases hid
        exact hle
    · rw [List.map_append, List.nodup_append]
      refine ⟨h.once, ?_, ?_⟩
      · rw [List.map_map, List.Nodup, List.pairwise_map]
        refine hsorted.imp ?_
        intro a b hlt heq
        have hid : a.id = b.id := Option.some.inj heq
        rw [hid] at hlt
        exact Int64.lt_irrefl hlt
      · intro id hid id' hid' heq
        subst heq
        obtain ⟨x, hx, rfl⟩ := List.mem_map.1 hid
        rw [List.map_map] at hid'
        obtain ⟨row, hrow, hsame⟩ := List.mem_map.1 hid'
        have hle := h.before visit hsource x hx row.id hsame.symm
        exact Int64.lt_irrefl (Int64.lt_of_lt_of_le (hrows row hrow).2.1 hle)

/-- The next candidate is passed over, or there will be a job for it. -/
theorem settles {c : Candidate} {source : Source} (hmode : s.mode = .reorganize)
    (h : Moving s files b) (ht : Books.Takes s b c source)
    (hs : Books.Settles s { b with source := some source } c b') : Moving s files b' := by
  have hkept : Kept s files { b with source := some source } := h.toKept.congr rfl rfl rfl rfl
  cases ht with
  | file hsource => exact absurd hsource (h.source _)
  | @visited visit visit' primary song hsource hprimary hnext =>
    obtain ⟨horder, hsongs, honce⟩ := h.visited hsource hprimary hnext
    have horder' : ∀ v, some (Source.table visit') = some (.table v) → v.order = .byId := by
      intro v hv
      cases hv
      exact horder
    have hcurrent : ∀ x ∈ b.jobs.filterMap Job.existing ++ song :: visit'.page, ∀ t ∈ b.primary,
        ∃ row ∈ t.table.rows, x.id = some row.id ∧ x.uri = row.uri := by
      intro x hx t ht
      obtain rfl : primary = t := Option.some.inj (hprimary.symm.trans ht)
      exact (hsongs x hx).1
    have hbefore : ∀ v, some (Source.table visit') = some (.table v) →
        ∀ x ∈ b.jobs.filterMap Job.existing ++ song :: visit'.page, ∀ id ∈ x.id, id ≤ v.cursor.id := by
      intro v hv x hx
      cases hv
      exact (hsongs x hx).2
    rcases hs.byId_cases (by rw [hmode]; rfl) with rfl | ⟨relative, rfl⟩
    · have hsub : (Books.songs { b with source := some (.table visit') }).Sublist
          (b.jobs.filterMap Job.existing ++ song :: visit'.page) :=
        (List.sublist_cons_self song visit'.page).append_left _
      exact ⟨hkept, by simp, horder', h.rows, h.distinct, h.jobs,
        fun x hx => hcurrent x (hsub.subset hx), honce.sublist (hsub.map _),
        fun v hv x hx => hbefore v hv x (hsub.subset hx)⟩
    · have hall : Books.songs { b with
            source := some (.table visit'),
            jobs := b.jobs ++ [⟨resolve s.musicDir song.uri, song.uri, relative, some song⟩] } =
          b.jobs.filterMap Job.existing ++ song :: visit'.page := by
        simp [Books.songs, Books.page]
      refine ⟨hkept.congr rfl rfl rfl rfl, by simp, horder', h.rows, h.distinct, ?_,
        hall ▸ hcurrent, hall ▸ honce, hall ▸ hbefore⟩
      intro job hjob
      rcases List.mem_append.1 hjob with hjob | hjob
      · exact h.jobs job hjob
      · rw [List.mem_singleton.1 hjob]
        exact ⟨song, rfl, rfl⟩

/-- Where files stay, records do. -/
theorem unmoved (h : Moving s files b) (hkept : Kept s files b')
    (hfile : ∀ m, b'.files.HasFile m ↔ b.files.HasFile m) (hprimary : b'.primary = b.primary)
    (hjobs : b'.jobs = b.jobs) (hsource : b'.source = b.source) : Moving s files b' := by
  have hsongs : b'.songs = b.songs := by
    rw [Books.songs, Books.songs, Books.page, Books.page, hjobs, hsource]
  refine ⟨hkept, hsource ▸ h.source, hsource ▸ h.order, ?_, ?_, hjobs ▸ h.jobs, ?_,
    hsongs ▸ h.once, ?_⟩
  · rw [hprimary]
    intro t ht row hrow
    rcases h.rows t ht row hrow with hb | hlost
    · exact .inl ⟨hb.leads, (hfile _).2 hb.file, hb.apart⟩
    · exact .inr ⟨hlost.old, hlost.before, fun hnow => hlost.now ((hfile _).1 hnow)⟩
  · rw [hprimary]
    exact fun t ht row hrow row' hrow' hnow =>
      h.distinct t ht row hrow row' hrow' ((hfile _).1 hnow)
  · rw [hsongs, hprimary]
    exact h.songs
  · rw [hsource, hsongs]
    exact h.before

/-- Where the file of a record moves, the other records are elsewhere, before and after, if it
    does not come to the place of one that has lost its file. -/
theorem others {b₁ : Books} {l k : Location} {primary : OpenTable} {row : Row}
    (h : Moving s files b) (hs : Shifted s files b b₁ l k) (hprimary : b.primary = some primary)
    (hrow : row ∈ primary.table.rows) (hfile : b.files.HasFile l) (hl : s.place files row.uri = l)
    (hlost : ∀ r, Lost s files b.files r → s.place files r.uri ≠ k) {r : Row}
    (hr : r ∈ primary.table.rows) (hne : r.id ≠ row.id) :
    s.place files r.uri ≠ l ∧ s.place files r.uri ≠ k ∧
      (b₁.files.HasFile (s.place files r.uri) ↔ b.files.HasFile (s.place files r.uri)) := by
  have hrl : s.place files r.uri ≠ l := by
    intro heq
    exact hne (h.distinct primary hprimary r hr row hrow (heq ▸ hfile) (heq.trans hl.symm))
  have hrk : s.place files r.uri ≠ k := by
    rcases h.rows primary hprimary r hr with hb | hgone
    · exact hs.place_ne hb.file hrl
    · exact hlost r hgone
  refine ⟨hrl, hrk, ?_⟩
  rw [hs.hasFile, or_iff_right hrk, and_iff_right hrl]

/-- A file may move when its record follows, but not to the place of a record that has
    lost its file. -/
theorem followed {b₁ : Books} {l k : Location} {primary : OpenTable} {row : Row} {song : Song}
    (hd : ¬ s.mode.isDestructive) (h : Moving s files b) (hs : Shifted s files b b₁ l k)
    (hkept : Kept s files b₁) (hprimary : b.primary = some primary)
    (hrow : row ∈ primary.table.rows) (hfile : b.files.HasFile l) (hl : s.place files row.uri = l)
    (hid : song.id = some row.id) (hk : k = s.place files song.uri)
    (hleads : files.Leads (resolve s.musicDir song.uri))
    (hlost : ∀ r, Lost s files b.files r → s.place files r.uri ≠ k)
    (hcoming : ∀ x ∈ b.songs, x.id ≠ some row.id) (hstores : Books.Stores b₁ song b') :
    Moving s files b' := by
  have hkept' := hkept.stores hstores
  have hprimary₁ : b₁.primary = some primary := hs.primary.trans hprimary
  have htarget₁ : b₁.target = none := by simpa [hd] using hkept.target
  have hhas : ∃ r ∈ primary.table.rows, r.id = row.id := ⟨row, hrow, rfl⟩
  have hothers : ∀ {r : Row}, r ∈ primary.table.rows → r.id ≠ row.id → _ :=
    h.others hs hprimary hrow hfile hl hlost
  cases hstores with
  | refused hrefused =>
    have hnone := hrefused.resolve_left (by simp [htarget₁]) primary hprimary₁
    have hsome := SongTable.save?_isSome hid hhas
    rw [hnone] at hsome
    cases hsome
  | added _ hsome _ =>
    rw [htarget₁] at hsome
    cases hsome
  | @saved primary' table how _ hsome hsave =>
    obtain rfl : primary = primary' := Option.some.inj (hprimary₁.symm.trans hsome)
    have hrows := SongTable.rows_of_save? hid hhas hsave
    have hsongs : Books.songs { b₁ with primary := some { primary with table } } = b.songs := by
      rw [Books.songs, Books.songs, Books.page, Books.page, hs.jobs, hs.source]
    refine ⟨hkept', hs.source ▸ h.source, hs.source ▸ h.order, ?_, ?_, hs.jobs ▸ h.jobs, ?_,
      hsongs ▸ h.once, ?_⟩
    · intro t ht r hr
      cases ht
      rw [show table.rows = _ from hrows] at hr
      rcases SongTable.mem_replaced hr with ⟨-, huri⟩ | ⟨hold, hne⟩
      · refine .inl ?_
        rw [huri]
        exact ⟨hleads, (hs.hasFile _).2 (.inl hk.symm), hk ▸ hs.apart⟩
      · obtain ⟨hrl, -, hsame⟩ := hothers hold hne
        rcases h.rows primary hprimary r hold with hb | hgone
        · exact .inl (hs.backed hb hrl)
        · exact .inr ⟨hgone.old, hgone.before, fun hnow => hgone.now (hsame.1 hnow)⟩
    · intro t ht r hr r' hr' hnow hplace
      cases ht
      rw [show table.rows = _ from hrows] at hr hr'
      -- Two records that have not moved are apart as before, and none is where the file is now.
      rcases SongTable.mem_replaced hr with ⟨hrid, huri⟩ | ⟨hold, hne⟩ <;>
        rcases SongTable.mem_replaced hr' with ⟨hrid', huri'⟩ | ⟨hold', hne'⟩
      · rw [hrid, hrid']
      · rw [huri, ← hk] at hplace
        exact absurd hplace.symm (hothers hold' hne').2.1
      · rw [huri', ← hk] at hplace
        exact absurd hplace (hothers hold hne).2.1
      · exact h.distinct primary hprimary r hold r' hold' ((hothers hold hne).2.2.1 hnow) hplace
    · rw [hsongs]
      intro x hx t ht
      cases ht
      obtain ⟨r, hr, hxid, hxuri⟩ := h.songs x hx primary hprimary
      refine ⟨r, ?_, hxid, hxuri⟩
      have hne : r.id ≠ row.id := fun heq => hcoming x hx (by rw [hxid, heq])
      have hsame : SongTable.replaceRow r row.id song = r := by simp [SongTable.replaceRow, hne]
      rw [show table.rows = _ from hrows, ← hsame]
      exact List.mem_map_of_mem hr
    · rw [hsongs, hs.source]
      exact h.before

/-- A record that has lost its file stays where it is. -/
theorem stays_lost {job : Job} {song existing : Song} {row : Row} {b₁ : Books}
    (hmode : s.mode = .reorganize) (h : Moving s files b) (hlost : Lost s files b.files row)
    (hpath : job.path = resolve s.musicDir row.uri)
    (hmoves : Books.Moves s b existing job.path (song, b₁))
    (havoids : ∀ move ∈ b₁.moves, s.Avoids files move) : song = existing ∧ Moving s files b₁ := by
  cases hmoves with
  | stays => exact ⟨rfl, h⟩
  | @failed t relative failure hmove =>
    exact ⟨rfl, h.unmoved (h.toKept.unmoved hmove) (organizeFile_error_adds hmove).1.hasFile rfl rfl rfl⟩
  | @moved t relative place _ hmove =>
    obtain ⟨old, hold, -, huri⟩ := hlost.old
    have hknown : old ∈ s.known files := by simpa [Setup.known, hmode] using hold
    have hleft := (havoids (job.path, place) (by simp)).left old hknown (huri ▸ hlost.before)
    rw [huri, show files.destination job.path = s.place files row.uri by rw [hpath]; rfl] at hleft
    exact absurd rfl hleft

/-- A job is taken from the queue. -/
theorem taken {job : Job} {jobs : List Job} {existing : Song} (h : Moving s files b)
    (hjobs : b.jobs = job :: jobs) (hexisting : job.existing = some existing) :
    Moving s files { b with jobs } ∧ b.songs = existing :: Books.songs { b with jobs } := by
  have hsongs : b.songs = existing :: Books.songs { b with jobs } := by
    simp [Books.songs, hjobs, hexisting, Books.page]
  have hsub : (Books.songs { b with jobs }).Sublist b.songs := by
    rw [hsongs]
    exact List.sublist_cons_self _ _
  refine ⟨⟨h.toKept.congr rfl rfl rfl rfl, h.source, h.order, h.rows, h.distinct, ?_,
    fun x hx => h.songs x (hsub.subset hx), h.once.sublist (hsub.map _),
    fun visit hvisit x hx => h.before visit hvisit x (hsub.subset hx)⟩, hsongs⟩
  intro other hother
  exact h.jobs other (by simp [hjobs, show other ∈ jobs from hother])

/-- The file of a record moves and the record follows, or both stay. -/
theorem reorganized {existing song : Song} {row : Row} {path : Path} {b₁ : Books}
    {primary : OpenTable} (hmode : s.mode = .reorganize) (h : Moving s files b)
    (hprimary : b.primary = some primary) (hrow : row ∈ primary.table.rows)
    (hbacked : Backed s files b.files row.uri) (hid : existing.id = some row.id)
    (huri : existing.uri = row.uri) (hpath : path = resolve s.musicDir existing.uri)
    (hcoming : ∀ x ∈ b.songs, x.id ≠ some row.id)
    (hmoves : Books.Moves s b existing path (song, b₁))
    (havoids : ∀ move ∈ b₁.moves, s.Avoids files move)
    (hstores : song = existing ∧ b' = b₁ ∨ song ≠ existing ∧ Books.Stores b₁ song b') :
    Moving s files b' := by
  obtain ⟨c, hget⟩ := hbacked.file
  have hdest : ∀ p, b.files.destination p = files.destination p :=
    FileTree.destination_congr h.workingDir
  have hfind : b.files.find path = .ok (s.place files row.uri, .file c) := by
    have hfound := h.wellFormed.find_of_leads ((FileTree.leads_congr h.workingDir).2 hbacked.leads)
      (c := c) (by rw [hdest]; exact hget)
    rw [hdest, ← huri, ← hpath] at hfound
    rw [hfound, Setup.place, hpath, huri]
  obtain ⟨hkept, k, hshifted, hfollowed⟩ := h.toKept.moves hfind hbacked.apart hmoves
    fun move hmove => (havoids move hmove).leads
  rcases hstores with ⟨hstay, rfl⟩ | ⟨hchanged, hstores⟩
  · cases hfollowed with
    | stays hk =>
      subst hk
      refine h.unmoved hkept (fun m => ?_) hshifted.primary hshifted.jobs hshifted.source
      rw [hshifted.hasFile]
      exact (FileTree.HasFile.iff ⟨c, hget⟩ m).symm
    | moved relative hne _ _ => exact absurd (congrArg Song.uri hstay) hne
  · cases hfollowed with
    | stays _ => exact absurd rfl hchanged
    | moved relative hne hk hleads =>
      -- A move keeps away from the places of known records, also of one whose file is lost.
      have hlost : ∀ r, Lost s files b.files r → s.place files r.uri ≠ k := by
        intro r hr
        obtain ⟨old, hold, -, hsame⟩ := hr.old
        have hknown : old ∈ s.known files := by simpa [Setup.known, hmode] using hold
        obtain ⟨relative', hsong, hmove⟩ := hmoves.cases_uri.resolve_left fun hstay =>
          hne (congrArg Song.uri hstay.1)
        obtain rfl : relative = relative' := congrArg Song.uri hsong
        have htaken := (havoids (path, resolve s.musicDir relative) (by simp [hmove])).taken old
          hknown (.inr (hsame ▸ hr.before))
        rw [hk, ← hsame]
        exact htaken.symm
      exact followed (by rw [hmode]; decide) h hshifted hkept hprimary hrow ⟨c, hget⟩ rfl
        (show ({ existing with uri := relative } : Song).id = some row.id from hid) hk hleads hlost
        hcoming hstores

/-- Doing a job moves a file, and its record follows. -/
theorem works {job : Job} {jobs : List Job} (hmode : s.mode = .reorganize) (h : Moving s files b)
    (hjobs : b.jobs = job :: jobs) (hworks : Books.Works s w { b with jobs } job b')
    (havoids : ∀ move ∈ b'.moves, s.Avoids files move) : Moving s files b' := by
  obtain ⟨existing, hexisting, hpath⟩ := h.jobs job (by simp [hjobs])
  obtain ⟨htaken, hsongs⟩ := h.taken hjobs hexisting
  cases hworks with
  | idle => exact htaken
  | written hwrite _ _ _ =>
    rw [hmode] at hwrite
    cases hwrite
  | tracks htracks _ _ _ =>
    rw [hmode] at htracks
    cases htracks
  | read hread _ _ _ _ _ => exact absurd hmode hread.2.2
  | @reorganized existing' song b₁ _ _ he hmoves hstores =>
    obtain rfl : existing = existing' := Option.some.inj (hexisting.symm.trans he)
    obtain ⟨primary, hprimary, -⟩ := Option.map_eq_some_iff.1 h.primary
    obtain ⟨row, hrow, hid, huri⟩ := h.songs existing (by simp [hsongs]) primary hprimary
    have hmoved : ∀ move ∈ b₁.moves, s.Avoids files move := by
      rcases hstores with ⟨-, rfl⟩ | ⟨-, hstores⟩
      · exact havoids
      · rw [← hstores.moves]
        exact havoids
    rcases h.rows primary hprimary row hrow with hbacked | hlost
    · refine htaken.reorganized hmode hprimary hrow hbacked hid huri hpath ?_ hmoves hmoved hstores
      intro x hx heq
      have honce := h.once
      rw [hsongs, List.map_cons, List.nodup_cons, hid, ← heq] at honce
      exact honce.1 (List.mem_map_of_mem hx)
    · rw [huri] at hpath
      obtain ⟨hstay, hmoving⟩ := htaken.stays_lost hmode hlost hpath hmoves hmoved
      rcases hstores with ⟨-, rfl⟩ | ⟨hchanged, -⟩
      · exact hmoving
      · exact absurd hstay hchanged

/-- **A run that moves every file keeps records pointing to files of their own**, as long
    as its moves avoid the places of those that have lost theirs. -/
theorem invariant (hmode : s.mode = .reorganize) (hf : s.Filed files) :
    Books.Invariant s w files fun b =>
      (∀ move ∈ b.moves, s.Avoids files move) → Moving s files b :=
  .avoiding (begin hf hmode) stop (settles hmode)
    fun h hjobs hworks havoids => h.works hmode hjobs hworks havoids

end Moving

end SongLibrary.Reconcile
