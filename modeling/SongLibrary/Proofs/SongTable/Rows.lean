/-
  The rows of a table when songs are added, saved and visited.

  * a table that takes a song has its row in addition (`perm_of_insert?`), and one
    that saves a song has no other row of its id (`rows_of_save?`);
  * the song that a table finds at a location is the first there
    (`songAt?_eq_some_iff`);
  * the songs of a visit are those of rows (`Visit.mem_of_next`); a visit by id
    comes to greater ids only (`Visit.next_byId`).
-/
import Mathlib.Data.List.Nodup
import SongLibrary.SongTable.Page

namespace SongLibrary

theorem perm_placeRow (row : Row) (rows : List Row) : (placeRow row rows).Perm (row :: rows) := by
  induction rows with
  | nil => exact .refl _
  | cons r rest ih =>
    unfold placeRow
    split
    · exact .refl _
    · exact (ih.cons r).trans (.swap row r rest)

namespace SongTable

variable {t t' : SongTable} {song : Song} {row : Row}

/-- A table that takes a song has its row in addition. -/
theorem perm_of_insert? {table table' : SongTable} {song : Song} {id : Int64}
    (h : table.insert? song = some (id, table')) :
    table'.rows.Perm (song.row id :: table.rows) := by
  simp only [insert?, insertWithTags?, Option.bind_eq_bind, Option.bind_eq_some_iff,
    Option.pure_def, Option.some.injEq, Prod.mk.injEq] at h
  obtain ⟨id, -, table', hinsert, rfl, rfl⟩ := h
  unfold insertRow? at hinsert
  split at hinsert
  · cases hinsert
    exact perm_placeRow _ _
  · cases hinsert

/-- A table takes a song under its id, unless that is in use. -/
theorem insert?_cases {id : Int64} (hid : song.id = some id) :
    (∃ table, t.insert? song = some (id, table) ∧ table.rows.Perm (song.row id :: t.rows)) ∨
      t.insert? song = none ∧ ∃ row ∈ t.rows, row.id = id := by
  have hrow : t.insert? song = (t.insertRow? (song.row id)).map (id, ·) := by
    rw [insert?, insertWithTags?, hid]
    change (t.insertRow? (song.row id)).bind (fun table => some (id, table)) = _
    cases t.insertRow? (song.row id) <;> rfl
  rw [hrow, insertRow?]
  split
  · exact .inl ⟨_, rfl, perm_placeRow _ _⟩
  · next hused =>
    have hmem : ∃ row ∈ t.rows, row.id = (song.row id).id := by simpa using hused
    exact .inr ⟨rfl, hmem⟩

/-- A song that has an id is added under it. -/
theorem id_of_insert? {table : SongTable} {id given : Int64}
    (h : t.insert? song = some (id, table)) (hid : song.id = some given) : given = id := by
  rcases insert?_cases hid with ⟨_, hsome, -⟩ | ⟨hnone, -⟩
  · exact (Prod.mk.inj (Option.some.inj (hsome.symm.trans h))).1
  · rw [hnone] at h
    cases h

/-- A song with the id of a row is put in its place. -/
theorem save?_of_hasId {id : Int64} (hid : song.id = some id) (h : t.hasId id = true) :
    t.save? song = some (.updated id, (t.update song).2) := by
  simp only [save?, hid, h, if_true]

/-- A song is added that has no id, or the id of no row. -/
theorem save?_of_new (h : ∀ id, song.id = some id → t.hasId id = false) :
    t.save? song = (t.insert? song).map (Prod.map .inserted id) := by
  unfold save?
  cases hid : song.id with
  | none => rfl
  | some id =>
    simp only [h id hid, Bool.false_eq_true, if_false]
    rfl

theorem hasId_eq_true_iff {id : Int64} : t.hasId id = true ↔ ∃ row ∈ t.rows, row.id = id := by
  simp [hasId]

/-- **How a song is saved**: in the place of the row with its id, or under an id of its own in
    addition. -/
theorem save?_outcomes {how : Saved} (h : t.save? song = some (how, t')) :
    (∃ id, song.id = some id ∧ t.hasId id = true ∧ how = .updated id ∧
        t'.rows = t.rows.map (replaceRow · id song)) ∨
      ∃ id, (∀ given, song.id = some given → given = id ∧ t.hasId id = false) ∧
        how = .inserted id ∧ t'.rows.Perm (song.row id :: t.rows) := by
  by_cases hused : ∃ id, song.id = some id ∧ t.hasId id = true
  · obtain ⟨id, hid, hhas⟩ := hused
    rw [save?_of_hasId hid hhas] at h
    cases h
    exact .inl ⟨id, hid, hhas, rfl, by simp only [update, hid]⟩
  · have hnew : ∀ id, song.id = some id → t.hasId id = false := fun id hid =>
      Bool.eq_false_iff.2 fun hhas => hused ⟨id, hid, hhas⟩
    rw [save?_of_new hnew, Option.map_eq_some_iff] at h
    obtain ⟨⟨id, table⟩, hinsert, heq⟩ := h
    cases heq
    refine .inr ⟨id, fun given hgiven => ?_, rfl, perm_of_insert? hinsert⟩
    obtain rfl := id_of_insert? hinsert hgiven
    exact ⟨rfl, hnew given hgiven⟩

/-- A song that is saved takes the place of the row with its id, or has its row in
    addition. -/
theorem save?_cases {how : Saved} (h : t.save? song = some (how, t')) :
    (∃ id, song.id = some id ∧ (∃ row ∈ t.rows, row.id = id) ∧
        t'.rows = t.rows.map (replaceRow · id song)) ∨
      ∃ id, (∀ given, song.id = some given → given = id) ∧
        t'.rows.Perm (song.row id :: t.rows) := by
  rcases save?_outcomes h with ⟨id, hid, hhas, -, hrows⟩ | ⟨id, hid, -, hperm⟩
  · exact .inl ⟨id, hid, hasId_eq_true_iff.1 hhas, hrows⟩
  · exact .inr ⟨id, fun given hgiven => (hid given hgiven).1, hperm⟩

/-- A row in the place of which a song was put is that of the song, or has another id. -/
theorem mem_replaced {rows : List Row} {id : Int64} (h : row ∈ rows.map (replaceRow · id song)) :
    (row.id = id ∧ row.uri = song.uri) ∨ row ∈ rows ∧ row.id ≠ id := by
  obtain ⟨old, hold, rfl⟩ := List.mem_map.1 h
  unfold replaceRow
  split
  · exact .inl ⟨rfl, rfl⟩
  · next hne => exact .inr ⟨hold, hne⟩

/-- There is one id for a song that is saved: other rows were there before. -/
theorem mem_of_save? {how : Saved} (h : t.save? song = some (how, t')) :
    ∃ id, (∀ given, song.id = some given → given = id) ∧
      ∀ row ∈ t'.rows, (row.id = id ∧ row.uri = song.uri) ∨ row ∈ t.rows := by
  rcases save?_cases h with ⟨id, hid, -, hrows⟩ | ⟨id, hid, hperm⟩
  · refine ⟨id, fun given hgiven => Option.some.inj (hgiven.symm.trans hid), fun row hrow => ?_⟩
    exact (mem_replaced (hrows ▸ hrow)).imp_right And.left
  · refine ⟨id, hid, fun row hrow => ?_⟩
    rcases List.mem_cons.1 (hperm.subset hrow) with rfl | hold
    · exact .inl ⟨rfl, rfl⟩
    · exact .inr hold

/-- A song with the id of a row takes its place. -/
theorem rows_of_save? {id : Int64} {how : Saved} (hid : song.id = some id)
    (hhas : ∃ row ∈ t.rows, row.id = id) (h : t.save? song = some (how, t')) :
    t'.rows = t.rows.map (replaceRow · id song) := by
  obtain ⟨row, hrow, rfl⟩ := hhas
  have hhas : t.hasId row.id = true := List.any_eq_true.2 ⟨row, hrow, by simp⟩
  rw [save?_of_hasId hid hhas] at h
  simp only [update, hid, Option.some.injEq, Prod.mk.injEq] at h
  rw [← h.2]

theorem save?_isSome {id : Int64} (hid : song.id = some id) (hhas : ∃ row ∈ t.rows, row.id = id) :
    (t.save? song).isSome := by
  obtain ⟨row, hrow, rfl⟩ := hhas
  have hhas : t.hasId row.id = true := List.any_eq_true.2 ⟨row, hrow, by simp⟩
  simp [save?_of_hasId hid hhas]

/-! ## Songs at locations -/

/-- Rows at one location have the same id. -/
def OwnLocations (rows : List Row) : Prop :=
  ∀ row ∈ rows, ∀ row' ∈ rows, row.uri = row'.uri → row.id = row'.id

/-- A row may be added, or take the place of another, at a location of its own. -/
theorem OwnLocations.added {rows rows' : List Row} {id : Int64} {uri : String}
    (h : OwnLocations rows) (hrows : ∀ row ∈ rows', (row.id = id ∧ row.uri = uri) ∨ row ∈ rows)
    (hfresh : ∀ row ∈ rows, row.uri = uri → row.id = id) : OwnLocations rows' := by
  intro row hrow row' hrow' hsame
  rcases hrows row hrow with ⟨hid, huri⟩ | hold <;> rcases hrows row' hrow' with ⟨hid', huri'⟩ | hold'
  · exact hid.trans hid'.symm
  · exact hid.trans (hfresh row' hold' (hsame.symm.trans huri)).symm
  · exact (hfresh row hold (hsame.trans huri')).trans hid'.symm
  · exact h row hold row' hold' hsame

/-- The locations of a table are distinct just if its rows are at locations of their own. -/
theorem pairwise_uri_iff (t : SongTable) :
    t.rows.Pairwise (·.uri ≠ ·.uri) ↔ OwnLocations t.rows := by
  constructor
  · intro h row hrow row' hrow' huri
    have hnodup : (t.rows.map Row.uri).Nodup := List.pairwise_map.2 h
    rw [List.inj_on_of_nodup_map hnodup hrow hrow' huri]
  · intro h
    refine t.sorted.imp_of_mem fun {a b} ha hb hlt huri => ?_
    rw [h a ha b hb huri] at hlt
    exact Int64.lt_irrefl hlt

theorem songAt?_eq_none_iff {uri : String} :
    t.songAt? uri = none ↔ ∀ row ∈ t.rows, row.uri ≠ uri := by
  simp [songAt?]

/-- The song at a location is that with the lowest id. -/
theorem songAt?_eq_some_iff {uri : String} :
    t.songAt? uri = some song ↔ ∃ row ∈ t.rows, row.song = song ∧ row.uri = uri ∧
      ∀ other ∈ t.rows, other.uri = uri → row.id ≤ other.id := by
  rw [songAt?, Option.map_eq_some_iff]
  constructor
  · rintro ⟨row, hfind, rfl⟩
    obtain ⟨huri, before, after, hrows, hbefore⟩ := List.find?_eq_some_iff_append.1 hfind
    have hsorted := t.sorted
    rw [hrows, List.pairwise_append, List.pairwise_cons] at hsorted
    refine ⟨row, by simp [hrows], rfl, by simpa using huri, fun other hother hsame => ?_⟩
    rw [hrows] at hother
    rcases List.mem_append.1 hother with hother | hother
    · exact absurd (hbefore other hother) (by simp [hsame])
    · rcases List.mem_cons.1 hother with rfl | hother
      · exact Int64.le_refl _
      · exact Int64.le_of_lt (hsorted.2.1.1 other hother)
  · rintro ⟨row, hrow, rfl, huri, hlowest⟩
    obtain ⟨before, after, hrows⟩ := List.append_of_mem hrow
    have hsorted := t.sorted
    rw [hrows, List.pairwise_append] at hsorted
    refine ⟨row, List.find?_eq_some_iff_append.2 ⟨by simp [huri], before, after, hrows, ?_⟩, rfl⟩
    intro other hother
    have hne : other.uri ≠ uri := fun hsame =>
      Int64.not_lt.2 (hlowest other (by simp [hrows, hother]) hsame)
        (hsorted.2.2 other hother row (by simp))
    simp [hne]

/-! ## Visits -/

namespace Visit

variable {v v' : Visit}

/-- The next song is on the page at hand, or on the next page. -/
theorem next_cases (h : v.next t = (some song, v')) :
    v.page = song :: v'.page ∧ v' = { v with page := v'.page } ∨
      v.page = [] ∧ (v.fetch t).page = song :: v'.page ∧
        v' = { v.fetch t with page := v'.page } := by
  unfold next at h
  by_cases hneeds : v.needsPage
  · have hempty : v.page = [] := by
      simp only [needsPage, Bool.and_eq_true, List.isEmpty_iff] at hneeds
      exact hneeds.1
    simp only [hneeds, if_true] at h
    split at h
    · cases h
    · next hpage =>
      cases h
      exact .inr ⟨hempty, hpage, rfl⟩
  · simp only [hneeds, Bool.false_eq_true, if_false] at h
    split at h
    · cases h
    · next hpage =>
      cases h
      exact .inl ⟨hpage, rfl⟩

/-- A page holds songs of the table. -/
theorem mem_fetch (hsong : song ∈ (v.fetch t).page) : ∃ row ∈ t.rows, song = row.song := by
  unfold fetch at hsong
  dsimp only at hsong
  split at hsong
  · obtain ⟨row, hrow, rfl⟩ := List.mem_map.1 hsong
    have hmem := (List.mem_filter.1 (List.mem_of_mem_take hrow)).1
    rw [rowsByLocation, List.mem_mergeSort] at hmem
    exact ⟨row, hmem, rfl⟩
  · obtain ⟨row, hrow, rfl⟩ := List.mem_map.1 hsong
    exact ⟨row, (List.mem_filter.1 (List.mem_of_mem_take hrow)).1, rfl⟩

/-- What a visit comes to was at hand, or is in the table. -/
theorem mem_of_next {x : Song} (h : v.next t = (some song, v')) (hx : x ∈ song :: v'.page) :
    x ∈ v.page ∨ ∃ row ∈ t.rows, x = row.song := by
  rcases next_cases h with ⟨hpage, -⟩ | ⟨-, hpage, -⟩
  · exact .inl (hpage ▸ hx)
  · exact .inr (mem_fetch (hpage ▸ hx))

theorem id_le_getLast {rows : List Row} (h : rows.Pairwise (·.id < ·.id)) {last : Row}
    (hlast : rows.getLast? = some last) (hrow : row ∈ rows) : row.id ≤ last.id := by
  obtain ⟨front, rfl⟩ := List.getLast?_eq_some_iff.1 hlast
  rcases List.mem_append.1 hrow with hfront | hsame
  · exact Int64.le_of_lt ((List.pairwise_append.1 h).2.2 row hfront last (by simp))
  · rw [List.mem_singleton.1 hsame]
    exact Int64.le_refl _

/-- **A visit by id comes to greater ids only**: a page at hand holds songs of rows
    after the last page, up to where it ends. -/
theorem next_byId (horder : v.order = .byId) (h : v.next t = (some song, v')) :
    v'.order = .byId ∧ (song :: v'.page = v.page ∧ v'.cursor = v.cursor ∨
      v.page = [] ∧ ∃ rows : List Row, song :: v'.page = rows.map Row.song ∧
        rows.Pairwise (·.id < ·.id) ∧
        ∀ row ∈ rows, row ∈ t.rows ∧ v.cursor.id < row.id ∧ row.id ≤ v'.cursor.id) := by
  rcases next_cases h with ⟨hpage, hv⟩ | ⟨hempty, hpage, hv⟩
  · rw [hv]
    exact ⟨horder, .inl ⟨hpage.symm, rfl⟩⟩
  · rw [hv]
    refine ⟨horder, .inr ⟨hempty, (t.rows.filter (v.cursor.id < ·.id)).take v.pageSize, ?_, ?_, ?_⟩⟩
    · rw [← hpage]
      simp only [fetch, horder]
      rfl
    · exact (t.sorted.filter _).sublist (List.take_sublist _ _)
    · intro row hrow
      have hsorted := (t.sorted.filter (v.cursor.id < ·.id)).sublist (List.take_sublist v.pageSize _)
      have hmem := List.mem_filter.1 (List.mem_of_mem_take hrow)
      have hcursor : (v.fetch t).cursor =
          ((((t.rows.filter (v.cursor.id < ·.id)).take v.pageSize).map Row.song).getLast?.map
            Cursor.of).getD v.cursor := by
        simp only [fetch, horder]
        rfl
      obtain ⟨last, hlast⟩ := Option.isSome_iff_exists.1
        (List.getLast?_isSome.2 (List.ne_nil_of_mem hrow))
      refine ⟨hmem.1, by simpa using hmem.2, ?_⟩
      rw [hcursor, List.getLast?_map, hlast]
      exact id_le_getLast hsorted hlast hrow

end Visit

end SongTable

end SongLibrary
