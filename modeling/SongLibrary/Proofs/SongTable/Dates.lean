/-
  Tables whose dates are read otherwise.

  `redate δ` puts the reading `δ` of each date in its place.  Tables do not look at
  dates: an operation on redated rows gives what it gave before, redated
  (`SongTable.insert?_redate`, `SongTable.save?_redate`).
-/
import SongLibrary.Proofs.SongTable.Rows

namespace SongLibrary

variable (δ : String → String)

/-- A song with its date read otherwise. -/
def Song.redate (song : Song) : Song :=
  { song with dateAdded := δ song.dateAdded }

@[simp] theorem Song.id_redate (song : Song) : (song.redate δ).id = song.id := rfl

/-- A row with its date read otherwise. -/
def Row.redate (row : Row) : Row :=
  { row with dateAdded := δ row.dateAdded }

/-- A row aside from its date. -/
def Row.undated (row : Row) : Row :=
  row.redate fun _ => ""

/-- Songs that are the same under some reading of their dates differ in these at most. -/
theorem Song.eq_of_redate {a b : Song} (h : a.redate δ = b.redate δ) :
    ∃ date, a = { b with dateAdded := date } :=
  ⟨a.dateAdded, congrArg (fun song : Song => { song with dateAdded := a.dateAdded }) h⟩

@[simp] theorem Row.redate_self (row : Row) : row.redate (fun date => date) = row := rfl

theorem map_placeRow (row : Row) (rows : List Row) :
    (placeRow row rows).map (Row.redate δ) = placeRow (row.redate δ) (rows.map (Row.redate δ)) := by
  induction rows with
  | nil => rfl
  | cons r rest ih =>
    simp only [placeRow, List.map_cons]
    by_cases h : row.id < r.id
    · rw [if_pos h, if_pos (show (row.redate δ).id < (r.redate δ).id from h)]
      rfl
    · rw [if_neg h, if_neg (show ¬ (row.redate δ).id < (r.redate δ).id from h), List.map_cons, ih]

namespace SongTable

variable (t : SongTable) (song : Song)

/-- A table with its dates read otherwise. -/
def redate : SongTable where
  rows := t.rows.map (Row.redate δ)
  sorted := List.pairwise_map.2 t.sorted

theorem ext {t t' : SongTable} (h : t.rows = t'.rows) : t = t' := by
  cases t
  cases t'
  cases h
  rfl

@[simp] theorem redate_self : t.redate (fun date => date) = t :=
  ext (List.map_id _)

@[simp] theorem maxId_redate : (t.redate δ).maxId = t.maxId := by
  simp only [maxId, redate, List.getLast?_map, Option.map_map]
  rfl

@[simp] theorem nextId?_redate : (t.redate δ).nextId? = t.nextId? := by
  simp [nextId?]

@[simp] theorem hasId_redate (id : Int64) : (t.redate δ).hasId id = t.hasId id := by
  simp only [hasId, redate, List.any_map]
  rfl

theorem insertRow?_redate (row : Row) :
    (t.redate δ).insertRow? (row.redate δ) = (t.insertRow? row).map (redate δ) := by
  have hiff : (∀ r ∈ (t.redate δ).rows, r.id ≠ (row.redate δ).id) ↔ ∀ r ∈ t.rows, r.id ≠ row.id :=
    List.forall_mem_map
  unfold insertRow?
  by_cases hfree : ∀ r ∈ t.rows, r.id ≠ row.id
  · rw [dif_pos hfree, dif_pos (hiff.2 hfree)]
    exact congrArg some (ext (map_placeRow δ row t.rows).symm)
  · rw [dif_neg hfree, dif_neg (mt hiff.1 hfree)]
    rfl

/-- A table takes a redated song as it takes the song. -/
theorem insert?_redate :
    (t.redate δ).insert? (song.redate δ) = (t.insert? song).map (Prod.map id (redate δ)) := by
  unfold insert? insertWithTags?
  rw [nextId?_redate]
  change ((song.id <|> t.nextId?).bind fun id => ((t.redate δ).insertRow? _).bind _) =
    Option.map _ ((song.id <|> t.nextId?).bind fun id => (t.insertRow? _).bind _)
  cases (song.id <|> t.nextId?) with
  | none => rfl
  | some id =>
    have hrow := t.insertRow?_redate δ { song.row id with tags := song.tags.json }
    change ((t.redate δ).insertRow? _).bind _ = Option.map _ ((t.insertRow? _).bind _)
    change (t.redate δ).insertRow? _ = _ at hrow
    rw [show ({ (song.redate δ).row id with tags := (song.redate δ).tags.json } : Row) =
      Row.redate δ { song.row id with tags := song.tags.json } from rfl, hrow]
    cases t.insertRow? { song.row id with tags := song.tags.json } <;> rfl

theorem update_redate : ((t.redate δ).update (song.redate δ)).2 = (t.update song).2.redate δ := by
  refine ext ?_
  unfold update
  rw [Song.id_redate]
  cases song.id with
  | none => rfl
  | some id =>
    change (t.rows.map _).map _ = (t.rows.map _).map _
    rw [List.map_map, List.map_map]
    refine List.map_congr_left fun row _ => ?_
    change replaceRow (row.redate δ) id (song.redate δ) = (replaceRow row id song).redate δ
    by_cases h : row.id = id
    · rw [replaceRow, replaceRow, if_pos h, if_pos (show (row.redate δ).id = id from h)]
      rfl
    · rw [replaceRow, replaceRow, if_neg h, if_neg (show ¬ (row.redate δ).id = id from h)]

/-- A table saves a redated song as it saves the song. -/
theorem save?_redate :
    (t.redate δ).save? (song.redate δ) = (t.save? song).map (Prod.map id (redate δ)) := by
  by_cases h : ∃ id, song.id = some id ∧ t.hasId id = true
  · obtain ⟨id, hid, hhas⟩ := h
    rw [save?_of_hasId (song.id_redate δ ▸ hid) (by simpa using hhas), save?_of_hasId hid hhas,
      update_redate]
    rfl
  · have hnew : ∀ id, song.id = some id → t.hasId id = false := fun id hid =>
      Bool.eq_false_iff.2 fun hhas => h ⟨id, hid, hhas⟩
    have hnew' : ∀ id, (song.redate δ).id = some id → (t.redate δ).hasId id = false := by
      simpa using hnew
    rw [save?_of_new hnew', save?_of_new hnew, insert?_redate, Option.map_map, Option.map_map]
    rfl

end SongTable

end SongLibrary
