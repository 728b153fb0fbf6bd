/-
  The ids of new songs.

  `largestId` is the greatest id of some rows, or `0`; a song without an id gets the
  next one, and its row comes last (`insert?_new`).
-/
import SongLibrary.Proofs.SongTable.Rows

namespace SongLibrary

/-- The greatest id of rows that are in the order of their ids, and at least `0`. -/
def largestId (rows : List Row) : Int :=
  max ((rows.getLast?.map fun row => row.id.toInt).getD 0) 0

theorem largestId_nonneg (rows : List Row) : 0 ≤ largestId rows := by
  unfold largestId
  omega

/-- The rows of songs under the ids that follow a number. -/
def rowsAfter (n : Int) (songs : List Song) : List Row :=
  songs.mapIdx fun i song => song.row (.ofInt (n + i + 1))

@[simp] theorem rowsAfter_nil (n : Int) : rowsAfter n [] = [] := rfl

theorem rowsAfter_concat (n : Int) (songs : List Song) (song : Song) :
    rowsAfter n (songs ++ [song]) = rowsAfter n songs ++ [song.row (.ofInt (n + songs.length + 1))] := by
  simp [rowsAfter, List.mapIdx_append]

theorem mem_rowsAfter {n : Int} {songs : List Song} {row : Row} (h : row ∈ rowsAfter n songs) :
    ∃ song ∈ songs, ∃ id, row = song.row id := by
  obtain ⟨i, hi, rfl⟩ := List.mem_mapIdx.1 h
  exact ⟨_, List.getElem_mem hi, _, rfl⟩

@[simp] theorem length_rowsAfter (n : Int) (songs : List Song) :
    (rowsAfter n songs).length = songs.length := by
  simp [rowsAfter]

/-- A row with a greater id than all others comes last. -/
theorem placeRow_last {row : Row} {rows : List Row} (h : ∀ r ∈ rows, r.id < row.id) :
    placeRow row rows = rows ++ [row] := by
  induction rows with
  | nil => rfl
  | cons r rest ih =>
    obtain ⟨hr, hrest⟩ := List.forall_mem_cons.1 h
    rw [placeRow, if_neg (Int64.lt_asymm hr), ih hrest, List.cons_append]

namespace SongTable

variable {t : SongTable} {song : Song}

theorem toInt_largest (t : SongTable) : (max t.maxId 0).toInt = largestId t.rows := by
  have hmax : ∀ a : Int64, (max a 0).toInt = max a.toInt 0 := by
    intro a
    change (if a ≤ 0 then 0 else a).toInt = max a.toInt 0
    have hzero : (0 : Int64).toInt = 0 := rfl
    split
    · next h =>
      have hle := Int64.le_iff_toInt_le.1 h
      omega
    · next h =>
      have hlt := Int64.lt_iff_toInt_lt.1 (Int64.not_le.1 h)
      omega
  rw [hmax, largestId, maxId]
  cases t.rows.getLast? <;> rfl

/-- The last id is at most the largest, which is not negative. -/
theorem toInt_maxId_le (t : SongTable) : t.maxId.toInt ≤ largestId t.rows := by
  unfold maxId largestId
  cases t.rows.getLast? with
  | none => decide
  | some row => exact Int.le_max_left _ _

/-- A song without an id is added under the next one. -/
theorem insert?_eq_map {id : Int64} (hid : song.id = none) (hnext : t.nextId? = some id) :
    t.insert? song = (t.insertRow? (song.row id)).map (id, ·) := by
  rw [insert?, insertWithTags?, hid, hnext]
  change (t.insertRow? (song.row id)).bind (fun table => some (id, table)) = _
  cases t.insertRow? (song.row id) <;> rfl

/-- The next id is the one after the greatest, as long as there is one. -/
theorem nextId?_eq (hroom : largestId t.rows < Int64.maxValue.toInt) :
    ∃ id : Int64, t.nextId? = some id ∧ id.toInt = largestId t.rows + 1 := by
  have hlargest := t.toInt_largest
  have hne : max t.maxId 0 ≠ Int64.maxValue := by
    intro heq
    rw [heq] at hlargest
    omega
  refine ⟨.ofInt (largestId t.rows + 1), ?_, ?_⟩
  · rw [nextId?, if_neg hne, ← hlargest, Int64.ofInt_add, Int64.ofInt_toInt]
    rfl
  · have hnonneg := largestId_nonneg t.rows
    have hmax : Int64.maxValue.toInt = 2 ^ 63 - 1 := by decide
    exact Int64.toInt_ofInt_of_le (by omega) (by omega)

/-- No id is greater than the last. -/
theorem toInt_le_maxId {row : Row} (hrow : row ∈ t.rows) : row.id.toInt ≤ t.maxId.toInt := by
  obtain ⟨last, hlast⟩ := Option.isSome_iff_exists.1
    (List.getLast?_isSome.2 (List.ne_nil_of_mem hrow))
  have hmax : t.maxId = last.id := by rw [maxId, hlast]; rfl
  exact Int64.le_iff_toInt_le.1 (hmax ▸ Visit.id_le_getLast t.sorted hlast hrow)

theorem toInt_le_largestId {row : Row} (hrow : row ∈ t.rows) : row.id.toInt ≤ largestId t.rows :=
  Int.le_trans (toInt_le_maxId hrow) t.toInt_maxId_le

/-- The number that is an id given after the greatest one, as long as there are ids. -/
theorem toInt_after {n k : Nat} (hroom : t.maxId.toInt + n ≤ Int64.maxValue.toInt) (hk : k < n) :
    (t.maxId + 1 + .ofNat k).toInt = t.maxId.toInt + 1 + k := by
  have hlow := t.maxId.minValue_le_toInt
  have hbounds : Int64.maxValue.toInt = 2 ^ 63 - 1 ∧ Int64.minValue.toInt = -2 ^ 63 := by decide
  have hnext : t.maxId + 1 + .ofNat k = .ofInt (t.maxId.toInt + 1 + k) := by
    rw [Int64.ofInt_add, Int64.ofInt_add, Int64.ofInt_toInt, Int64.ofInt_eq_ofNat]
    rfl
  rw [hnext, Int64.toInt_ofInt_of_le (by omega) (by omega)]

/-- Ids that are given after the greatest one are in no row, as long as they are ids. -/
theorem id_ne_after {row : Row} {n k : Nat} (hrow : row ∈ t.rows)
    (hroom : t.maxId.toInt + n ≤ Int64.maxValue.toInt) (hk : k < n) :
    row.id ≠ t.maxId + 1 + .ofNat k := by
  intro heq
  have hle := toInt_le_maxId hrow
  have hvalue := toInt_after hroom hk
  rw [← heq] at hvalue
  omega

/-- **A song without an id gets the next one**, as long as there is one, and its row comes
    last. -/
theorem insert?_new (hid : song.id = none) (hroom : largestId t.rows < Int64.maxValue.toInt) :
    ∃ id t', t.insert? song = some (id, t') ∧ id = .ofInt (largestId t.rows + 1) ∧
      t'.rows = t.rows ++ [song.row id] ∧ largestId t'.rows = largestId t.rows + 1 := by
  obtain ⟨id, hnext, hvalue⟩ := nextId?_eq hroom
  have hbelow : ∀ r ∈ t.rows, r.id < (song.row id).id := by
    intro r hr
    have hle := toInt_le_largestId hr
    change r.id < id
    rw [Int64.lt_iff_toInt_lt]
    omega
  have hfresh : ∀ r ∈ t.rows, r.id ≠ (song.row id).id :=
    fun r hr heq => Int64.lt_irrefl (heq ▸ hbelow r hr)
  refine ⟨id, ⟨placeRow (song.row id) t.rows, pairwise_placeRow t.sorted hfresh⟩, ?_, ?_,
    placeRow_last hbelow, ?_⟩
  · rw [insert?_eq_map hid hnext, insertRow?, dif_pos hfresh]
    rfl
  · rw [← hvalue, Int64.ofInt_toInt]
  · have hnonneg := largestId_nonneg t.rows
    simp only [placeRow_last hbelow, largestId, List.getLast?_append, List.getLast?_singleton,
      Option.some_or, Option.map_some, Option.getD_some]
    change max id.toInt 0 = _
    rw [hvalue, ← largestId]
    omega

end SongTable

end SongLibrary
