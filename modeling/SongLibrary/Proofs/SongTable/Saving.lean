/-
  A song that is saved is read back as it was.

  * a table has one row of an id that it has (`filter_id_eq`);
  * a table takes a song unless the song has no id and none is left (`save?_eq_none_iff`);
  * `saved_reads_back` is the main statement: the table then has the song as it was, under one
    id, and every other row that it had before.
-/
import SongLibrary.Proofs.Json.RoundTrip
import SongLibrary.Proofs.SongTable.NewIds

namespace SongLibrary.SongTable

variable {t t' : SongTable} {song : Song} {row : Row} {id : Int64}

/-- A table has no other row of the id of a row. -/
theorem filter_id_eq (hrow : row ∈ t.rows) : t.rows.filter (·.id = row.id) = [row] := by
  obtain ⟨before, after, hrows⟩ := List.append_of_mem hrow
  have hsorted := t.sorted
  rw [hrows, List.pairwise_append, List.pairwise_cons] at hsorted
  have hbefore : before.filter (·.id = row.id) = [] := by
    refine List.filter_eq_nil_iff.2 fun other hother => ?_
    have hlt := hsorted.2.2 other hother row (by simp)
    simpa using Int64.ne_of_lt hlt
  have hafter : after.filter (·.id = row.id) = [] := by
    refine List.filter_eq_nil_iff.2 fun other hother => ?_
    simpa using (Int64.ne_of_lt (hsorted.2.1.1 other hother)).symm
  rw [hrows, List.filter_append, hbefore, List.filter_cons_of_pos (by simp), hafter, List.nil_append]

/-- A row in place of another of its id is nothing to the others. -/
theorem filter_replaced (rows : List Row) (id : Int64) (song : Song) :
    (rows.map (replaceRow · id song)).filter (·.id ≠ id) = rows.filter (·.id ≠ id) := by
  induction rows with
  | nil => rfl
  | cons row rest ih =>
    rw [List.map_cons, List.filter_cons, List.filter_cons, ih, replaceRow_id]
    by_cases hid : row.id = id
    · simp [hid]
    · simp [hid, replaceRow]

/-- A row that is added is nothing to those of other ids. -/
theorem filter_added (h : t'.rows.Perm (song.row id :: t.rows)) :
    t'.rows.filter (·.id ≠ id) = t.rows.filter (·.id ≠ id) := by
  have hadded : (song.row id :: t.rows).filter (·.id ≠ id) = t.rows.filter (·.id ≠ id) :=
    List.filter_cons_of_neg (by simp [Song.row])
  -- Both are in the order of their ids.
  refine List.Perm.eq_of_pairwise (fun _ _ _ _ hab hba => absurd hab (Int64.lt_asymm hba))
    (t'.sorted.filter _) (t.sorted.filter _) ?_
  exact hadded ▸ h.filter _

/-- **A table takes a song** unless the song has no id and none is left. -/
theorem save?_eq_none_iff : t.save? song = none ↔ song.id = none ∧ t.nextId? = none := by
  cases hid : song.id with
  | some id =>
    simp only [reduceCtorEq, false_and, iff_false]
    cases hhas : t.hasId id with
    | true => simp [save?_of_hasId hid hhas]
    | false =>
      have hnew : ∀ given, song.id = some given → t.hasId given = false := fun given hgiven =>
        Option.some.inj (hid.symm.trans hgiven) ▸ hhas
      rcases insert?_cases (t := t) hid with ⟨table, hsome, -⟩ | ⟨-, hused⟩
      · simp [save?_of_new hnew, hsome]
      · rw [← hasId_eq_true_iff, hhas] at hused
        cases hused
  | none =>
    have hnew : ∀ id, song.id = some id → t.hasId id = false := by simp [hid]
    rw [save?_of_new hnew, Option.map_eq_none_iff]
    by_cases hroom : largestId t.rows < Int64.maxValue.toInt
    · obtain ⟨id, hnext, -⟩ := nextId?_eq hroom
      obtain ⟨_, _, hinsert, -⟩ := insert?_new hid hroom
      simp [hnext, hinsert]
    · have hnext : t.nextId? = none := by
        have hlargest := t.toInt_largest
        have hle := Int64.toInt_le (max t.maxId 0)
        rw [nextId?, if_pos (Int64.toInt_inj.1 (by omega))]
      simp [insert?, insertWithTags?, hid, hnext]

/-- **A song that is saved is read back as it was**, under the id that it had or was given, in
    one row.  Every other row is as before, and there is one row more just if the song had no
    id, or one that was in no row.  In particular tags are read again from their text. -/
theorem saved_reads_back (t : SongTable) (song : Song) :
    (t.save? song = none ↔ song.id = none ∧ t.nextId? = none) ∧
    (∀ how t', t.save? song = some (how, t') →
      ∃ id, how = (if song.id.any t.hasId then .updated id else .inserted id) ∧
        (∀ given, song.id = some given → given = id) ∧
        t'.songs.filter (·.id = some id) = [{ song with id := some id }] ∧
        t'.rows.filter (·.id ≠ id) = t.rows.filter (·.id ≠ id) ∧
        t'.size = (if song.id.any t.hasId then t.size else t.size + 1)) ∧
    ∀ tags : TagMap, TagMap.parse? tags.json = some tags := by
  refine ⟨save?_eq_none_iff, fun how t' h => ?_, TagMap.parse?_json⟩
  have hread : ∀ {id : Int64}, song.row id ∈ t'.rows →
      t'.songs.filter (·.id = some id) = [{ song with id := some id }] := by
    intro id hrow
    have hone : t'.rows.filter (·.id = id) = [song.row id] := filter_id_eq hrow
    have hids : (fun s : Song => decide (s.id = some id)) ∘ Row.song = fun row => decide (row.id = id) := by
      funext row
      simp [Row.song]
    rw [songs, List.filter_map, hids, hone, List.map_singleton, Song.song_row]
  -- The id was in use and its row is replaced, or a row is added.
  rcases save?_outcomes h with ⟨id, hid, hhas, rfl, hrows⟩ | ⟨id, hid, rfl, hperm⟩
  · have hused : song.id.any t.hasId = true := by simp [hid, hhas]
    refine ⟨id, by rw [if_pos hused], fun given hgiven => Option.some.inj (hgiven.symm.trans hid),
      hread ?_, hrows ▸ filter_replaced t.rows id song, ?_⟩
    · obtain ⟨row, hrow, hsame⟩ := hasId_eq_true_iff.1 hhas
      rw [hrows]
      exact List.mem_map.2 ⟨row, hrow, if_pos hsame⟩
    · rw [if_pos hused, size, hrows, List.length_map, size]
  · have hfree : song.id.any t.hasId = false := by
      cases hgiven : song.id with
      | none => rfl
      | some given =>
        obtain ⟨rfl, hnone⟩ := hid given hgiven
        simp [hnone]
    refine ⟨id, by rw [hfree]; rfl, fun given hgiven => (hid given hgiven).1,
      hread (hperm.symm.subset (by simp)), filter_added hperm, ?_⟩
    rw [hfree, if_neg Bool.false_ne_true, size, hperm.length_eq, List.length_cons, size]

/-- A table with one song. -/
def single : SongTable :=
  ⟨[(Song.new "a.mp3" "now").row 5], by decide⟩

/-- A song with characters in its texts that are written otherwise. -/
def oddSong : Song :=
  ⟨some 5, "\"\x00\\.mp3", TagMap.empty.set .title "\x1f\"\\\n\x00é", "\x00", Int64.minValue, true⟩

theorem saved_reads_back_odd :
    ∃ t', single.save? oddSong = some (.updated 5, t') ∧
      t'.songs.filter (·.id = some 5) = [oddSong] ∧ t'.size = 1 := by
  have hsave : single.save? oddSong = some (.updated 5, (single.update oddSong).2) :=
    save?_of_hasId rfl rfl
  obtain ⟨id, -, hid, hsongs, -, hsize⟩ := (saved_reads_back single oddSong).2.1 _ _ hsave
  obtain rfl := hid 5 rfl
  exact ⟨_, hsave, hsongs, hsize⟩

end SongLibrary.SongTable
