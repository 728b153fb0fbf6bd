/-
  A visit that is pulled again and again, while its table may change.

  * `Visit.pulls` is what each pull gives, from the table that there is then;
  * `Visit.map_pulls` is the main lemma: what the changes leave alone of the songs still to
    come is what the pulls give, each once and in order, and nothing after that;
  * a visit by id goes by ids alone, so any change that leaves them as they are will do
    (`Visit.ids_rest`, `Visit.ids_pulls`).
-/
import SongLibrary.Proofs.SongTable.Visit

namespace SongLibrary.SongTable

/-- The rows that a visit comes to, in its order. -/
def seen (t : SongTable) (order : Order) : List Row :=
  (t.ordered order).filter (Cursor.precedes order {})

/-- Rows come strictly in order. -/
theorem pairwise_seen (t : SongTable) (order : Order) :
    (t.seen order).Pairwise fun a b => comesBefore order a b :=
  (t.pairwise_ordered order).filter _

theorem perm_seen (t : SongTable) (order : Order) :
    (t.seen order).Perm (t.rows.filter (Cursor.precedes order {})) :=
  (t.perm_ordered order).filter _

theorem seen_subset (t : SongTable) (order : Order) : t.seen order ⊆ t.rows :=
  List.Subset.trans List.filter_sublist.subset (t.perm_ordered order).subset

theorem sorted_ids_seen (t : SongTable) : ((t.seen .byId).map Row.id).Pairwise (· < ·) :=
  List.pairwise_map.2 ((t.pairwise_seen .byId).imp comesBefore_byId.1)

namespace Visit

variable {v v' : Visit} {t t' : SongTable} {order : Order}

/-- What some pulls give, one after the other, each from the table that there is then. -/
def pulls : List SongTable → Visit → List (Option Song)
  | [], _ => []
  | t :: tables, v => (v.next t).1 :: pulls tables (v.next t).2

theorem next_keeps (v : Visit) (t : SongTable) :
    (v.next t).2.order = v.order ∧ (v.next t).2.pageSize = v.pageSize := by
  unfold next
  split <;> dsimp only <;> split <;> exact ⟨rfl, rfl⟩

/-- A visit that is at its end has no songs to come, whatever becomes of the table. -/
theorem rest_after_end (hsize : 0 < v.pageSize) (h : v.next t = (none, v')) (t' : SongTable) :
    v'.rest t' = [] := by
  have hended : v'.page = [] ∧ v'.exhausted = true := by
    unfold next at h
    split at h
    · dsimp only at h
      split at h
      · next hpage =>
        cases h
        refine ⟨hpage, ?_⟩
        rw [exhausted_fetch, hpage]
        simpa using hsize
      · cases h
    · next hneeds =>
      dsimp only at h
      split at h
      · next hpage =>
        cases h
        exact ⟨hpage, by simpa [needsPage, hpage] using hneeds⟩
      · cases h
  rw [rest, hended.1, hended.2]
  rfl

/-- **The pulls give the songs still to come, each once and in order, and nothing more**, as
    far as the changes of the table leave alone what is known of these songs. -/
theorem map_pulls {α : Type} (value : Song → α) {tables : List SongTable}
    (hsame : ∀ t' ∈ tables, ∀ v : Visit, v.order = order →
      (v.rest t').map value = (v.rest t).map value)
    (horder : v.order = order) (hsize : 0 < v.pageSize) :
    (pulls tables v).map (·.map value) =
      ((v.rest t).map (fun song => some (value song)) ++ List.replicate tables.length none).take
        tables.length := by
  -- By induction on the tables: each pull gives the first of the songs to come in its table.
  induction tables generalizing v with
  | nil => simp [pulls]
  | cons t' tables ih =>
    obtain ⟨horder', hsize'⟩ := v.next_keeps t'
    have hrest := hsame t' (List.mem_cons_self ..) v horder
    have hlater := ih (v := (v.next t').2) (fun t' ht => hsame t' (List.mem_cons_of_mem _ ht))
      (horder'.trans horder) (hsize'.symm ▸ hsize)
    have hshort : ∀ given : List (Option α),
        (given ++ List.replicate (tables.length + 1) none).take tables.length =
          (given ++ List.replicate tables.length none).take tables.length := by
      intro given
      rw [List.replicate_succ', ← List.append_assoc, List.take_append_of_le_length]
      simp
    rw [pulls, List.map_cons, hlater]
    rcases hnext : v.next t' with ⟨_ | song, v'⟩
    · rw [rest_of_end hsize hnext, List.map_nil, eq_comm, List.map_eq_nil_iff] at hrest
      rw [rest_after_end hsize hnext, hrest]
      simp [List.replicate_succ]
    · have hothers := hsame t' (List.mem_cons_self ..) v' (by rw [← horder, ← horder', hnext])
      obtain ⟨hsplit, -, -⟩ := rest_of_next hnext
      rw [hsplit, List.map_cons, hothers] at hrest
      have hgiven : (v.rest t).map (fun song => some (value song)) =
          some (value song) :: (v'.rest t).map fun song => some (value song) := by
        have hvalues := congrArg (List.map some) hrest
        rw [List.map_cons, List.map_map, List.map_map] at hvalues
        exact hvalues.symm
      rw [hgiven, List.length_cons, List.cons_append, List.take_succ_cons, hshort]
      rfl

/-- A visit by id has songs with the same ids to come from a table with the same ids. -/
theorem ids_rest (horder : v.order = .byId) (h : t'.rows.map Row.id = t.rows.map Row.id) :
    (v.rest t').map Song.id = (v.rest t).map Song.id := by
  have hlater : ∀ t : SongTable, ((v.later t).map Row.song).map Song.id =
      ((t.rows.map Row.id).filter (v.cursor.id < ·)).map some := by
    intro t
    rw [later, horder, ordered, List.filter_map, List.map_map, List.map_map]
    rfl
  unfold rest
  split
  · rfl
  · rw [List.map_append, List.map_append, hlater, hlater, h]

/-- **A visit comes to the rows of a table once, in order, and ends.** -/
theorem pulls_replicate (t : SongTable) (order : Order) (pageSize n : Nat) :
    (t.visit order pageSize).pulls (List.replicate n t) =
      ((t.seen order).map (fun row : Row => some row.song) ++ List.replicate n none).take n := by
  have hsame : ∀ t' ∈ List.replicate n t, ∀ v : Visit, v.order = order →
      (v.rest t').map id = (v.rest t).map id :=
    fun t' ht _ _ => by rw [List.eq_of_mem_replicate ht]
  have hpulls := map_pulls (v := t.visit order pageSize) id hsame rfl
    (Nat.lt_of_lt_of_le Nat.one_pos (Nat.le_max_right ..))
  have hvalue : ∀ given : List (Option Song), given.map (·.map id) = given := fun given => by simp
  rw [rest_visit, List.length_replicate, List.map_map, hvalue] at hpulls
  exact hpulls

/-- **A visit by id comes to each id once, in order, and ends**, while anything but the ids
    of the table may change. -/
theorem ids_pulls (t : SongTable) (pageSize : Nat) {tables : List SongTable}
    (h : ∀ t' ∈ tables, t'.rows.map Row.id = t.rows.map Row.id) :
    ((t.visit .byId pageSize).pulls tables).map (·.map Song.id) =
      ((t.seen .byId).map (fun row : Row => some (some row.id)) ++
        List.replicate tables.length none).take tables.length := by
  have hsame : ∀ t' ∈ tables, ∀ v : Visit, v.order = .byId →
      (v.rest t').map Song.id = (v.rest t).map Song.id :=
    fun t' ht _ horder => ids_rest horder (h t' ht)
  have hpulls := map_pulls (v := t.visit .byId pageSize) Song.id hsame rfl
    (Nat.lt_of_lt_of_le Nat.one_pos (Nat.le_max_right ..))
  rw [rest_visit, List.map_map] at hpulls
  exact hpulls

end Visit

end SongLibrary.SongTable
