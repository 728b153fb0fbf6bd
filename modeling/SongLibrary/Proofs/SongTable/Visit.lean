/-
  A visit comes to every song once, in order.

  * `Cursor.precedes` is what a visit goes by, and `SongTable.ordered` the rows of a table
    in that order (`pairwise_ordered`);
  * `Visit.rest` are the songs still to come from a table that does not change: those of
    the page at hand, and those after the place it ends;
  * `Visit.rest_of_next`: the next song is the first of them, and the others are still to
    come; where there is no next song, there is none to come (`Visit.rest_of_end`).
-/
import SongLibrary.Proofs.SongTable.Rows

namespace SongLibrary

namespace SongTable

/-! ## The order of a visit -/

/-- Whether a row comes after a place in the order of a visit. -/
def Cursor.precedes (order : Order) (cursor : Cursor) (row : Row) : Bool :=
  match order with
  | .byLocation => cursor.isBefore row
  | .byId => cursor.id < row.id

variable {order : Order} {cursor : Cursor} {a b c row : Row}

/-- Whether a row comes before another. -/
def comesBefore (order : Order) (a b : Row) : Bool :=
  (Cursor.of a.song).precedes order b

theorem comesBefore_byLocation :
    comesBefore .byLocation a b ↔ a.uri < b.uri ∨ a.uri = b.uri ∧ a.id < b.id := by
  change (decide (a.uri < b.uri) || (a.uri == b.uri && decide (a.id < b.id))) = true ↔ _
  simp

theorem comesBefore_byId : comesBefore .byId a b ↔ a.id < b.id := by
  change decide (a.id < b.id) = true ↔ _
  simp

theorem not_comesBefore_self (order : Order) (a : Row) : comesBefore order a a = false := by
  rw [Bool.eq_false_iff]
  cases order with
  | byLocation =>
    rw [ne_eq, comesBefore_byLocation]
    rintro (h | ⟨-, h⟩)
    · exact String.lt_irrefl _ h
    · exact Int64.lt_irrefl h
  | byId =>
    rw [ne_eq, comesBefore_byId]
    exact Int64.lt_irrefl

/-- A row after one that comes after a place comes after that place. -/
theorem Cursor.precedes_trans (h : cursor.precedes order a) (hab : comesBefore order a b) :
    cursor.precedes order b := by
  cases order with
  | byLocation =>
    rw [comesBefore_byLocation] at hab
    simp only [precedes, isBefore, Bool.or_eq_true, Bool.and_eq_true, decide_eq_true_eq,
      beq_iff_eq] at h ⊢
    rcases h with h | ⟨heq, h⟩ <;> rcases hab with hab | ⟨heq', hab⟩
    · exact .inl (String.lt_trans h hab)
    · exact .inl (heq' ▸ h)
    · exact .inl (heq ▸ hab)
    · exact .inr ⟨heq.trans heq', Int64.lt_trans h hab⟩
  | byId =>
    rw [comesBefore_byId] at hab
    simp only [precedes, decide_eq_true_eq] at h ⊢
    exact Int64.lt_trans h hab

theorem comesBefore_asymm (h : comesBefore order a b) : comesBefore order b a = false := by
  rw [Bool.eq_false_iff]
  intro hba
  have hself : comesBefore order a a := Cursor.precedes_trans h hba
  rw [not_comesBefore_self] at hself
  cases hself

variable (t : SongTable)

/-- The rows in the order of a visit. -/
def ordered (order : Order) : List Row :=
  match order with
  | .byLocation => t.rowsByLocation
  | .byId => t.rows

theorem perm_ordered (order : Order) : (t.ordered order).Perm t.rows := by
  cases order with
  | byLocation => exact List.mergeSort_perm _ _
  | byId => exact .refl _

theorem nodup_rows : t.rows.Nodup := by
  refine t.sorted.imp ?_
  rintro a b hlt rfl
  exact Int64.lt_irrefl hlt

variable {t} in
/-- Two rows are one, or stand in the order of their ids. -/
theorem eq_or_sublist (ha : a ∈ t.rows) (hb : b ∈ t.rows) :
    a = b ∨ [a, b].Sublist t.rows ∧ a.id < b.id ∨ [b, a].Sublist t.rows ∧ b.id < a.id := by
  obtain ⟨front, rest, hrows⟩ := List.append_of_mem hb
  have hsorted := t.sorted
  rw [hrows, List.pairwise_append, List.pairwise_cons] at hsorted
  rw [hrows] at ha ⊢
  rcases List.mem_append.1 ha with hfront | hrest
  · refine .inr (.inl ⟨?_, hsorted.2.2 a hfront b (by simp)⟩)
    exact (List.singleton_sublist.2 hfront).append (List.singleton_sublist.2 (by simp))
  · rcases List.mem_cons.1 hrest with rfl | hrest
    · exact .inl rfl
    · refine .inr (.inr ⟨?_, hsorted.2.1.1 a hrest⟩)
      exact List.sublist_append_of_sublist_right ((List.singleton_sublist.2 hrest).cons_cons b)

variable {t} in
/-- A table has one row of an id. -/
theorem eq_of_id (ha : a ∈ t.rows) (hb : b ∈ t.rows) (h : a.id = b.id) : a = b := by
  rcases eq_or_sublist ha hb with heq | ⟨-, hlt⟩ | ⟨-, hlt⟩
  · exact heq
  · exact absurd hlt (h ▸ Int64.lt_irrefl)
  · exact absurd hlt (h ▸ Int64.lt_irrefl)

/-- Two members of a list without repetitions stand in one order only. -/
theorem not_sublist_swap {α : Type} {l : List α} {x y : α} (h : l.Nodup) (hxy : [x, y].Sublist l) :
    ¬ [y, x].Sublist l := by
  induction l with
  | nil => simp at hxy
  | cons z l ih =>
    rw [List.nodup_cons] at h
    intro hyx
    rcases List.sublist_cons_iff.1 hxy with hxy' | ⟨_, hz, hy⟩ <;>
      rcases List.sublist_cons_iff.1 hyx with hyx' | ⟨_, hz', hx⟩
    · exact ih h.2 hxy' hyx'
    · cases hz'
      exact h.1 (hxy'.subset (by simp))
    · cases hz
      exact h.1 (hyx'.subset (by simp))
    · cases hz
      cases hz'
      exact h.1 (List.singleton_sublist.1 hy)

/-! The sort by location compares rows by their locations. -/

theorem notAfter_iff {a b : Row} : (!decide (b.uri < a.uri)) = true ↔ a.uri ≤ b.uri := by
  rw [Bool.not_eq_true', decide_eq_false_iff_not, String.not_lt]

theorem notAfter_trans (a b c : Row) (hab : (!decide (b.uri < a.uri)) = true)
    (hbc : (!decide (c.uri < b.uri)) = true) : (!decide (c.uri < a.uri)) = true :=
  notAfter_iff.2 (String.le_trans (notAfter_iff.1 hab) (notAfter_iff.1 hbc))

theorem notAfter_total (a b : Row) : (!decide (b.uri < a.uri) || !decide (a.uri < b.uri)) = true := by
  rw [Bool.or_eq_true, notAfter_iff, notAfter_iff]
  exact String.le_total _ _

/-- **The rows of a visit come in order**: the sort by location keeps the order of ids. -/
theorem pairwise_ordered (order : Order) : (t.ordered order).Pairwise fun a b => comesBefore order a b := by
  cases order with
  | byId => exact t.sorted.imp comesBefore_byId.2
  | byLocation =>
    have hsorted : t.rowsByLocation.Pairwise fun a b => !(b.uri < a.uri) :=
      List.pairwise_mergeSort notAfter_trans notAfter_total t.rows
    have hnodup : t.rowsByLocation.Nodup := (t.perm_ordered .byLocation).nodup_iff.2 t.nodup_rows
    rw [ordered, List.pairwise_iff_forall_sublist]
    intro a b hab
    have hle : a.uri ≤ b.uri := notAfter_iff.1 (List.pairwise_iff_forall_sublist.1 hsorted hab)
    rw [comesBefore_byLocation]
    by_cases hlt : a.uri < b.uri
    · exact .inl hlt
    · have huri : a.uri = b.uri := String.le_antisymm hle (String.not_lt.1 hlt)
      -- The table has the row with the lower id first, and the sort leaves it there.
      have hmem : ∀ x ∈ [a, b], x ∈ t.rows := fun x hx =>
        (t.perm_ordered .byLocation).subset (hab.subset hx)
      rcases eq_or_sublist (hmem a (by simp)) (hmem b (by simp)) with heq | ⟨-, hid⟩ | ⟨hba, -⟩
      · exact absurd (hab.nodup hnodup) (by simp [heq])
      · exact .inr ⟨huri, hid⟩
      · have hsame : (!decide (a.uri < b.uri)) = true := notAfter_iff.2 (huri ▸ String.le_refl _)
        exact absurd (List.pair_sublist_mergeSort notAfter_trans notAfter_total hsame hba)
          (not_sublist_swap hnodup hab)

/-! ## Songs still to come -/

/-- The rows that come after one of a list in order are the rest of the list. -/
theorem filter_comesBefore_last {front rest : List Row}
    (h : (front ++ a :: rest).Pairwise fun a b => comesBefore order a b) :
    (front ++ a :: rest).filter (comesBefore order a) = rest := by
  rw [List.pairwise_append, List.pairwise_cons] at h
  have hfront : front.filter (comesBefore order a) = [] :=
    List.filter_eq_nil_iff.2 fun b hb => by simp [comesBefore_asymm (h.2.2 b hb a (by simp))]
  rw [List.filter_append, hfront, List.filter_cons, not_comesBefore_self,
    List.filter_eq_self.2 h.2.1.1]
  rfl

namespace Visit

variable {v v' : Visit} {t : SongTable} {song : Song}

/-- The rows after the place where the last page ended. -/
def later (v : Visit) (t : SongTable) : List Row :=
  (t.ordered v.order).filter (v.cursor.precedes v.order)

/-- The songs still to come from a table that does not change. -/
def rest (v : Visit) (t : SongTable) : List Song :=
  v.page ++ if v.exhausted then [] else (v.later t).map Row.song

theorem page_fetch (v : Visit) (t : SongTable) :
    (v.fetch t).page = ((v.later t).take v.pageSize).map Row.song := by
  unfold fetch later
  cases v.order <;> rfl

@[simp] theorem order_fetch (v : Visit) (t : SongTable) : (v.fetch t).order = v.order := rfl

@[simp] theorem pageSize_fetch (v : Visit) (t : SongTable) : (v.fetch t).pageSize = v.pageSize := rfl

theorem cursor_fetch (v : Visit) (t : SongTable) :
    (v.fetch t).cursor = ((v.fetch t).page.getLast?.map Cursor.of).getD v.cursor := rfl

theorem exhausted_fetch (v : Visit) (t : SongTable) :
    (v.fetch t).exhausted = decide ((v.fetch t).page.length < v.pageSize) := rfl

theorem pairwise_later (v : Visit) (t : SongTable) :
    (v.later t).Pairwise fun a b => comesBefore v.order a b :=
  (t.pairwise_ordered v.order).filter _

/-- After a page come the rows that it left over. -/
theorem later_fetch (v : Visit) (t : SongTable) :
    (v.fetch t).later t = (v.later t).drop v.pageSize := by
  have hcursor := v.cursor_fetch t
  rw [page_fetch, List.getLast?_map] at hcursor
  cases hlast : ((v.later t).take v.pageSize).getLast? with
  | none =>
    rw [hlast] at hcursor
    have hsame : (v.fetch t).later t = v.later t := by rw [later, hcursor]; rfl
    rw [hsame]
    rcases List.take_eq_nil_iff.1 (List.getLast?_eq_none_iff.1 hlast) with hsize | hnone
    · rw [hsize, List.drop_zero]
    · rw [hnone, List.drop_nil]
  | some a =>
    rw [hlast] at hcursor
    obtain ⟨front, hfront⟩ := List.getLast?_eq_some_iff.1 hlast
    have hlater : v.later t = front ++ a :: (v.later t).drop v.pageSize := by
      have hsplit := List.take_append_drop v.pageSize (v.later t)
      rw [hfront, List.append_assoc, List.singleton_append] at hsplit
      exact hsplit.symm
    have ha : v.cursor.precedes v.order a :=
      (List.mem_filter.1 (show a ∈ v.later t by rw [hlater]; simp)).2
    have hfilter : (v.fetch t).later t = (v.later t).filter (comesBefore v.order a) := by
      rw [later, hcursor, later, List.filter_filter]
      refine List.filter_congr fun b _ => ?_
      change comesBefore v.order a b = _
      cases hab : comesBefore v.order a b with
      | false => rfl
      | true => rw [Cursor.precedes_trans ha hab]; rfl
    have hpairwise := v.pairwise_later t
    generalize (v.later t).drop v.pageSize = rest at hlater ⊢
    rw [hlater] at hpairwise
    rw [hfilter, hlater, filter_comesBefore_last hpairwise]

/-- A page leaves the same songs to come. -/
theorem rest_fetch (hpage : v.page = []) (hmore : v.exhausted = false) :
    (v.fetch t).rest t = v.rest t := by
  rw [rest, rest, hpage, hmore, later_fetch, page_fetch, exhausted_fetch, page_fetch]
  by_cases hlast : ((v.later t).take v.pageSize).length < v.pageSize
  · have hall : (v.later t).length < v.pageSize := by
      rw [List.length_take] at hlast
      omega
    simp [List.take_of_length_le (Nat.le_of_lt hall), hall]
  · simp only [List.length_map, hlast, decide_false, Bool.false_eq_true, if_false, List.nil_append,
      ← List.map_append, List.take_append_drop]

/-- **The next song is the first of those still to come**, and the others follow. -/
theorem rest_of_next (h : v.next t = (some song, v')) :
    v.rest t = song :: v'.rest t ∧ v'.order = v.order ∧ v'.pageSize = v.pageSize := by
  unfold next at h
  split at h
  · next hneeds =>
    simp only [needsPage, Bool.and_eq_true, List.isEmpty_iff, Bool.not_eq_true'] at hneeds
    rw [← rest_fetch hneeds.1 hneeds.2]
    dsimp only at h
    split at h
    · cases h
    · next hpage =>
      cases h
      exact ⟨by rw [rest, hpage]; rfl, rfl, rfl⟩
  · dsimp only at h
    split at h
    · cases h
    · next hpage =>
      cases h
      exact ⟨by rw [rest, hpage]; rfl, rfl, rfl⟩

/-- **Where there is no next song, no song is to come.** -/
theorem rest_of_end (hsize : 0 < v.pageSize) (h : v.next t = (none, v')) : v.rest t = [] := by
  unfold next at h
  split at h
  · next hneeds =>
    simp only [needsPage, Bool.and_eq_true, List.isEmpty_iff, Bool.not_eq_true'] at hneeds
    rw [← rest_fetch hneeds.1 hneeds.2]
    dsimp only at h
    split at h
    · next hpage =>
      rw [rest, hpage, exhausted_fetch, hpage]
      simp [hsize]
    · cases h
  · next hneeds =>
    dsimp only at h
    split at h
    · next hpage =>
      have hexhausted : v.exhausted = true := by simpa [needsPage, hpage] using hneeds
      rw [rest, hpage, hexhausted]
      rfl
    · cases h

/-- **A visit by id does not come to a song that is saved** under an id that is not after
    where the last page ended. -/
theorem rest_save? {t' : SongTable} {how : Saved} {id : Int64} (horder : v.order = .byId)
    (hid : song.id = some id) (hle : id ≤ v.cursor.id) (h : t.save? song = some (how, t')) :
    v.rest t' = v.rest t := by
  have hlater : v.later t' = v.later t := by
    simp only [later, horder, ordered]
    change t'.rows.filter (fun row => decide (v.cursor.id < row.id)) =
      t.rows.filter fun row => decide (v.cursor.id < row.id)
    rcases save?_cases h with ⟨id', hid', -, hrows⟩ | ⟨id', hgiven, hperm⟩
    · obtain rfl : id = id' := Option.some.inj (hid.symm.trans hid')
      rw [hrows, List.filter_map]
      have hfilter : t.rows.filter ((fun row : Row => decide (v.cursor.id < row.id)) ∘
          (replaceRow · id song)) = t.rows.filter fun row => decide (v.cursor.id < row.id) :=
        List.filter_congr fun row _ => by simp [replaceRow_id]
      rw [hfilter, List.map_congr_left (g := fun row => row), List.map_id']
      intro row hrow
      refine if_neg ?_
      rintro rfl
      have hlt : v.cursor.id < row.id := by simpa using (List.mem_filter.1 hrow).2
      exact Int64.lt_irrefl (Int64.lt_of_lt_of_le hlt hle)
    · obtain rfl := hgiven id hid
      have hperm' := hperm.filter fun row => decide (v.cursor.id < row.id)
      have hbehind : ¬ v.cursor.id < (song.row id).id := Int64.not_lt.2 hle
      rw [List.filter_cons_of_neg (by simpa using hbehind)] at hperm'
      exact hperm'.eq_of_pairwise (fun _ _ _ _ hab hba => absurd hab (Int64.lt_asymm hba))
        (t'.sorted.filter _) (t.sorted.filter _)
  rw [rest, rest, hlater]

/-- A visit that begins has the songs to come that are after the first place. -/
theorem rest_visit (t : SongTable) (order : Order) (pageSize : Nat) :
    (t.visit order pageSize).rest t =
      ((t.ordered order).filter (Cursor.precedes order {})).map Row.song := rfl

end Visit

end SongTable

end SongLibrary
