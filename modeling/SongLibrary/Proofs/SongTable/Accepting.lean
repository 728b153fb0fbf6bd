/-
  Adding songs in either order.

  `accept` adds a song to a table that takes it, and leaves the table as it is otherwise.
  Songs with different ids may be added in either order (`accept_comm`), and a table takes
  the one whether or not it has the other (`accepts_accept`).
-/
import SongLibrary.Proofs.SongTable.Dates
import SongLibrary.Proofs.SongTable.Rows

namespace SongLibrary.SongTable

variable (t : SongTable) (song : Song)

/-- Whether a table takes a song. -/
def accepts : Bool :=
  (t.insert? song).isSome

/-- The table with a song, if it takes it. -/
def accept : SongTable :=
  ((t.insert? song).map Prod.snd).getD t

variable {t song}

theorem accept_of_insert? {id : Int64} {t' : SongTable} (h : t.insert? song = some (id, t')) :
    t.accepts song = true ∧ t.accept song = t' := by
  simp [accepts, accept, h]

theorem accept_of_refused (h : t.insert? song = none) :
    t.accepts song = false ∧ t.accept song = t := by
  simp [accepts, accept, h]

/-- A table takes a song unless its id is in use, and then has its row in addition. -/
theorem accept_cases {id : Int64} (hid : song.id = some id) :
    (t.accepts song = true ∧ (∀ row ∈ t.rows, row.id ≠ id) ∧
        (t.accept song).rows.Perm (song.row id :: t.rows)) ∨
      t.accepts song = false ∧ (∃ row ∈ t.rows, row.id = id) ∧ t.accept song = t := by
  rcases insert?_cases (t := t) hid with ⟨table, hsome, hperm⟩ | ⟨hnone, hused⟩
  · obtain ⟨haccepts, haccept⟩ := accept_of_insert? hsome
    refine .inl ⟨haccepts, fun row hrow hsame => ?_, haccept ▸ hperm⟩
    -- The ids of the new table are not repeated.
    have hsorted : (table.rows.map Row.id).Nodup := by
      refine List.pairwise_map.2 (table.sorted.imp fun {a b} hlt heq => ?_)
      exact Int64.lt_irrefl (show a.id < a.id from heq ▸ hlt)
    rw [(hperm.map Row.id).nodup_iff, List.map_cons, List.nodup_cons] at hsorted
    exact hsorted.1 (List.mem_map.2 ⟨row, hrow, hsame⟩)
  · obtain ⟨haccepts, haccept⟩ := accept_of_refused hnone
    exact .inr ⟨haccepts, hused, haccept⟩

/-- A table takes a song whether or not it has one with another id. -/
theorem accepts_accept {other : Song} {id otherId : Int64} (hid : song.id = some id)
    (hother : other.id = some otherId) (hne : id ≠ otherId) :
    (t.accept other).accepts song = t.accepts song := by
  have hused : (∃ row ∈ (t.accept other).rows, row.id = id) ↔ ∃ row ∈ t.rows, row.id = id := by
    rcases accept_cases (t := t) hother with ⟨-, -, hperm⟩ | ⟨-, -, hsame⟩
    · simp only [hperm.mem_iff, List.mem_cons, exists_eq_or_imp]
      exact or_iff_right (Ne.symm hne)
    · rw [hsame]
  rcases accept_cases (t := t) hid with ⟨haccepts, hfree, -⟩ | ⟨haccepts, hrow, -⟩ <;>
    rcases accept_cases (t := t.accept other) hid with ⟨haccepts', hfree', -⟩ | ⟨haccepts', hrow', -⟩ <;>
    rw [haccepts, haccepts']
  · obtain ⟨row, hmem, hrow⟩ := hused.1 hrow'
    exact absurd hrow (hfree row hmem)
  · obtain ⟨row, hmem, hrow⟩ := hused.2 hrow
    exact absurd hrow (hfree' row hmem)

/-- Tables with the same rows, in whatever order, are the same. -/
theorem eq_of_perm {t t' : SongTable} (h : t.rows.Perm t'.rows) : t = t' :=
  ext (h.eq_of_pairwise (fun _ _ _ _ hab hba => absurd hab (Int64.lt_asymm hba)) t.sorted t'.sorted)

/-- **Songs with different ids may be added in either order.** -/
theorem accept_comm {other : Song} {id otherId : Int64} (hid : song.id = some id)
    (hother : other.id = some otherId) (hne : id ≠ otherId) :
    (t.accept song).accept other = (t.accept other).accept song := by
  have hsong := accepts_accept (t := t) hid hother hne
  have hothers := accepts_accept (t := t) hother hid hne.symm
  rcases accept_cases (t := t) hid with ⟨h₁, -, hperm₁⟩ | ⟨h₁, -, hsame₁⟩ <;>
    rcases accept_cases (t := t) hother with ⟨h₂, -, hperm₂⟩ | ⟨h₂, -, hsame₂⟩ <;>
    rcases accept_cases (t := t.accept song) hother with ⟨h₃, -, hperm₃⟩ | ⟨h₃, -, hsame₃⟩ <;>
    rcases accept_cases (t := t.accept other) hid with ⟨h₄, -, hperm₄⟩ | ⟨h₄, -, hsame₄⟩ <;>
    simp only [h₁, h₂, h₃, h₄, Bool.true_eq_false, Bool.false_eq_true] at hsong hothers
  · refine eq_of_perm ((hperm₃.trans (hperm₁.cons _)).trans ?_)
    exact (List.Perm.swap _ _ _).trans (hperm₄.trans (hperm₂.cons _)).symm
  · rw [hsame₃, hsame₂]
  · rw [hsame₄, hsame₁]
  · rw [hsame₁, hsame₂, hsame₁]

variable (δ : String → String)

theorem accepts_redate : (t.redate δ).accepts (song.redate δ) = t.accepts song := by
  rw [accepts, accepts, insert?_redate, Option.isSome_map]

theorem accept_redate : (t.redate δ).accept (song.redate δ) = (t.accept song).redate δ := by
  unfold accept
  rw [insert?_redate]
  cases t.insert? song <;> rfl

end SongLibrary.SongTable
