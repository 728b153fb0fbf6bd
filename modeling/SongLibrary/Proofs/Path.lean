/-
  Parts of paths.

  * `slash_not_mem_of_mem_parts`: no part of a path holds a slash;
  * `splitOn_flatMap`: what is written element by element splits at its separators, and so do
    lists that are each ended by one (`splitOn_flatMap_append`);
  * `parts_ofString`: the path of a text has the parts of the text;
  * `parts_addSuffix`: text added to a path is added to its last part;
  * `isAbsolute_iff`: an absolute path begins with a slash;
  * `Name.IsProper`: a proper name can be that of a file or directory.
-/
import SongLibrary.Path

namespace SongLibrary

open Text (Symbol)

/-- A name that a file or directory can have. -/
structure Name.IsProper (name : Name) : Prop where
  loud : name.isSilent = false
  ne_up : name ≠ Name.up
  no_slash : Path.slash ∉ name

instance (name : Name) : Decidable name.IsProper :=
  decidable_of_iff (name.isSilent = false ∧ name ≠ Name.up ∧ Path.slash ∉ name)
    ⟨fun ⟨h₁, h₂, h₃⟩ => ⟨h₁, h₂, h₃⟩, fun h => ⟨h.loud, h.ne_up, h.no_slash⟩⟩

namespace Path

/-- What stands between separators holds none. -/
theorem not_mem_of_mem_splitOn {α : Type} [BEq α] [LawfulBEq α] {a : α} {xs part : List α}
    (h : part ∈ xs.splitOn a) : a ∉ part := by
  induction xs generalizing part with
  | nil =>
    rw [List.splitOn_nil, List.mem_singleton] at h
    simp [h]
  | cons x xs ih =>
    rw [List.splitOn_cons_eq_if_modifyHead] at h
    split at h
    · rcases List.mem_cons.1 h with rfl | h
      · simp
      · exact ih h
    · next hne =>
      cases hsplit : xs.splitOn a with
      | nil => exact absurd hsplit (List.splitOn_ne_nil a xs)
      | cons first rest =>
        rw [hsplit, List.modifyHead_cons] at h
        rcases List.mem_cons.1 h with rfl | h
        · have hfirst : a ∉ first := ih (by simp [hsplit])
          have hax : a ≠ x := by
            rintro rfl
            simp at hne
          simp [hax, hfirst]
        · exact ih (by simp [hsplit, h])

/-- What is added at the beginning is added to the first part. -/
theorem splitOn_prepend {α : Type} [BEq α] [LawfulBEq α] {a : α} {ys : List α} (h : a ∉ ys)
    (xs : List α) : (ys ++ xs).splitOn a = (xs.splitOn a).modifyHead (ys ++ ·) := by
  induction ys with
  | nil => cases h : xs.splitOn a <;> simp [h]
  | cons y ys ih =>
    rw [List.mem_cons, not_or] at h
    rw [List.cons_append, List.splitOn_cons_eq_if_modifyHead, ih h.2, if_neg (by simpa using Ne.symm h.1)]
    cases xs.splitOn a <;> rfl

/-- Lists that each end in a separator are found again at the separators, and so is what
    follows the last of them. -/
theorem splitOn_flatMap_append {α : Type} [BEq α] [LawfulBEq α] {a : α} {parts : List (List α)}
    {last : List α} (hparts : ∀ part ∈ parts, a ∉ part) (hlast : a ∉ last) :
    (parts.flatMap (· ++ [a]) ++ last).splitOn a = parts ++ [last] := by
  induction parts with
  | nil => exact List.splitOn_eq_singleton hlast
  | cons part rest ih =>
    obtain ⟨hpart, hrest⟩ := List.forall_mem_cons.1 hparts
    rw [List.flatMap_cons, List.append_assoc, List.append_assoc, splitOn_prepend hpart,
      List.singleton_append, List.splitOn_cons_eq_if_modifyHead, if_pos (by simp), ih hrest]
    simp

/-- A list that is written element by element, a separator for a separator and no other
    for anything else, splits where the list does. -/
theorem splitOn_flatMap {α β : Type} [BEq α] [LawfulBEq α] [BEq β] [LawfulBEq β] {a : α} {b : β}
    {write : α → List β} (ha : write a = [b]) {xs : List α} (h : ∀ x ∈ xs, x ≠ a → b ∉ write x) :
    (xs.flatMap write).splitOn b = (xs.splitOn a).map (·.flatMap write) := by
  induction xs with
  | nil => simp
  | cons x xs ih =>
    have htail := ih fun y hy => h y (List.mem_cons_of_mem _ hy)
    obtain ⟨first, rest, hsplit⟩ := List.exists_cons_of_ne_nil (List.splitOn_ne_nil a xs)
    rw [hsplit, List.map_cons] at htail
    rw [List.flatMap_cons, List.splitOn_cons_eq_if_modifyHead, hsplit]
    by_cases hx : x = a
    · subst hx
      rw [ha, List.singleton_append, List.splitOn_cons_eq_if_modifyHead, htail]
      simp
    · have hnone := h x (List.mem_cons_self ..) hx
      rw [splitOn_prepend hnone, htail]
      simp [hx]

theorem slash_not_mem_of_mem_parts {p : Path} {part : Name} (h : part ∈ p.parts) :
    slash ∉ part :=
  not_mem_of_mem_splitOn h

/-- What stands between separators is part of the list. -/
theorem subset_of_mem_splitOn {α : Type} [BEq α] [LawfulBEq α] {a : α} {xs part : List α}
    (h : part ∈ xs.splitOn a) : part ⊆ xs := by
  induction xs generalizing part with
  | nil =>
    rw [List.splitOn_nil, List.mem_singleton] at h
    simp [h]
  | cons x xs ih =>
    obtain ⟨first, rest, hsplit⟩ := List.exists_cons_of_ne_nil (List.splitOn_ne_nil a xs)
    rw [List.splitOn_cons_eq_if_modifyHead, hsplit] at h
    have hlater : ∀ part ∈ first :: rest, part ⊆ x :: xs := fun part hpart =>
      List.subset_cons_of_subset x (ih (hsplit ▸ hpart))
    split at h
    · rcases List.mem_cons.1 h with rfl | h
      · exact List.nil_subset _
      · exact hlater part h
    · rw [List.modifyHead_cons] at h
      rcases List.mem_cons.1 h with rfl | h
      · exact List.cons_subset.2 ⟨List.mem_cons_self .., hlater first (List.mem_cons_self ..)⟩
      · exact hlater part (List.mem_cons_of_mem _ h)

/-- A list whose first part is empty, and not all of it, begins with a separator. -/
theorem head?_of_splitOn {α : Type} [BEq α] [LawfulBEq α] {a : α} {xs : List α}
    {rest : List (List α)} (h : xs.splitOn a = [] :: rest) (hrest : rest ≠ []) :
    xs.head? = some a := by
  cases xs with
  | nil =>
    rw [List.splitOn_nil] at h
    exact absurd (List.cons.inj h).2.symm hrest
  | cons x xs =>
    obtain ⟨first, rest, hsplit⟩ := List.exists_cons_of_ne_nil (List.splitOn_ne_nil a xs)
    rw [List.splitOn_cons_eq_if_modifyHead, hsplit] at h
    split at h
    · next hx => rw [List.head?_cons, eq_of_beq hx]
    · cases h

/-- What is added at the end is added to the last part. -/
theorem splitOn_append {α : Type} [BEq α] [LawfulBEq α] {a : α} (xs : List α) {ys : List α}
    (h : a ∉ ys) :
    ∃ front last, xs.splitOn a = front ++ [last] ∧ (xs ++ ys).splitOn a = front ++ [last ++ ys] := by
  induction xs with
  | nil => exact ⟨[], [], by simp, by simp [List.splitOn_eq_singleton h]⟩
  | cons x xs ih =>
    obtain ⟨front, last, hxs, hxys⟩ := ih
    simp only [List.cons_append, List.splitOn_cons_eq_if_modifyHead, hxs, hxys]
    split
    · exact ⟨[] :: front, last, rfl, rfl⟩
    · cases front with
      | nil => exact ⟨[], x :: last, rfl, rfl⟩
      | cons first rest => exact ⟨(x :: first) :: rest, last, rfl, rfl⟩

/-- The parts of two paths with a slash between them. -/
theorem parts_append (xs ys : List Symbol) :
    Path.parts ⟨xs ++ slash :: ys⟩ = Path.parts ⟨xs⟩ ++ Path.parts ⟨ys⟩ :=
  List.splitOn_append_cons_self xs ys

theorem parts_of_name {name : Name} (h : slash ∉ name) : Path.parts ⟨name⟩ = [name] :=
  List.splitOn_eq_singleton h

/-- The parts of a text's path are what stands between the slashes of the text. -/
theorem parts_ofString (text : String) :
    (ofString text).parts = (text.toList.splitOn '/').map (·.map .char) := by
  have hslash : ∀ c ∈ text.toList, c ≠ '/' → slash ∉ [Symbol.char c] := by
    intro c _ hc
    simpa [slash] using Ne.symm hc
  have hsplit :=
    @splitOn_flatMap _ _ _ _ _ _ '/' slash (fun c => [Symbol.char c]) rfl _ hslash
  simp only [← List.map_eq_flatMap] at hsplit
  exact hsplit

/-- An absolute path begins with a slash. -/
theorem isAbsolute_iff (p : Path) : p.isAbsolute ↔ p.symbols.head? = some slash := by
  have hhead : ∀ name : Name, (if name = Name.here then Start.here else .silent) ≠ .root := by
    intro name
    split <;> simp
  unfold isAbsolute start parts
  cases hp : p.symbols with
  | nil => simp [Name.here]
  | cons x xs =>
    rw [List.splitOn_cons_eq_if_modifyHead]
    by_cases hx : x = slash
    · subst hx
      cases hxs : xs.splitOn slash with
      | nil => exact absurd hxs (List.splitOn_ne_nil slash xs)
      | cons first rest => simp
    · cases hxs : xs.splitOn slash with
      | nil => exact absurd hxs (List.splitOn_ne_nil slash xs)
      | cons first rest => simp [hx, hhead]

/-- What is added at the end does not make a path absolute, if it has no slash. -/
theorem isAbsolute_append {p : Path} {ys : List Symbol} (h : slash ∉ ys ∨ p.symbols ≠ []) :
    isAbsolute ⟨p.symbols ++ ys⟩ = p.isAbsolute := by
  rw [Bool.eq_iff_iff, isAbsolute_iff, isAbsolute_iff]
  cases hp : p.symbols with
  | cons x xs => simp
  | nil =>
    have hys : slash ∉ ys := by simpa [hp] using h
    cases ys with
    | nil => simp
    | cons y ys =>
      have hne : y ≠ slash := by
        rintro rfl
        simp at hys
      simp [hne]

/-- Text without slashes is added to the last part. -/
theorem parts_addSuffix (p : Path) {suffix : String} (h : slash ∉ Text.symbolsOf suffix) :
    ∃ front last, p.parts = front ++ [last] ∧
      (p.addSuffix suffix).parts = front ++ [last ++ Text.symbolsOf suffix] :=
  splitOn_append p.symbols h

end Path

end SongLibrary
