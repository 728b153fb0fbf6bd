/-
  The path above a path.

  * it begins where the path begins, and goes through its names but the last
    (`Path.parent?_names`);
  * it is written as the beginning of the path is (`Path.parent?_begins`), that of an absolute
    path up to the end of a name (`Path.parent?_text`).
-/
import Mathlib.Data.List.Infix
import SongLibrary.FileTree.Change
import SongLibrary.Proofs.Location

namespace SongLibrary

open Text (Symbol)

namespace Path

/-! ## Its names -/

theorem body_subset (p : Path) : p.body ⊆ p.parts := by
  unfold body
  split
  · exact fun _ => List.mem_of_mem_drop
  · exact fun _ => List.mem_of_mem_drop
  · exact List.Subset.refl _

/-- A path that is put together goes through the parts that are not silent, and begins where it
    is to begin, unless an empty part without a start makes it begin at the root. -/
theorem ofBody_names {start : Start} {body : List Name} (hslash : ∀ part ∈ body, slash ∉ part)
    (hfirst : start = .silent → body.head? ≠ some []) :
    (ofBody start body).isAbsolute = (start == .root) ∧
      (ofBody start body).names = body.filter fun part => !part.isSilent := by
  -- An empty part in front makes a path begin at the root, if another part follows.
  have hbegun : ∀ {first : Name} {rest : List Name}, (∀ part ∈ first :: rest, slash ∉ part) →
      (ofParts (first :: rest)).isAbsolute = decide (first = [] ∧ rest ≠ []) := by
    intro first rest h
    rw [isAbsolute, start_eq _ (parts_ofParts h (by simp))]
    by_cases hroot : first = [] ∧ rest ≠ []
    · rw [if_pos hroot, decide_eq_true hroot]
      rfl
    · rw [if_neg hroot, decide_eq_false hroot]
      split <;> rfl
  cases start with
  | root =>
    have hparts : ∀ part ∈ [] :: (if body.isEmpty then [[]] else body), slash ∉ part := by
      cases body <;> simp_all
    refine ⟨?_, ?_⟩
    · rw [ofBody, hbegun hparts]
      cases body <;> rfl
    · rw [ofBody, names_ofParts hparts, List.filter_cons_of_neg (by decide)]
      cases body <;> rfl
  | here =>
    have hparts : ∀ part ∈ Name.here :: body, slash ∉ part := by
      simpa using ⟨by decide, hslash⟩
    refine ⟨?_, ?_⟩
    · rw [ofBody, hbegun hparts]
      rfl
    · rw [ofBody, names_ofParts hparts, List.filter_cons_of_neg (by decide)]
  | silent =>
    refine ⟨?_, names_ofParts hslash⟩
    cases body with
    | nil => rfl
    | cons first rest =>
      have hne : first ≠ [] := by simpa using hfirst rfl
      rw [ofBody, hbegun hslash, decide_eq_false fun h => hne h.1]
      rfl

/-- **The path above a path** begins where it begins, and goes through its names but the last. -/
theorem parent?_names {p q : Path} (h : p.parent? = some q) :
    q.isAbsolute = p.isAbsolute ∧ q.names = p.names.dropLast := by
  cases hnames : p.names with
  | nil =>
    rw [parent?, hnames] at h
    cases hstart : p.start with
    | here =>
      rw [hstart] at h
      cases h
      refine ⟨?_, rfl⟩
      rw [show p.isAbsolute = (p.start == .root) from rfl, hstart]
      decide
    | _ =>
      rw [hstart] at h
      cases h
  | cons first rest =>
    rw [parent?, hnames] at h
    cases h
    rw [← hnames]
    -- The last name is what ends the text, silent parts aside.
    obtain ⟨front, last, hends, hloud⟩ : ∃ front last, trimEnd p.body = front ++ [last] ∧
        last.isSilent = false := by
      rcases List.eq_nil_or_concat (trimEnd p.body) with hnil | ⟨front, last, hends⟩
      · have hnone := filter_trimEnd p.body
        rw [hnil, List.filter_nil] at hnone
        rw [names, ← hnone] at hnames
        cases hnames
      · rw [List.concat_eq_append] at hends
        refine ⟨front, last, hends, Text.dropEndWhile_getLast? Name.isSilent p.body last ?_⟩
        rw [← trimEnd, hends, List.getLast?_concat]
        exact rfl
    have hlast : p.names.dropLast = front.filter fun name => !name.isSilent := by
      rw [names, ← filter_trimEnd, hends, List.filter_append]
      simp [hloud]
    have hbegins : trimEnd front <+: p.body :=
      (Text.dropEndWhile_prefix _ front).trans
        ((hends ▸ List.prefix_append front [last]).trans (Text.dropEndWhile_prefix _ p.body))
    rw [hlast, hends, List.dropLast_concat, ← filter_trimEnd]
    refine ofBody_names (fun part hpart =>
      slash_not_mem_of_mem_parts (p.body_subset (hbegins.subset hpart))) fun hsilent hhead => ?_
    -- A path without a start has no empty part at its beginning, or no names.
    obtain ⟨tail, hfront⟩ := List.head?_eq_some_iff.1 hhead
    obtain ⟨after, hparts⟩ := hbegins
    rw [hfront, body, hsilent, List.cons_append] at hparts
    change [] :: (tail ++ after) = p.parts at hparts
    have hstart := start_eq p hparts.symm
    rw [hsilent] at hstart
    cases hafter : tail ++ after with
    | nil =>
      rw [names_eq_filter, ← hparts, hafter] at hnames
      cases hnames
    | cons next rest =>
      rw [hafter, if_pos ⟨rfl, by simp⟩] at hstart
      cases hstart

/-- The path above an absolute one is absolute. -/
theorem parent?_absolute {p q : Path} (hp : p.isAbsolute) (h : p.parent? = some q) :
    q.isAbsolute ∧ q.names = p.names.dropLast :=
  (parent?_names h).imp_left fun hq => hq.trans hp

theorem above_names {p q : Path} {n : Nat} (h : q ∈ FileTree.above n p) :
    q.isAbsolute = p.isAbsolute ∧ q.names <+: p.names := by
  induction n generalizing p with
  | zero => cases h
  | succ n ih =>
    unfold FileTree.above at h
    split at h
    · cases h
    · next parent hparent =>
      obtain ⟨habsolute, hnames⟩ := parent?_names hparent
      have hbefore : parent.names <+: p.names := hnames ▸ List.dropLast_prefix _
      rcases List.mem_cons.1 h with rfl | h
      · exact ⟨habsolute, hbefore⟩
      · obtain ⟨habsolute', hnames'⟩ := ih h
        exact ⟨habsolute'.trans habsolute, hnames'.trans hbefore⟩

theorem above_absolute {p q : Path} {n : Nat} (hp : p.isAbsolute) (h : q ∈ FileTree.above n p) :
    q.isAbsolute ∧ q.names <+: p.names :=
  (above_names h).imp_left fun hq => hq.trans hp

/-- There is a path above one that goes through names. -/
theorem exists_parent {p : Path} (h : p.names ≠ []) : ∃ q, p.parent? = some q := by
  obtain ⟨first, rest, hnames⟩ := List.exists_cons_of_ne_nil h
  rw [parent?, hnames]
  exact ⟨_, rfl⟩

/-! ## Its text -/

variable {p q : Path}

/-- The text of some parts begins with that of the first of them. -/
theorem prefix_symbols_ofParts {parts more : List Name} (h : parts <+: more) :
    (ofParts parts).symbols <+: (ofParts more).symbols := by
  induction parts generalizing more with
  | nil => exact List.nil_prefix
  | cons first rest ih =>
    obtain ⟨others, rfl⟩ := h
    cases rest with
    | nil =>
      cases others with
      | nil => exact List.prefix_refl _
      | cons other others => simp [ofParts]
    | cons second rest =>
      have hrest : (ofParts (second :: rest)).symbols <+:
          (ofParts (second :: (rest ++ others))).symbols := ih (List.prefix_append _ _)
      simpa [ofParts] using hrest

/-- The parts of an absolute path come after an empty one. -/
theorem parts_of_absolute (hp : p.isAbsolute) : p.start = .root ∧ p.parts = [] :: p.body := by
  have hroot : p.start = .root := by simpa [isAbsolute] using hp
  obtain ⟨first, rest, hparts⟩ := List.exists_cons_of_ne_nil p.splitOn_ne_nil
  have hfirst : first = [] := by
    by_contra hne
    have hstart := start_eq p hparts
    rw [hroot, if_neg fun h => hne h.1] at hstart
    split at hstart <;> cases hstart
  refine ⟨hroot, ?_⟩
  rw [body, hroot, hparts, hfirst]
  rfl

/-- A path that begins at the working directory, written as `.`, has that before its other
    parts. -/
theorem parts_of_here (h : p.start = .here) : p.parts = Name.here :: p.body := by
  obtain ⟨first, rest, hparts⟩ := List.exists_cons_of_ne_nil p.splitOn_ne_nil
  have hstart := start_eq p hparts
  rw [h] at hstart
  have hfirst : first = Name.here := by
    split at hstart
    · cases hstart
    · split at hstart
      · next hhere => exact hhere
      · cases hstart
  rw [body, h, hparts, hfirst]
  rfl

/-- The text of a path that is put together from the first of some parts begins the text of
    the path with these parts. -/
theorem prefix_symbols_ofBody {body : List Name} (h : body <+: p.body) :
    (ofBody p.start body).symbols <+: p.symbols := by
  have hwhole : ∀ {parts : List Name}, parts <+: p.parts →
      (ofParts parts).symbols <+: p.symbols := fun hparts => by
    have hprefix := prefix_symbols_ofParts hparts
    rwa [ofParts_parts] at hprefix
  cases hstart : p.start with
  | silent =>
    rw [Path.body, hstart] at h
    exact hwhole h
  | here => exact hwhole (parts_of_here hstart ▸ List.cons_prefix_cons.2 ⟨rfl, h⟩)
  | root =>
    have habsolute : p.isAbsolute := by rw [isAbsolute, hstart]; rfl
    cases body with
    | nil =>
      obtain ⟨rest, hsymbols⟩ := List.head?_eq_some_iff.1 ((isAbsolute_iff p).1 habsolute)
      exact ⟨rest, hsymbols.symm⟩
    | cons first rest =>
      exact hwhole ((parts_of_absolute habsolute).2 ▸ List.cons_prefix_cons.2 ⟨rfl, h⟩)

/-- The text of the path above a path begins that of the path. -/
theorem parent?_begins (h : p.parent? = some q) : q.symbols <+: p.symbols := by
  cases hnames : p.names with
  | nil =>
    rw [parent?, hnames] at h
    split at h
    · cases h
      exact List.nil_prefix
    · cases h
    · cases h
    · contradiction
  | cons first rest =>
    rw [parent?, hnames] at h
    cases h
    exact prefix_symbols_ofBody ((Text.dropEndWhile_prefix _ _).trans
      ((List.dropLast_prefix _).trans (Text.dropEndWhile_prefix _ _)))

theorem above_begins {n : Nat} (h : q ∈ FileTree.above n p) : q.symbols <+: p.symbols := by
  induction n generalizing p with
  | zero => cases h
  | succ n ih =>
    unfold FileTree.above at h
    split at h
    · cases h
    · next parent hparent =>
      have hbefore := parent?_begins hparent
      rcases List.mem_cons.1 h with rfl | h
      · exact hbefore
      · exact (ih h).trans hbefore

/-- The text of the path above an absolute one is the beginning of the text of that, up to the
    end of a name. -/
theorem parent?_text (hp : p.isAbsolute) (h : p.parent? = some q) : q.symbols <+: p.symbols ∧
    (q.names ≠ [] → ∃ front last, q.parts = front ++ [last] ∧ last.isSilent = false) := by
  refine ⟨parent?_begins h, fun hne => ?_⟩
  obtain ⟨hroot, hparts⟩ := parts_of_absolute hp
  obtain ⟨body, hbody, hends, rfl⟩ : ∃ body, body <+: p.body ∧
      (∀ last ∈ body.getLast?, last.isSilent = false) ∧ ofBody .root body = q := by
    cases hnames : p.names with
    | nil =>
      rw [parent?, hnames, hroot] at h
      cases h
    | cons first rest =>
      rw [parent?, hnames, hroot] at h
      cases h
      exact ⟨_, (Text.dropEndWhile_prefix _ _).trans
        ((List.dropLast_prefix _).trans (Text.dropEndWhile_prefix _ _)),
        Text.dropEndWhile_getLast? _ _, rfl⟩
  rcases List.eq_nil_or_concat body with rfl | ⟨front, last, rfl⟩
  · exact absurd rfl hne
  · rw [List.concat_eq_append] at *
    have htext : ofBody .root (front ++ [last]) = ofParts ([] :: (front ++ [last])) := by
      simp [ofBody]
    have hslash : ∀ part ∈ [] :: (front ++ [last]), slash ∉ part := fun part hpart =>
      slash_not_mem_of_mem_parts (hparts ▸ (List.cons_subset_cons _ hbody.subset) hpart)
    refine ⟨[] :: front, last, ?_, hends last (by simp)⟩
    rw [htext, parts_ofParts hslash (by simp)]
    rfl

end Path

end SongLibrary
