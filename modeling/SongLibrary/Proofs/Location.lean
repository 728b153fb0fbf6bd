/-
  Keys lead back to files.

  * a path that is seen from a base goes through the names of the base and then its own
    (`Path.names_join`), and begins where the base begins (`Path.start_join`);
  * the key of a file leads back to it, where the file and the music directory have
    absolute paths and that of the file is text (`sameAs_resolve_keyOf`).
-/
import SongLibrary.Location
import SongLibrary.Proofs.FileTree.Route
import SongLibrary.Proofs.Path

namespace SongLibrary

open Text (Symbol)

namespace Path

/-! ## Joining -/

theorem splitOn_ne_nil (p : Path) : p.parts ≠ [] :=
  List.splitOn_ne_nil slash p.symbols

theorem names_eq_filter (p : Path) : p.names = p.parts.filter fun part => !part.isSilent :=
  (FileTree.filter_parts p).symm

/-- How a relative path is joined to a base. -/
theorem join_cases (base : Path) {p : Path} (hp : p.isAbsolute = false) :
    base.symbols = [] ∧ base.join p = p ∨
      (∃ front, base.symbols = front ++ [slash] ∧
        base.parts = Path.parts ⟨front⟩ ++ [[]] ∧ (base.join p).parts = Path.parts ⟨front⟩ ++ p.parts) ∨
      base.symbols ≠ [] ∧ (base.join p).parts = base.parts ++ p.parts := by
  unfold join
  rw [hp, if_neg Bool.false_ne_true]
  by_cases hempty : base.symbols = []
  · exact .inl ⟨hempty, by simp [hempty]⟩
  · by_cases hslash : base.symbols.getLast? = some slash
    · obtain ⟨front, hfront⟩ := List.getLast?_eq_some_iff.1 hslash
      refine .inr (.inl ⟨front, hfront, ?_, ?_⟩)
      · rw [parts, hfront]
        exact parts_append front []
      · simp only [hslash, beq_self_eq_true, Bool.or_true, if_true]
        rw [hfront, List.append_assoc, List.singleton_append]
        exact parts_append front p.symbols
    · refine .inr (.inr ⟨hempty, ?_⟩)
      simp only [List.isEmpty_iff, hempty, hslash, beq_iff_eq, Bool.or_eq_true, or_self, if_false]
      exact parts_append base.symbols p.symbols

/-- **A path seen from a base goes through the names of the base and then its own.** -/
theorem names_join (base : Path) {p : Path} (hp : p.isAbsolute = false) :
    (base.join p).names = base.names ++ p.names := by
  rcases base.join_cases hp with ⟨hempty, hjoin⟩ | ⟨front, -, hbase, hjoin⟩ | ⟨-, hjoin⟩
  · have hnone : base.names = [] := by
      rw [names_eq_filter, parts, hempty]
      rfl
    rw [hjoin, hnone, List.nil_append]
  · rw [names_eq_filter, names_eq_filter base, names_eq_filter p, hbase, hjoin]
    simp [Name.isSilent]
  · rw [names_eq_filter, names_eq_filter base, names_eq_filter p, hjoin, List.filter_append]

/-- A path ends as it does seen from a base. -/
theorem exists_parts_join (base p : Path) : ∃ front, (base.join p).parts = front ++ p.parts := by
  cases hp : p.isAbsolute with
  | true => exact ⟨[], by rw [join, if_pos hp, List.nil_append]⟩
  | false =>
    rcases base.join_cases hp with ⟨-, h⟩ | ⟨front, -, -, h⟩ | ⟨-, h⟩
    · exact ⟨[], by rw [h, List.nil_append]⟩
    · exact ⟨_, h⟩
    · exact ⟨_, h⟩

/-- A path begins as its first part says. -/
theorem start_eq (p : Path) {first : Name} {rest : List Name} (h : p.parts = first :: rest) :
    p.start = if first = [] ∧ rest ≠ [] then .root
      else if first = Name.here then .here else .silent := by
  unfold start
  rw [h]
  cases first with
  | nil => cases rest <;> simp [Name.here]
  | cons x xs => simp

/-- **A path seen from a base begins where the base begins.** -/
theorem start_join {base p : Path} (hbase : base.symbols ≠ []) (hp : p.isAbsolute = false) :
    (base.join p).start = base.start := by
  obtain ⟨first, rest, hparts⟩ := List.exists_cons_of_ne_nil p.splitOn_ne_nil
  rcases base.join_cases hp with ⟨hempty, -⟩ | ⟨front, -, hbparts, hjoin⟩ | ⟨-, hjoin⟩
  · exact absurd hempty hbase
  · obtain ⟨x, xs, hx⟩ := List.exists_cons_of_ne_nil (splitOn_ne_nil ⟨front⟩)
    rw [hx, List.cons_append] at hbparts hjoin
    rw [start_eq _ hbparts, start_eq _ hjoin]
    simp [hparts]
  · obtain ⟨x, xs, hx⟩ := List.exists_cons_of_ne_nil base.splitOn_ne_nil
    rw [hx, List.cons_append] at hjoin
    rw [start_eq _ hx, start_eq _ hjoin]
    have hloud : xs = [] → x ≠ [] := by
      rintro rfl rfl
      cases hsymbols : base.symbols with
      | nil => exact hbase hsymbols
      | cons x xs =>
        obtain ⟨y, ys, hsplit⟩ := List.exists_cons_of_ne_nil (List.splitOn_ne_nil slash xs)
        rw [parts, hsymbols, List.splitOn_cons_eq_if_modifyHead, hsplit] at hx
        split at hx <;> cases hx
    cases xs with
    | nil => simp [hloud rfl]
    | cons y ys => simp

/-- A path seen from an absolute base is absolute. -/
theorem isAbsolute_join {base : Path} (hbase : base.isAbsolute) (p : Path) :
    (base.join p).isAbsolute := by
  obtain ⟨rest, hsymbols⟩ := List.head?_eq_some_iff.1 ((isAbsolute_iff base).1 hbase)
  unfold join
  split
  · next hp => exact hp
  · split <;> rw [isAbsolute_iff] <;> simp [hsymbols]

/-! ## Paths below a base -/

/-- A path that leads nowhere but below where it is seen from. -/
def StaysBelow (p : Path) : Prop :=
  p.isAbsolute = false ∧ Name.up ∉ p.names

instance (p : Path) : Decidable p.StaysBelow :=
  inferInstanceAs (Decidable (_ ∧ _))

/-- A path that begins as a base does and does not lead upward after that. -/
def IsWithin (p base : Path) : Prop :=
  p.startsWith base ∧ Name.up ∉ p.names.drop base.names.length

instance (p base : Path) : Decidable (p.IsWithin base) :=
  inferInstanceAs (Decidable (_ ∧ _))

/-- **A path that stays below is within the base that it is seen from.** -/
theorem StaysBelow.isWithin {p : Path} (h : p.StaysBelow) (base : Path) :
    (base.join p).IsWithin base := by
  have hnames := names_join base h.1
  refine ⟨?_, ?_⟩
  · unfold startsWith
    rw [Bool.or_eq_true]
    by_cases hbase : base.symbols = []
    · have hempty : base = ⟨[]⟩ := congrArg Path.mk hbase
      exact .inl (by rw [hempty]; decide)
    · refine .inr ?_
      rw [start_join hbase h.1, hnames]
      simp
  · rw [hnames, List.drop_left]
    exact h.2

/-! ## Paths that are text -/

/-- A path that is text: that as which it is shown. -/
def IsText (p : Path) : Prop :=
  ofString p.shown = p

instance (p : Path) : Decidable p.IsText :=
  inferInstanceAs (Decidable (_ = _))

theorem isText_iff {p : Path} : p.IsText ↔ ∀ x ∈ p.symbols, ∃ c, x = .char c := by
  have hsymbols : (ofString p.shown).symbols = p.symbols.map fun x => .char x.shown := by
    simp [ofString, shown, Text.shownText, Text.symbolsOf, Function.comp_def]
  constructor
  · intro h x hx
    rw [← congrArg Path.symbols h, hsymbols] at hx
    obtain ⟨y, -, rfl⟩ := List.mem_map.1 hx
    exact ⟨_, rfl⟩
  · intro h
    have hsame : (p.symbols.map fun x => Symbol.char x.shown) = p.symbols.map id :=
      List.map_congr_left fun x hx => by
        obtain ⟨c, rfl⟩ := h x hx
        rfl
    exact congrArg Path.mk (hsymbols.trans (hsame.trans (List.map_id _)))

/-! ## What remains after a base -/

theorem mem_symbols_ofParts {parts : List Name} {x : Symbol} (h : x ∈ (ofParts parts).symbols) :
    x = slash ∨ ∃ part ∈ parts, x ∈ part := by
  induction parts with
  | nil => cases h
  | cons part rest ih =>
    cases rest with
    | nil => exact .inr ⟨part, by simp, by simpa [ofParts] using h⟩
    | cons next rest =>
      have hx : x ∈ part ∨ x = slash ∨ x ∈ (ofParts (next :: rest)).symbols := by
        simpa [ofParts] using h
      rcases hx with hx | rfl | hx
      · exact .inr ⟨part, by simp, hx⟩
      · exact .inl rfl
      · refine (ih hx).imp_right ?_
        rintro ⟨part', hpart', hx⟩
        exact ⟨part', List.mem_cons_of_mem _ hpart', hx⟩

theorem ofParts_parts (p : Path) : ofParts p.parts = p :=
  congrArg Path.mk (List.intercalate_splitOn slash)

theorem parts_ofParts {parts : List Name} (h : ∀ part ∈ parts, slash ∉ part) (hne : parts ≠ []) :
    (ofParts parts).parts = parts :=
  List.splitOn_intercalate slash h hne

/-- A path goes through its parts that are not silent. -/
theorem names_ofParts {parts : List Name} (h : ∀ part ∈ parts, slash ∉ part) :
    (ofParts parts).names = parts.filter fun part => !part.isSilent := by
  rw [names_eq_filter]
  by_cases hne : parts = []
  · rw [hne]
    rfl
  · rw [parts_ofParts h hne]

theorem filter_trimEnd (parts : List Name) :
    ((trimEnd parts).filter fun part => !part.isSilent) = parts.filter fun part => !part.isSilent := by
  unfold trimEnd
  induction parts with
  | nil => rfl
  | cons part rest ih =>
    rw [Text.dropEndWhile_cons]
    split
    · next hnone =>
      rw [hnone] at ih
      split <;> simp_all
    · simp [List.filter_cons, ih]

theorem filter_dropWhile (parts : List Name) :
    ((parts.dropWhile Name.isSilent).filter fun part => !part.isSilent) =
      parts.filter fun part => !part.isSilent := by
  induction parts with
  | nil => rfl
  | cons part rest ih =>
    rw [List.dropWhile_cons]
    split
    · next hsilent => simp [hsilent, ih]
    · rfl

/-- The parts after some names are the last ones, and those before go through the names. -/
theorem partsAfter?_eq_some {parts names rest : List Name} (h : partsAfter? parts names = some rest) :
    ∃ front, parts = front ++ rest ∧ (front.filter fun part => !part.isSilent) = names := by
  fun_induction partsAfter? parts names with
  | case1 parts => exact ⟨[], by simpa using h, rfl⟩
  | case2 => cases h
  | case3 part parts name names hsilent ih =>
    obtain ⟨front, rfl, hfront⟩ := ih h
    exact ⟨part :: front, rfl, by simp [hsilent, hfront]⟩
  | case4 parts name names hloud ih =>
    obtain ⟨front, rfl, hfront⟩ := ih h
    exact ⟨name :: front, rfl, by simp [hloud, hfront]⟩
  | case5 => cases h

/-- Only the empty path has no components. -/
theorem components_eq_silent_iff (p : Path) : p.components = (.silent, []) ↔ p.symbols = [] := by
  constructor
  · intro h
    obtain ⟨hstart, hnames⟩ : p.start = .silent ∧ p.names = [] := by simpa [components] using h
    obtain ⟨first, rest, hparts⟩ := List.exists_cons_of_ne_nil p.splitOn_ne_nil
    rw [names_eq_filter, hparts, List.filter_eq_nil_iff] at hnames
    have hsilent : first = [] ∨ first = Name.here := by
      simpa [Name.isSilent, Decidable.or_iff_not_imp_left] using hnames first (by simp)
    have hbegins := start_eq p hparts
    rw [hstart] at hbegins
    have hempty : first = [] ∧ rest = [] := by
      rcases hsilent with rfl | rfl
      · by_cases hrest : rest = []
        · exact ⟨rfl, hrest⟩
        · rw [if_pos ⟨rfl, hrest⟩] at hbegins
          cases hbegins
      · rw [if_neg fun h => absurd h.1 (by decide), if_pos rfl] at hbegins
        cases hbegins
    rw [hempty.1, hempty.2] at hparts
    rw [← ofParts_parts p, hparts]
    rfl
  · intro h
    rw [show p = ⟨[]⟩ from congrArg Path.mk h]
    decide

/-- **What remains of a path after a base** is a relative path through the names after
    those of the base. -/
theorem stripBase?_eq_some {p base rest : Path} (hbase : base.symbols ≠ [])
    (h : p.stripBase? base = some rest) :
    p.start = base.start ∧ rest.isAbsolute = false ∧ p.names = base.names ++ rest.names ∧
      ∀ x ∈ rest.symbols, x = slash ∨ x ∈ p.symbols := by
  unfold stripBase? at h
  rw [if_neg (mt (components_eq_silent_iff base).1 hbase)] at h
  split at h
  · next hstart =>
    obtain ⟨after, hafter, rfl⟩ := Option.map_eq_some_iff.1 h
    obtain ⟨front, hbody, hfront⟩ := partsAfter?_eq_some hafter
    have hparts : ∀ part ∈ after, part ∈ p.parts := by
      intro part hpart
      have hmem : part ∈ p.body := by simp [hbody, hpart]
      unfold body at hmem
      split at hmem
      · exact List.mem_of_mem_drop hmem
      · exact List.mem_of_mem_drop hmem
      · exact hmem
    have hkept : ∀ part ∈ trimEnd (after.dropWhile Name.isSilent), part ∈ p.parts := by
      intro part hpart
      have hmem := (Text.dropEndWhile_prefix Name.isSilent _).subset hpart
      exact hparts part ((List.dropWhile_sublist _).subset hmem)
    have hnoslash : ∀ part ∈ trimEnd (after.dropWhile Name.isSilent), slash ∉ part :=
      fun part hpart => slash_not_mem_of_mem_parts (hkept part hpart)
    refine ⟨hstart, ?_, ?_, ?_⟩
    · -- The first part that is left is not silent.
      cases hleft : trimEnd (after.dropWhile Name.isSilent) with
      | nil => rfl
      | cons first tail =>
        have hfirst : first.isSilent = false := by
          obtain ⟨last, hlast⟩ := Text.dropEndWhile_prefix Name.isSilent (after.dropWhile Name.isSilent)
          rw [show Text.dropEndWhile Name.isSilent _ = first :: tail from hleft] at hlast
          have hhead := List.head?_dropWhile_not Name.isSilent after
          rw [← hlast] at hhead
          simpa using hhead
        rw [hleft] at hnoslash
        have hloud : first ≠ [] := by
          rintro rfl
          cases hfirst
        rw [isAbsolute, start_eq _ (parts_ofParts hnoslash (by simp)), if_neg fun h => hloud h.1]
        split <;> rfl
    · rw [names_ofParts hnoslash, filter_trimEnd, filter_dropWhile, names, hbody,
        List.filter_append, hfront]
    · intro x hx
      refine (mem_symbols_ofParts hx).imp_right ?_
      rintro ⟨part, hpart, hx⟩
      exact subset_of_mem_splitOn (hkept part hpart) hx
  · cases h

end Path

open SongLibrary.Path in
/-- **The key of a file leads back to it.** -/
theorem sameAs_resolve_keyOf {musicDir p : Path} (hm : musicDir.isAbsolute) (hp : p.isAbsolute)
    (ht : p.IsText) : (resolve musicDir (keyOf musicDir p)).sameAs p := by
  have hsame : ∀ {q : Path}, q.start = p.start → q.names = p.names → q.sameAs p := by
    intro q hstart hnames
    simp [sameAs, components, hstart, hnames]
  unfold resolve keyOf pathFrom
  split
  · next rest hrest =>
    have hne : musicDir.symbols ≠ [] := fun hempty => by
      have hhead := (isAbsolute_iff musicDir).1 hm
      simp [hempty] at hhead
    obtain ⟨hstart, hrelative, hnames, hsymbols⟩ := stripBase?_eq_some hne hrest
    have htext : rest.IsText := isText_iff.2 fun x hx => by
      rcases hsymbols x hx with rfl | hx
      · exact ⟨'/', rfl⟩
      · exact isText_iff.1 ht x hx
    rw [htext]
    exact hsame ((start_join hne hrelative).trans hstart.symm)
      ((names_join musicDir hrelative).trans hnames.symm)
  · rw [ht, join, if_pos hp]
    exact hsame rfl rfl

end SongLibrary
