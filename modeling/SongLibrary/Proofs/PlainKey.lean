/-
  Keys that are spelt as a scan spells them.

  A key may lead to a file in many ways: with empty parts, parts `.` and parts `..`, or as a
  whole path.  A scan has one key for each file below the music directory, its names with
  slashes between them (`IsPlainKey`).

  * `keyOf_resolve` says that such a key is that of the path it leads to;
  * `keyOf_eq_of_plain` that it is that of the path by which a scan comes to the file.
-/
import SongLibrary.Proofs.FileTree.Siblings
import SongLibrary.Proofs.FileTree.Walk
import SongLibrary.Proofs.Location

namespace SongLibrary

namespace Path

variable {base p : Path}

/-- What comes after the names of a path is what was added to its parts, and perhaps silent
    parts before that. -/
theorem partsAfter?_append (front rest : List Name) : ∃ silent : List Name,
    (∀ part ∈ silent, part.isSilent) ∧
      partsAfter? (front ++ rest) (front.filter fun part => !part.isSilent) =
        some (silent ++ rest) := by
  induction front with
  | nil => exact ⟨[], by simp, by cases rest <;> rfl⟩
  | cons part front ih =>
    obtain ⟨silent, hsilent, hafter⟩ := ih
    cases hpart : part.isSilent with
    | false => exact ⟨silent, hsilent, by simp [partsAfter?, hpart, hafter]⟩
    | true =>
      cases hnames : front.filter fun part => !part.isSilent with
      | nil =>
        rw [hnames] at hafter
        refine ⟨part :: front, ?_, by simp [hpart, hnames, partsAfter?]⟩
        simpa [hpart] using hnames
      | cons name names =>
        rw [hnames] at hafter
        exact ⟨silent, hsilent, by simp [partsAfter?, hpart, hnames, hafter]⟩

theorem trimEnd_of_loud {parts : List Name} (h : ∀ part ∈ parts, part.isSilent = false) :
    trimEnd parts = parts := by
  induction parts with
  | nil => rfl
  | cons part rest ih =>
    obtain ⟨hpart, hrest⟩ := List.forall_mem_cons.1 h
    have hsame := ih hrest
    unfold trimEnd at hsame ⊢
    rw [Text.dropEndWhile_cons, hsame]
    cases rest <;> simp [hpart]

/-- A path without silent parts is what remains of it, seen from an absolute base. -/
theorem stripBase?_join (hbase : base.isAbsolute) (hp : p.isAbsolute = false)
    (hloud : ∀ part ∈ p.parts, part.isSilent = false) : (base.join p).stripBase? base = some p := by
  have hroot : base.start = .root := by simpa [isAbsolute] using hbase
  have hne : base.components ≠ (.silent, []) := by simp [components, hroot]
  have hsome : base.symbols ≠ [] := fun hempty => by
    have hhead := (isAbsolute_iff base).1 hbase
    simp [hempty] at hhead
  have hstart : (base.join p).start = .root := (start_join hsome hp).trans hroot
  -- The parts of the base come first, all that count.
  obtain ⟨front, hfront, hnames⟩ : ∃ front : List Name, (base.join p).parts = front ++ p.parts ∧
      front ≠ [] ∧ base.names = front.filter fun part => !part.isSilent := by
    rcases base.join_cases hp with ⟨hempty, -⟩ | ⟨front, -, hparts, hjoin⟩ | ⟨-, hjoin⟩
    · exact absurd hempty hsome
    · refine ⟨_, hjoin, splitOn_ne_nil _, ?_⟩
      rw [names_eq_filter, hparts]
      simp [Name.isSilent]
    · exact ⟨_, hjoin, splitOn_ne_nil _, names_eq_filter base⟩
  obtain ⟨first, rest, rfl⟩ := List.exists_cons_of_ne_nil hnames.1
  have hfirst : first = [] := by
    have hstart' := start_eq _ hfront
    rw [hstart] at hstart'
    split at hstart'
    · next h => exact h.1
    · split at hstart' <;> cases hstart'
  subst hfirst
  obtain ⟨silent, hsilent, hafter⟩ := partsAfter?_append rest p.parts
  have hbody : (base.join p).body = rest ++ p.parts := by
    rw [body, hstart, hfront]
    rfl
  have hbasenames : base.names = rest.filter fun part => !part.isSilent := by
    rw [hnames.2]
    simp [Name.isSilent]
  rw [stripBase?, if_neg hne, if_pos (hstart.trans hroot.symm), hbody, hbasenames, hafter,
    Option.map_some, List.dropWhile_append_of_pos hsilent]
  obtain ⟨name, names, hcons⟩ := List.exists_cons_of_ne_nil p.splitOn_ne_nil
  have hkept : p.parts.dropWhile Name.isSilent = p.parts := by
    rw [hcons, List.dropWhile_cons_of_neg]
    simpa using hloud name (by simp [hcons])
  rw [hkept, trimEnd_of_loud hloud, ofParts_parts]

theorem isAbsolute_ofParts {names : List Name} (h : ∀ name ∈ names, name.IsProper) :
    (ofParts names).isAbsolute = false := by
  have hnoslash : ∀ name ∈ names, slash ∉ name := fun name hname => (h name hname).no_slash
  cases names with
  | nil => rfl
  | cons name rest =>
    have hloud := (h name (by simp)).loud
    have hsome : name ≠ [] := by
      rintro rfl
      cases hloud
    rw [isAbsolute, start_eq _ (parts_ofParts hnoslash (by simp)), if_neg fun hnil => hsome hnil.1]
    split <;> rfl

/-- A path of proper names ends with something else than a slash. -/
theorem symbols_ofParts {names : List Name} (h : ∀ name ∈ names, name.IsProper) (hne : names ≠ []) :
    ∃ last, (ofParts names).symbols.getLast? = some last ∧ last ≠ slash := by
  have hparts := parts_ofParts (fun name hname => (h name hname).no_slash) hne
  have hloud : ([] : Name) ∉ names := fun hmem => by cases (h _ hmem).loud
  cases hlast : (ofParts names).symbols.getLast? with
  | none =>
    refine absurd ?_ hloud
    rw [← hparts, parts, List.getLast?_eq_none_iff.1 hlast]
    simp
  | some last =>
    refine ⟨last, rfl, ?_⟩
    rintro rfl
    refine hloud ?_
    obtain ⟨front, hfront⟩ := List.getLast?_eq_some_iff.1 hlast
    have hsplit := parts_append front []
    rw [← hparts, parts, hfront]
    rw [parts] at hsplit
    rw [hsplit]
    simp [parts]

/-- One name after some others. -/
theorem ofParts_concat {names : List Name} {name : Name} (h : ∀ part ∈ names ++ [name], slash ∉ part)
    (hne : names ≠ []) : ofParts (names ++ [name]) = ⟨(ofParts names).symbols ++ slash :: name⟩ := by
  rw [List.forall_mem_append] at h
  have hparts := parts_append (ofParts names).symbols name
  rw [parts_of_name (h.2 name (by simp)), show Path.parts ⟨(ofParts names).symbols⟩ = names from
    parts_ofParts h.1 hne] at hparts
  rw [← hparts, ofParts_parts]

/-- Going through names one by one is going through the path of the names. -/
theorem foldl_child {names : List Name} (base : Path) (h : ∀ name ∈ names, name.IsProper)
    (hne : names ≠ []) : names.foldl child base = base.join (ofParts names) := by
  induction names using List.reverseRecOn with
  | nil => exact absurd rfl hne
  | append_singleton front name ih =>
    have hfront : ∀ name ∈ front, name.IsProper := fun name hmem => h name (by simp [hmem])
    rw [List.foldl_append, List.foldl_cons, List.foldl_nil]
    by_cases hempty : front = []
    · subst hempty
      simp [child, ofParts]
    · have hname : isAbsolute ⟨name⟩ = false := by
        have hproper : ∀ other ∈ [name], other.IsProper := fun other hmem => h other (by simp_all)
        simpa [ofParts] using isAbsolute_ofParts hproper
      have hrelative := isAbsolute_ofParts hfront
      have hrelative' := isAbsolute_ofParts h
      obtain ⟨last, hlast, hloud⟩ := symbols_ofParts hfront hempty
      have hsome : (ofParts front).symbols ≠ [] := fun hnil => by simp [hnil] at hlast
      rw [ofParts_concat (fun part hpart => (h part hpart).no_slash) hempty] at hrelative' ⊢
      rw [ih hfront hempty, child, join, hname, join, hrelative, join, hrelative']
      simp only [Bool.false_eq_true, if_false]
      -- Whether the base needs a slash does not depend on what comes after it.
      split <;> simp [hsome, hlast, hloud, List.getLast?_append, List.getLast?_cons]

end Path

/-- A key that goes through proper names alone. -/
def IsPlainKey (key : String) : Prop :=
  ∀ part ∈ (Path.ofString key).parts, part.IsProper

instance (key : String) : Decidable (IsPlainKey key) :=
  inferInstanceAs (Decidable (∀ part ∈ _, Name.IsProper part))

variable {musicDir : Path} {key : String}

theorem IsPlainKey.isAbsolute (h : IsPlainKey key) : (Path.ofString key).isAbsolute = false := by
  rw [← Path.ofParts_parts (.ofString key)]
  exact Path.isAbsolute_ofParts h

/-- **A plain key is that of the path that it leads to.** -/
theorem keyOf_resolve (hm : musicDir.isAbsolute) (h : IsPlainKey key) :
    keyOf musicDir (resolve musicDir key) = key := by
  rw [keyOf, pathFrom, resolve, Path.stripBase?_join hm h.isAbsolute fun part hpart =>
    (h part hpart).loud]
  exact Path.shown_ofString key

/-- **A plain key is that of the path by which a scan comes to the file**, if the scan begins
    at a directory from which the library is reached by names. -/
theorem keyOf_eq_of_plain {t : FileTree} {base : Path} {names others : List Name}
    (hm : musicDir.isAbsolute) (hnames : ∀ name ∈ names, name.IsProper)
    (hothers : ∀ name ∈ others, name.IsProper) (hbase : musicDir = names.foldl Path.child base)
    (h : IsPlainKey key)
    (hplace : t.destination (others.foldl Path.child base) = t.destination (resolve musicDir key)) :
    keyOf musicDir (others.foldl Path.child base) = key := by
  have hkey : resolve musicDir key = (names ++ (Path.ofString key).parts).foldl Path.child base := by
    rw [List.foldl_append, ← hbase, Path.foldl_child musicDir h (Path.splitOn_ne_nil _),
      Path.ofParts_parts]
    rfl
  have hproper : ∀ name ∈ names ++ (Path.ofString key).parts, name.IsProper :=
    List.forall_mem_append.2 ⟨hnames, h⟩
  rw [hkey, FileTree.destination_foldl_child t base hothers,
    FileTree.destination_foldl_child t base hproper, List.append_cancel_left_eq] at hplace
  rw [hplace, ← hkey, keyOf_resolve hm h]

end SongLibrary
