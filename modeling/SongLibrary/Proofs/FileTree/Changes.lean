/-
  What changes of a file tree leave alone.

  * `AddsDirectories`: creating directories only adds directories
    (`createDirectories_adds`);
  * `MovesFile`: moving a file takes it from one location to another, and leaves
    the rest alone;
  * `Prunes`: removing empty directories leaves files alone, and the directories
    they are in.
-/
import SongLibrary.Organize
import SongLibrary.Proofs.FileTree.Route

namespace SongLibrary

namespace FileTree

variable {t t' : FileTree}

/-! ## Creating directories -/

/-- The second tree has all that the first has, and perhaps more directories. -/
structure AddsDirectories (t t' : FileTree) : Prop where
  workingDir : t'.workingDir = t.workingDir
  mounts : t'.mounts = t.mounts
  get? : ∀ k, t'.get? k = t.get? k ∨ t.get? k = none ∧ t'.get? k = some .directory

namespace AddsDirectories

theorem refl (t : FileTree) : AddsDirectories t t :=
  ⟨rfl, rfl, fun _ => .inl rfl⟩

theorem trans {t₁ t₂ t₃ : FileTree} (h : AddsDirectories t₁ t₂) (h' : AddsDirectories t₂ t₃) :
    AddsDirectories t₁ t₃ := by
  refine ⟨h'.workingDir.trans h.workingDir, h'.mounts.trans h.mounts, ?_⟩
  intro k
  have h₁ := h.get? k
  have h₂ := h'.get? k
  grind

theorem some {k : Location} {e : Entry} (h : AddsDirectories t t') (hk : t.get? k = .some e) :
    t'.get? k = .some e := by
  rcases h.get? k with heq | ⟨hnone, -⟩
  · rw [heq, hk]
  · rw [hk] at hnone
    cases hnone

/-- No file is added. -/
theorem file {k : Location} {c : Content} (h : AddsDirectories t t')
    (hk : t'.get? k = .some (.file c)) : t.get? k = .some (.file c) := by
  rcases h.get? k with heq | ⟨-, hdirectory⟩
  · rw [← heq, hk]
  · rw [hk] at hdirectory
    cases hdirectory

theorem find {p : Path} {l : Location} {c : Content} (h : AddsDirectories t t')
    (hp : t.find p = .ok (l, .file c)) : t'.find p = .ok (l, .file c) := by
  obtain ⟨parent, name, -, rfl, hget⟩ := find_file_iff.1 hp
  exact find_of_route h.workingDir (fun d hd => h.some ((route_of_find hp).1 d hd)) (h.some hget) hp

end AddsDirectories

theorem createDirectory_cases {p : Path} (h : t.createDirectory p = .ok t') :
    ∃ l name asDirectory, t.locate p = .ok (.entry l name asDirectory) ∧
      t.get? (l ++ [name]) = none ∧ t' = t.put (l ++ [name]) .directory := by
  unfold createDirectory at h
  split at h
  · cases h
  · cases h
  · next l name asDirectory hlocate =>
    split at h
    · cases h
    · next hfree =>
      cases h
      exact ⟨l, name, asDirectory, hlocate, hfree, rfl⟩

theorem createDirectory_adds {p : Path} (h : t.createDirectory p = .ok t') :
    AddsDirectories t t' := by
  obtain ⟨l, name, asDirectory, -, hfree, rfl⟩ := createDirectory_cases h
  refine ⟨rfl, rfl, ?_⟩
  intro k
  rw [get?_put _ (by simp)]
  split
  · next hk =>
    rw [hk]
    exact .inr ⟨hfree, rfl⟩
  · exact .inl rfl

theorem createWith_adds (p : Path) (parents : List Path) :
    AddsDirectories t (t.createWith p parents).1 := by
  fun_induction createWith t p parents with
  | case2 parents p _ t' hcreate => exact createDirectory_adds hcreate
  | case4 p _ _ q rest t' fault hrest ih =>
    rw [hrest] at ih
    exact ih
  | case5 p _ _ q rest t' hrest t'' hcreate ih =>
    rw [hrest] at ih
    exact ih.trans (createDirectory_adds hcreate)
  | case6 p _ _ q rest t' hrest fault _ ih =>
    rw [hrest] at ih
    exact ih
  | _ => exact .refl t

/-- **Creating directories only adds directories**, also if it fails. -/
theorem createDirectories_adds (p : Path) : AddsDirectories t (t.createDirectories p).1 :=
  createWith_adds p _

/-! ## Removing empty directories -/

/-- The second tree has all files that the first has, and the directories they
    are in. -/
structure Prunes (t t' : FileTree) : Prop where
  workingDir : t'.workingDir = t.workingDir
  mounts : t'.mounts = t.mounts
  get? : ∀ k, t'.get? k = t.get? k ∨
    t.get? k = some .directory ∧ ∀ m, k <+: m → t'.get? m = none

namespace Prunes

theorem refl (t : FileTree) : Prunes t t :=
  ⟨rfl, rfl, fun _ => .inl rfl⟩

/-- Nothing is added. -/
theorem none {k : Location} (h : Prunes t t') (hk : t.get? k = none) : t'.get? k = none := by
  rcases h.get? k with heq | ⟨hdirectory, -⟩
  · rw [heq, hk]
  · rw [hk] at hdirectory
    cases hdirectory

theorem trans {t₁ t₂ t₃ : FileTree} (h : Prunes t₁ t₂) (h' : Prunes t₂ t₃) : Prunes t₁ t₃ := by
  refine ⟨h'.workingDir.trans h.workingDir, h'.mounts.trans h.mounts, ?_⟩
  intro k
  rcases h.get? k with heq | ⟨hdirectory, hnone⟩
  · rw [← heq]
    exact h'.get? k
  · exact .inr ⟨hdirectory, fun m hm => h'.none (hnone m hm)⟩

/-- A file is where it was before, and was where it is. -/
theorem file_iff {k : Location} {c : Content} (h : Prunes t t') :
    t'.get? k = some (.file c) ↔ t.get? k = some (.file c) := by
  rcases h.get? k with heq | ⟨hdirectory, hnone⟩
  · rw [heq]
  · rw [hdirectory, hnone k (List.prefix_refl k)]
    simp

/-- The directories that a file is in stay. -/
theorem directory {d k : Location} {c : Content} (h : Prunes t t')
    (hk : t.get? k = some (.file c)) (hdk : d <+: k) (hd : t.get? d = some .directory) :
    t'.get? d = some .directory := by
  rcases h.get? d with heq | ⟨-, hnone⟩
  · rw [heq, hd]
  · have hkept := h.file_iff.2 hk
    rw [hnone k hdk] at hkept
    cases hkept

end Prunes

theorem removeDirectory_cases {p : Path} (h : t.removeDirectory p = .ok t') :
    ∃ l, l ≠ [] ∧ t.get? l = some .directory ∧ t.hasChildren l = false ∧ t' = t.erase l := by
  unfold removeDirectory at h
  split at h
  · cases h
  · cases h
  · next l name asDirectory _ =>
    split at h
    · cases h
    · cases h
    · next hdirectory =>
      split at h
      · cases h
      · split at h
        · cases h
        · next hempty =>
          cases h
          exact ⟨l ++ [name], by simp, hdirectory, by simpa using hempty, rfl⟩

/-- There is nothing below a directory without children. -/
theorem get?_below {l k : Location} (h : t.hasChildren l = false) (hlk : l <+: k) (hne : k ≠ l) :
    t.get? k = none := by
  have hk : k ≠ [] := by
    rintro rfl
    exact hne (List.prefix_nil.1 hlk).symm
  simp only [get?, hk, if_false, List.lookup_eq_none_iff]
  intro e he
  have hchild := List.any_eq_false.1 h e he
  simp only [Bool.and_eq_true, List.isPrefixOf_iff_prefix, bne_iff_ne] at hchild
  have hke : k ≠ e.1 := by
    rintro rfl
    exact hchild ⟨hlk, hne⟩
  simpa using hke

theorem removeDirectory_prunes {p : Path} (h : t.removeDirectory p = .ok t') : Prunes t t' := by
  obtain ⟨l, hl, hdirectory, hempty, rfl⟩ := removeDirectory_cases h
  refine ⟨rfl, rfl, ?_⟩
  intro k
  rw [get?_erase _ hl]
  split
  · next hk =>
    subst hk
    refine .inr ⟨hdirectory, ?_⟩
    intro m hm
    rw [get?_erase _ hl]
    split
    · rfl
    · next hne => exact get?_below hempty hm hne
  · exact .inl rfl

/-! ## Files -/

variable (t) in
/-- There is a file at a location. -/
def HasFile (l : Location) : Prop :=
  ∃ c, t.get? l = some (.file c)

instance (l : Location) : Decidable (t.HasFile l) :=
  match h : t.get? l with
  | some (.file c) => isTrue ⟨c, h⟩
  | some .directory => isFalse fun ⟨_, hc⟩ => by simp [h] at hc
  | none => isFalse fun ⟨_, hc⟩ => by simp [h] at hc

theorem hasFile_of_iff {l : Location}
    (h : ∀ c, t'.get? l = some (.file c) ↔ t.get? l = some (.file c)) :
    t'.HasFile l ↔ t.HasFile l :=
  exists_congr h

theorem HasFile.iff {l : Location} (h : t.HasFile l) (m : Location) :
    t.HasFile m ↔ m = l ∨ m ≠ l ∧ t.HasFile m := by
  by_cases hm : m = l
  · simp [hm, h]
  · simp [hm]

theorem AddsDirectories.hasFile (h : AddsDirectories t t') (l : Location) :
    t'.HasFile l ↔ t.HasFile l :=
  hasFile_of_iff fun _ => ⟨h.file, h.some⟩

theorem Prunes.hasFile (h : Prunes t t') (l : Location) : t'.HasFile l ↔ t.HasFile l :=
  hasFile_of_iff fun _ => h.file_iff

/-- A file has moved from one location to another, and nothing else. -/
structure MovesFile (t t' : FileTree) (l k : Location) (c : Content) : Prop where
  workingDir : t'.workingDir = t.workingDir
  mounts : t'.mounts = t.mounts
  get? : ∀ m, t'.get? m = if m = k then some (.file c) else if m = l then none else t.get? m

theorem MovesFile.hasFile {l k : Location} {c : Content} (h : MovesFile t t' l k c) (m : Location) :
    t'.HasFile m ↔ m = k ∨ m ≠ l ∧ t.HasFile m := by
  unfold HasFile
  rw [h.get?]
  by_cases hmk : m = k
  · simp [hmk]
  · by_cases hml : m = l
    · simp [hml, show l ≠ k from hml ▸ hmk]
    · simp [hmk, hml]

/-- A file can be put where a path leads: under the last name of the path in a
    directory, where no directory is. -/
def Lands (t : FileTree) (p : Path) (l : Location) : Prop :=
  ∃ parent name, t.locate p = .ok (.entry parent name false) ∧ l = parent ++ [name] ∧
    t.get? l ≠ some .directory

theorem Lands.ne_nil {p : Path} {l : Location} (h : t.Lands p l) : l ≠ [] := by
  obtain ⟨parent, name, -, rfl, -⟩ := h
  simp

theorem Lands.unique {p : Path} {l k : Location} (h : t.Lands p l) (h' : t.Lands p k) : l = k := by
  obtain ⟨parent, name, hlocate, rfl, -⟩ := h
  obtain ⟨parent', name', hlocate', rfl, -⟩ := h'
  rw [hlocate] at hlocate'
  cases hlocate'
  rfl

theorem Lands.eq_destination {p : Path} {l : Location} (h : t.Lands p l) : l = t.destination p := by
  obtain ⟨parent, name, hlocate, rfl, -⟩ := h
  exact location_of_locate hlocate

theorem Lands.of_find {p : Path} {l : Location} {c : Content} (h : t.find p = .ok (l, .file c)) :
    t.Lands p l := by
  obtain ⟨parent, name, hlocate, rfl, hget⟩ := find_file_iff.1 h
  exact ⟨parent, name, hlocate, rfl, by simp [hget]⟩

/-- Writing a file puts it where its path leads, or fails. -/
theorem write_eq_ok_iff {p : Path} {c : Content} :
    t.write p c = .ok t' ↔ ∃ l, t.Lands p l ∧ t' = t.put l (.file c) := by
  constructor
  · intro h
    unfold write at h
    -- What refuses comes first: a directory, a slash at the end, a name that is too long.
    split at h
    · cases h
    · cases h
    · next l name asDirectory hfollow =>
      split at h
      · cases h
      · next hfile =>
        split at h
        · cases h
        · next hshort =>
          have hlocate : t.locate p = .ok (.entry l name false) := by
            have hfalse : asDirectory = false := by simpa using hfile
            refine locate_eq_ok_iff.2 ⟨hfalse ▸ hfollow, ?_⟩
            rintro _ _ _ ⟨⟩
            simpa using hshort
          split at h
          · cases h
          · next hget =>
            cases h
            exact ⟨l ++ [name], ⟨l, name, hlocate, rfl, by simp [hget]⟩, rfl⟩
          · next hget =>
            cases h
            exact ⟨l ++ [name], ⟨l, name, hlocate, rfl, by simp [hget]⟩, rfl⟩
  · rintro ⟨l, ⟨parent, name, hlocate, rfl, hfree⟩, rfl⟩
    obtain ⟨hfollow, hshort⟩ := locate_eq_ok_iff.1 hlocate
    unfold write
    simp only [hfollow, hshort _ _ _ rfl, Bool.false_eq_true, if_false]
    split
    · next hget => exact absurd hget hfree
    · rfl
    · rfl

/-- Removing a file removes what its path leads to, or fails. -/
theorem removeFile_eq_ok_iff {p : Path} :
    t.removeFile p = .ok t' ↔ ∃ l c, t.find p = .ok (l, .file c) ∧ t' = t.erase l := by
  unfold removeFile find
  cases t.locate p with
  | error fault => simp
  | ok spot =>
    simp only
    cases t.entryAt spot with
    | error fault => simp
    | ok found =>
      obtain ⟨l, e⟩ := found
      cases e <;> simp [@eq_comm _ _ t']

/-- A file is missing just if its directory, or it, is not there. -/
theorem get?_of_removeFile_notFound {p : Path} (hp : (Text.encode p.symbols).isEmpty = false)
    (hr : ∀ d ∈ t.route p, t.get? d = some .directory) (h : t.removeFile p = .error .notFound) :
    t.get? (t.destination p) = none := by
  unfold removeFile at h
  split at h
  · next fault hlocate =>
    cases h
    unfold locate at hlocate
    split at hlocate
    · split at hlocate <;> cases hlocate
    · exact absurd hlocate (follow_ne_notFound hp hr)
  · next spot hlocate =>
    have hlocation := location_of_locate hlocate
    split at h
    · next fault hentry =>
      cases h
      unfold entryAt at hentry
      split at hentry
      · cases hentry
      · split at hentry
        · next hnone =>
          rw [← hlocation]
          exact hnone
        · cases hentry
        · split at hentry <;> cases hentry
    · cases h
    · cases h

/-- A file that is renamed is found. -/
theorem find_of_rename {source target : Path} {c : Content}
    (hget : t.get? (t.destination source) = some (.file c))
    (h : t.rename source target = .ok t') :
    t.find source = .ok (t.destination source, .file c) := by
  unfold rename at h
  split at h
  · cases h
  · split at h <;> cases h
  · next l name asDirectory hlocate =>
    have hl : t.destination source = l ++ [name] := (location_of_locate hlocate).symm
    rw [hl] at hget ⊢
    split at h
    · cases h
    · cases h
    · dsimp only at h
      split at h
      · cases h
      · simp only [hget] at h
        split at h
        · cases h
        · next hfile =>
          have hfalse : asDirectory = false := by
            simp only [Bool.or_eq_true, not_or, Bool.not_eq_true] at hfile
            exact hfile.1
          exact find_file_iff.2 ⟨l, name, hfalse ▸ hlocate, rfl, hget⟩

/-- Renaming a file moves it to where the target leads, on one device. -/
theorem rename_eq_ok_iff {source target : Path} {l : Location} {c : Content}
    (hs : t.find source = .ok (l, .file c)) :
    t.rename source target = .ok t' ↔
      ∃ k, t.Lands target k ∧ t.sameDevice l.dropLast k.dropLast ∧
        t' = if l = k then t else (t.erase l).put k (.file c) := by
  obtain ⟨parent, name, hlocate, rfl, hget⟩ := find_file_iff.1 hs
  simp only [List.dropLast_concat]
  unfold rename
  simp only [hlocate]
  constructor
  · intro h
    -- What refuses comes first: a directory, another device, a slash at the end.
    split at h
    · cases h
    · cases h
    · next b m asDirectory htarget =>
      split at h
      · cases h
      · next hdevice =>
        simp only [hget] at h
        split at h
        · cases h
        · next hfile =>
          have hfalse : asDirectory = false := by simpa using hfile
          subst hfalse
          have hdevice : t.sameDevice parent b := by simpa using hdevice
          split at h
          · next heq =>
            cases h
            refine ⟨b ++ [m], ⟨b, m, htarget, rfl, ?_⟩, by simpa using hdevice, by simp [heq]⟩
            rw [← heq, hget]
            simp
          · next hne =>
            split at h
            · cases h
            · next hfree =>
              cases h
              exact ⟨b ++ [m], ⟨b, m, htarget, rfl, by simp [hfree]⟩, by simpa using hdevice,
                by simp [hne]⟩
            · next hfree =>
              cases h
              exact ⟨b ++ [m], ⟨b, m, htarget, rfl, by simp [hfree]⟩, by simpa using hdevice,
                by simp [hne]⟩
  · rintro ⟨k, ⟨b, m, htarget, rfl, hfree⟩, hdevice, rfl⟩
    simp only [List.dropLast_concat] at hdevice
    simp only [htarget, hdevice, hget]
    by_cases heq : parent ++ [name] = b ++ [m]
    · simp [heq]
    · simp only [heq, if_false, Bool.not_true, Bool.false_eq_true, Bool.or_self]
      split
      · next hk => exact absurd hk hfree
      · rfl
      · rfl

/-- A file that is renamed is moved. -/
theorem moves_of_rename {source target : Path} {l : Location} {c : Content}
    (hs : t.find source = .ok (l, .file c)) (h : t.rename source target = .ok t') :
    ∃ k, t.Lands target k ∧ (k = l ∧ t' = t ∨ k ≠ l ∧ MovesFile t t' l k c) := by
  have hl := (Lands.of_find hs).ne_nil
  obtain ⟨k, hlands, -, heq⟩ := (rename_eq_ok_iff hs).1 h
  refine ⟨k, hlands, ?_⟩
  split at heq
  · next hlk => exact .inl ⟨hlk.symm, heq⟩
  · next hlk =>
    subst heq
    refine .inr ⟨fun e => hlk e.symm, rfl, rfl, ?_⟩
    intro m
    rw [get?_put _ hlands.ne_nil, get?_erase _ hl]

end FileTree

end SongLibrary
