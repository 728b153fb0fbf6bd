/-
  File trees that hang together.

  In a well-formed tree everything is in a directory and has a proper name
  (`WellFormed`), and every change keeps that.  A file at the end of a direct path
  is found by that path, if the path is found in some tree
  (`WellFormed.find_of_direct`) or can be that of a file (`WellFormed.find_of_leads`).
-/
import Mathlib.Data.List.Induction
import Mathlib.Tactic.ByContra
import SongLibrary.Proofs.FileTree.Changes
import SongLibrary.Proofs.Path

namespace SongLibrary.FileTree

variable {t t' : FileTree}

/-- Everything in a tree is in a directory, under a proper name. -/
structure WellFormed (t : FileTree) : Prop where
  parent : ∀ l name e, t.get? (l ++ [name]) = some e → t.get? l = some .directory
  proper : ∀ l name e, t.get? (l ++ [name]) = some e → name.IsProper
  workingDir : ∀ name ∈ t.workingDir, name.IsProper

@[simp] theorem get?_nil (t : FileTree) : t.get? [] = some .directory := by
  simp [get?]

namespace WellFormed

/-- A tree may be checked entry by entry. -/
theorem of_entries (h : ∀ e ∈ t.entries, t.get? e.1.dropLast = some .directory ∧
      ∀ name ∈ e.1, name.IsProper) (hw : ∀ name ∈ t.workingDir, name.IsProper) :
    t.WellFormed := by
  have hmem : ∀ l name e, t.get? (l ++ [name]) = some e → (l ++ [name], e) ∈ t.entries := by
    intro l name e hk
    simp only [get?, List.append_eq_nil_iff, List.cons_ne_nil, and_false, if_false] at hk
    obtain ⟨before, after, heq, -⟩ := List.lookup_eq_some_iff.1 hk
    rw [heq]
    simp
  refine ⟨?_, ?_, hw⟩
  · intro l name e hk
    have hparent := (h _ (hmem l name e hk)).1
    rwa [List.dropLast_concat] at hparent
  · intro l name e hk
    exact (h _ (hmem l name e hk)).2 name (by simp)

/-- What is above an entry is a directory. -/
theorem above (h : t.WellFormed) {d k : Location} {e : Entry} (hk : t.get? k = some e)
    (hdk : d <+: k) (hne : d ≠ k) : t.get? d = some .directory := by
  obtain ⟨rest, rfl⟩ := hdk
  induction rest using List.reverseRecOn generalizing e with
  | nil => simp at hne
  | append_singleton rest name ih =>
    rw [← List.append_assoc] at hk
    have hparent := h.parent _ _ _ hk
    by_cases hrest : rest = []
    · simpa [hrest] using hparent
    · exact ih hparent (by simpa using hrest)

theorem dropLast (h : t.WellFormed) {l : Location} (hl : t.get? l = some .directory) :
    t.get? l.dropLast = some .directory := by
  rcases List.eq_nil_or_concat l with rfl | ⟨front, name, rfl⟩
  · exact get?_nil t
  · rw [List.concat_eq_append] at hl ⊢
    rw [List.dropLast_concat]
    exact h.parent _ _ _ hl

/-- The parts of a path lead from a directory to a directory, if those on the way
    are there. -/
theorem arrive (h : t.WellFormed) {l : Location} {parts : List Name}
    (hl : t.get? l = some .directory) (hway : ∀ d ∈ way l parts, t.get? d = some .directory) :
    t.get? (arrive l parts) = some .directory := by
  induction parts generalizing l with
  | nil => exact hl
  | cons part rest ih =>
    simp only [arrive_cons]
    by_cases hs : part.isSilent
    · simp only [way, hs, Bool.true_or, if_true] at hway
      refine ih ?_ hway
      simpa [arriveAt, hs] using hl
    · by_cases hu : part = Name.up
      · subst hu
        simp only [way, beq_self_eq_true, Bool.or_true, if_true] at hway
        refine ih ?_ hway
        simpa [arriveAt, hs] using h.dropLast hl
      · simp only [way, hs, Bool.false_or, beq_iff_eq, hu, if_false, List.forall_mem_cons] at hway
        refine ih ?_ hway.2
        simpa [arriveAt, hs, hu] using hway.1

/-- The directory that a located entry is in, or would be, is there, and the name
    is a proper one. -/
theorem of_locate (h : t.WellFormed) {p : Path} {l : Location} {name : Name} {asDirectory : Bool}
    (hp : t.locate p = .ok (.entry l name asDirectory)) :
    t.get? l = some .directory ∧ name.IsProper := by
  obtain ⟨-, hspot, hroute⟩ := follow_eq_ok_iff.1 (locate_eq_ok_iff.1 hp).1
  rw [route, List.forall_mem_cons] at hroute
  unfold spotOf at hspot
  simp only at hspot
  split at hspot
  · cases hspot
  · next last hlast =>
    split at hspot
    · cases hspot
    · next hhere =>
      split at hspot
      · cases hspot
      · next hup =>
        cases hspot
        have hmem := List.mem_filter.1 (List.mem_of_getLast? hlast)
        refine ⟨h.arrive hroute.1 hroute.2, ?_, hup, Path.slash_not_mem_of_mem_parts hmem.1⟩
        have hempty : name.isEmpty = false := by simpa using hmem.2
        simp [Name.isSilent, hempty, hhere]

/-- A directory that is found is there. -/
theorem directory_of_find (h : t.WellFormed) {p : Path} {l : Location}
    (hp : t.find p = .ok (l, .directory)) : t.get? l = some .directory := by
  unfold find at hp
  split at hp
  · next spot hlocate =>
    cases spot with
    | directory k =>
      cases hp
      obtain ⟨-, hspot, hroute⟩ := follow_eq_ok_iff.1 (locate_eq_ok_iff.1 hlocate).1
      rw [route, List.forall_mem_cons] at hroute
      have harrived := h.arrive hroute.1 hroute.2
      unfold spotOf at hspot
      simp only at hspot
      split at hspot
      · cases hspot
        exact hroute.1
      · split at hspot
        · cases hspot
          exact harrived
        · split at hspot
          · cases hspot
            exact h.dropLast harrived
          · cases hspot
    | entry parent name asDirectory =>
      unfold entryAt at hp
      dsimp only at hp
      split at hp
      · cases hp
      · next hget =>
        cases hp
        exact hget
      · split at hp <;> cases hp
  · cases hp

/-! ## Changes -/

theorem of_get? (h : t.WellFormed) (hw : t'.workingDir = t.workingDir)
    (hget : ∀ k, t'.get? k = t.get? k) : t'.WellFormed := by
  refine ⟨?_, ?_, hw ▸ h.workingDir⟩
  · intro l name e hk
    rw [hget] at hk ⊢
    exact h.parent l name e hk
  · intro l name e hk
    rw [hget] at hk
    exact h.proper l name e hk

/-- An entry may be put into a directory, where no directory becomes a file. -/
theorem put (h : t.WellFormed) {l : Location} {name : Name} {e : Entry}
    (hl : t.get? l = some .directory) (hname : name.IsProper)
    (hfree : t.get? (l ++ [name]) = some .directory → e = .directory) :
    (t.put (l ++ [name]) e).WellFormed := by
  have hget : ∀ k, (t.put (l ++ [name]) e).get? k = if k = l ++ [name] then some e else t.get? k :=
    fun k => get?_put t (by simp) e k
  have hkeeps : ∀ k, t.get? k = some .directory →
      (t.put (l ++ [name]) e).get? k = some .directory := by
    intro k hk
    rw [hget]
    split
    · next heq => rw [hfree (heq ▸ hk)]
    · exact hk
  refine ⟨?_, ?_, h.workingDir⟩
  · intro k name' e' hk
    rw [hget] at hk
    split at hk
    · next heq =>
      obtain ⟨rfl, -⟩ := List.append_inj' heq rfl
      exact hkeeps k hl
    · exact hkeeps k (h.parent _ _ _ hk)
  · intro k name' e' hk
    rw [hget] at hk
    split at hk
    · next heq =>
      obtain ⟨-, heq⟩ := List.append_inj' heq rfl
      cases heq
      exact hname
    · exact h.proper _ _ _ hk

/-- A file may be put where a path leads. -/
theorem put_file (h : t.WellFormed) {p : Path} {l : Location} (hl : t.Lands p l) (c : Content) :
    (t.put l (.file c)).WellFormed := by
  obtain ⟨parent, name, hlocate, rfl, hfree⟩ := hl
  obtain ⟨hparent, hname⟩ := h.of_locate hlocate
  exact h.put hparent hname fun hdir => absurd hdir hfree

/-- A file may be written again. -/
theorem rewrite_file (h : t.WellFormed) {l : Location} {c d : Content}
    (hl : t.get? l = some (.file d)) : (t.put l (.file c)).WellFormed := by
  rcases List.eq_nil_or_concat l with rfl | ⟨front, name, rfl⟩
  · simp at hl
  · rw [List.concat_eq_append] at hl ⊢
    refine h.put (h.parent _ _ _ hl) (h.proper _ _ _ hl) ?_
    intro hdir
    rw [hl] at hdir
    cases hdir

/-- A file may be removed. -/
theorem erase_file (h : t.WellFormed) {l : Location} {c : Content}
    (hl : t.get? l = some (.file c)) : (t.erase l).WellFormed := by
  have hne : l ≠ [] := by
    rintro rfl
    simp at hl
  refine ⟨?_, ?_, h.workingDir⟩
  · intro k name e hk
    rw [get?_erase _ hne] at hk
    split at hk
    · cases hk
    · have hdir := h.parent _ _ _ hk
      rw [get?_erase _ hne, if_neg]
      · exact hdir
      · rintro rfl
        rw [hl] at hdir
        cases hdir
  · intro k name e hk
    rw [get?_erase _ hne] at hk
    split at hk
    · cases hk
    · exact h.proper _ _ _ hk

/-- A file may be moved to where a path leads. -/
theorem moves (h : t.WellFormed) {p : Path} {l k : Location} {c d : Content}
    (hl : t.get? l = some (.file d)) (hk : t.Lands p k) (hne : k ≠ l)
    (hm : MovesFile t t' l k c) : t'.WellFormed := by
  have hlne : l ≠ [] := by
    rintro rfl
    simp at hl
  have hl' : (t.put k (.file c)).get? l = some (.file d) := by
    rw [get?_put _ hk.ne_nil, if_neg (Ne.symm hne), hl]
  refine ((h.put_file hk c).erase_file hl').of_get? hm.workingDir ?_
  intro m
  rw [hm.get?, get?_erase _ hlne, get?_put _ hk.ne_nil]
  by_cases hml : m = l
  · simp [hml, Ne.symm hne]
  · simp [hml]

/-- Directories may be created. -/
theorem createDirectories (h : t.WellFormed) (p : Path) : (t.createDirectories p).1.WellFormed := by
  have hone : ∀ {t t' : FileTree} {p : Path}, t.WellFormed → t.createDirectory p = .ok t' →
      t'.WellFormed := by
    intro t t' p h hc
    obtain ⟨l, name, asDirectory, hlocate, -, rfl⟩ := createDirectory_cases hc
    obtain ⟨hparent, hname⟩ := h.of_locate hlocate
    exact h.put hparent hname fun _ => rfl
  unfold FileTree.createDirectories
  generalize FileTree.above (p.names.length + 1) p = parents
  fun_induction createWith t p parents with
  | case2 parents p _ t' hcreate => exact hone h hcreate
  | case4 p _ _ q rest t' fault hrest ih =>
    rw [hrest] at ih
    exact ih
  | case5 p _ _ q rest t' hrest t'' hcreate ih =>
    rw [hrest] at ih
    exact hone ih hcreate
  | case6 p _ _ q rest t' hrest fault _ ih =>
    rw [hrest] at ih
    exact ih
  | _ => exact h

/-- Empty directories may be removed. -/
theorem prunes (h : t.WellFormed) (hp : Prunes t t') : t'.WellFormed := by
  have hbefore : ∀ k e, t'.get? k = some e → t.get? k = some e := by
    intro k e hk
    rcases hp.get? k with heq | ⟨-, hnone⟩
    · rw [← heq, hk]
    · rw [hnone _ (List.prefix_refl _)] at hk
      cases hk
  refine ⟨?_, fun l name e hk => h.proper l name e (hbefore _ _ hk),
    hp.workingDir ▸ h.workingDir⟩
  intro l name e hk
  rcases hp.get? l with heq | ⟨-, hnone⟩
  · rw [heq]
    exact h.parent l name e (hbefore _ _ hk)
  · rw [hnone _ (List.prefix_append l [name])] at hk
    cases hk

/-! ## Direct paths -/

/-- A file at the end of a direct path is found by the path, if it is found there
    in some tree. -/
theorem find_of_direct (h : t.WellFormed) {p : Path} {k : Location} {c d : Content}
    (hw : t'.workingDir = t.workingDir) (hp : t'.find p = .ok (k, .file c)) (hd : t.IsDirect p)
    (hk : t.get? k = some (.file d)) : t.find p = .ok (k, .file d) := by
  obtain ⟨hroute, hdest⟩ := route_of_find hp
  obtain ⟨-, -, -, -, hget⟩ := find_file_iff.1 hp
  refine find_of_route hw.symm ?_ hk hp
  intro m hm
  rw [destination_congr hw] at hdest
  have hmk : m <+: k := by
    rw [hdest]
    exact hd m (route_congr hw p ▸ hm)
  refine h.above hk hmk ?_
  rintro rfl
  rw [hroute m hm] at hget
  cases hget

end WellFormed

/-! ## Paths of files -/

/-- A spot that a file can be at: a name, short enough, without a slash after it. -/
def canHoldFile : Spot → Bool
  | .entry _ name false => !isTooLong name
  | _ => false

/-- A path that can be that of a file, and leads there directly. -/
structure Leads (t : FileTree) (p : Path) : Prop where
  followable : isFollowable p
  spot : canHoldFile (t.spotOf p)
  direct : t.IsDirect p
  /-- The file is no directory on the way. -/
  apart : t.destination p ∉ t.route p

instance (t : FileTree) (p : Path) : Decidable (t.Leads p) :=
  have : Decidable (isFollowable p) := inferInstanceAs (Decidable (_ ∧ _))
  decidable_of_iff (isFollowable p ∧ canHoldFile (t.spotOf p) ∧ t.IsDirect p ∧
      t.destination p ∉ t.route p)
    ⟨fun ⟨h₁, h₂, h₃, h₄⟩ => ⟨h₁, h₂, h₃, h₄⟩,
      fun h => ⟨h.followable, h.spot, h.direct, h.apart⟩⟩

theorem leads_congr (h : t'.workingDir = t.workingDir) {p : Path} : t'.Leads p ↔ t.Leads p := by
  have hspot : t'.spotOf p = t.spotOf p := by simp [spotOf, origin_congr h]
  constructor
  · rintro ⟨h₁, h₂, h₃, h₄⟩
    rw [hspot] at h₂
    rw [isDirect_congr h] at h₃
    rw [destination_congr h, route_congr h] at h₄
    exact ⟨h₁, h₂, h₃, h₄⟩
  · rintro ⟨h₁, h₂, h₃, h₄⟩
    rw [← hspot] at h₂
    rw [← isDirect_congr h] at h₃
    rw [← destination_congr h, ← route_congr h] at h₄
    exact ⟨h₁, h₂, h₃, h₄⟩

/-- **A path that leads to a file finds it.** -/
theorem WellFormed.find_of_leads (h : t.WellFormed) {p : Path} {c : Content} (hp : t.Leads p)
    (hget : t.get? (t.destination p) = some (.file c)) :
    t.find p = .ok (t.destination p, .file c) := by
  have hroute : ∀ d ∈ t.route p, t.get? d = some .directory := by
    intro d hd
    refine h.above hget (hp.direct d hd) ?_
    rintro rfl
    exact hp.apart hd
  have hspot := hp.spot
  have hlocation := location_spotOf (t := t) p
  cases hcase : t.spotOf p with
  | directory l =>
    rw [hcase] at hspot
    cases hspot
  | entry parent name asDirectory =>
    rw [hcase] at hspot hlocation
    cases asDirectory with
    | true => cases hspot
    | false =>
      have hfollow : t.follow p = .ok (.entry parent name false) :=
        follow_eq_ok_iff.2 ⟨hp.followable, hcase.symm, hroute⟩
      have hlocate : t.locate p = .ok (.entry parent name false) := by
        refine locate_eq_ok_iff.2 ⟨hfollow, ?_⟩
        rintro _ _ _ ⟨⟩
        simpa [canHoldFile] using hspot
      exact find_file_iff.2 ⟨parent, name, hlocate, hlocation.symm, hget⟩

end SongLibrary.FileTree
