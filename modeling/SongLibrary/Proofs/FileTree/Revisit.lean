/-
  Walks through a tree that has changed.

  * Whatever is done to move a file keeps a tree `Listed` (`organizeFile_listed`), so that
    walks through it come to every file once;
  * `mem_walk_again` and `mem_walk_sibling` compare walks before and after: as long as one
    file is found where a walk came to it, the walk comes there again, and a file that a
    later walk comes to is found by its path.
-/
import SongLibrary.Proofs.FileTree.Siblings
import SongLibrary.Proofs.FileTree.Walk
import SongLibrary.Proofs.Organize

namespace SongLibrary

namespace FileTree

variable {t t' t₀ : FileTree} {p q root : Path} {l : Location} {c : Content}

/-! ## Entries are listed once -/

theorem Listed.createDirectory (h : t.Listed) (hc : t.createDirectory p = .ok t') : t'.Listed := by
  obtain ⟨l, name, _, -, -, rfl⟩ := createDirectory_cases hc
  exact h.put (by simp) _

theorem Listed.createWith (h : t.Listed) (p : Path) (parents : List Path) :
    (t.createWith p parents).1.Listed := by
  fun_induction FileTree.createWith t p parents with
  | case2 _ p _ t' hcreate => exact h.createDirectory hcreate
  | case4 p _ _ q rest t' fault hrest ih =>
    rw [hrest] at ih
    exact ih
  | case5 p _ _ q rest t' hrest t'' hcreate ih =>
    rw [hrest] at ih
    exact ih.createDirectory hcreate
  | case6 p _ _ q rest t' hrest fault _ ih =>
    rw [hrest] at ih
    exact ih
  | _ => exact h

theorem Listed.removeDirectory (h : t.Listed) (hr : t.removeDirectory p = .ok t') : t'.Listed := by
  obtain ⟨l, -, -, -, rfl⟩ := removeDirectory_cases hr
  exact h.erase l

/-- A file may be renamed. -/
theorem Listed.rename {source target : Path} (h : t.Listed) (hs : t.find source = .ok (l, .file c))
    (hr : t.rename source target = .ok t') : t'.Listed := by
  obtain ⟨k, hlands, -, rfl⟩ := (rename_eq_ok_iff hs).1 hr
  split
  · exact h
  · exact (h.erase l).put hlands.ne_nil _

theorem Listed.createParent (h : t.Listed) (target : Path) : (createParent t target).1.Listed := by
  unfold SongLibrary.createParent
  split
  · exact h
  · next parent _ =>
    have hcreated := h.createWith parent (above (parent.names.length + 1) parent)
    unfold createDirectories
    split
    · next heq =>
      rw [heq] at hcreated
      exact hcreated
    · next heq =>
      rw [heq] at hcreated
      exact hcreated

theorem Listed.moveFile {source target : Path} {result : Except Failure Unit} (h : t.Listed)
    (hs : t.find source = .ok (l, .file c)) (hm : moveFile t source target = (t', result)) :
    t'.Listed := by
  unfold SongLibrary.moveFile at hm
  split at hm
  · next hrename =>
    cases hm
    exact h.rename hs hrename
  · split at hm
    · cases hm
      exact h
    · next t₁ hcopy =>
      simp only [FileTree.copy, hs] at hcopy
      obtain ⟨k, hlands, rfl⟩ := write_eq_ok_iff.1 hcopy
      split at hm
      · cases hm
        exact h.put hlands.ne_nil _
      · next hremove =>
        cases hm
        obtain ⟨m, _, -, rfl⟩ := removeFile_eq_ok_iff.1 hremove
        exact (h.put hlands.ne_nil _).erase m

theorem Listed.removeEmptyDirectories (h : t.Listed) (musicDir p : Path) (parents : List Path) :
    (removeEmptyDirectories musicDir t p parents).Listed := by
  fun_induction SongLibrary.removeEmptyDirectories musicDir t p parents with
  | case1 => exact h
  | case2 => exact h
  | case3 t p _ t' hremove => exact h.removeDirectory hremove
  | case4 t p _ t' hremove q rest ih => exact ih (h.removeDirectory hremove)

theorem Listed.cleanUp (h : t.Listed) (musicDir source : Path) :
    (cleanUp t musicDir source).Listed := by
  unfold SongLibrary.cleanUp
  split
  · exact h
  · exact h.removeEmptyDirectories _ _ _

/-! ## Walks before and after -/

/-- The path that a walk comes to leads through names below its root. -/
theorem exists_names_of_mem (hwf : t.WellFormed) (h : t.Listed) (hp : p ∈ t.walk root) :
    ∃ names : List Name, (∀ name ∈ names, name.IsProper) ∧ p = names.foldl Path.child root ∧
      t.destination p = t.destination root ++ names := by
  rcases mem_walk h hp with ⟨_, _, -, rfl⟩ | ⟨l, names, c, hroot, rfl, hget⟩
  · exact ⟨[], by simp, rfl, by simp⟩
  · have hproper : ∀ name ∈ names, name.IsProper := fun name hname =>
      hwf.proper_of_get? hget name (by simp [hname])
    exact ⟨names, hproper, rfl, destination_foldl_child t root hproper⟩

/-- Walks do not come to one place by two paths. -/
theorem eq_of_mem_walk (hwf₀ : t₀.WellFormed) (h₀ : t₀.Listed) (hwf : t.WellFormed) (h : t.Listed)
    (hw : t.workingDir = t₀.workingDir) (hp : p ∈ t₀.walk root) (hq : q ∈ t.walk root)
    (hsame : t.destination q = t.destination p) : q = p := by
  obtain ⟨names, -, rfl, hplace⟩ := exists_names_of_mem hwf₀ h₀ hp
  obtain ⟨others, -, rfl, hplace'⟩ := exists_names_of_mem hwf h hq
  rw [← destination_congr hw, ← destination_congr hw] at hplace
  rw [hplace, hplace', List.append_cancel_left_eq] at hsame
  rw [hsame]

/-- **A walk comes to a file again**, in a tree that has changed since, if the file is found
    there. -/
theorem mem_walk_again (hwf₀ : t₀.WellFormed) (h₀ : t₀.Listed) (hwf : t.WellFormed)
    (hw : t.workingDir = t₀.workingDir) (hroot : root.isAbsolute) (hp : p ∈ t₀.walk root)
    (hfind : t.find p = .ok (l, .file c)) : p ∈ t.walk root := by
  rcases mem_walk h₀ hp with ⟨_, _, -, rfl⟩ | ⟨l₀, names, _, hbefore, rfl, hget⟩
  · simp [walk, hfind]
  · have hproper : ∀ name ∈ names, name.IsProper := fun name hname =>
      hwf₀.proper_of_get? hget name (by simp [hname])
    have hne : names ≠ [] := by
      rintro rfl
      rw [List.append_nil, hwf₀.directory_of_find hbefore] at hget
      cases hget
    obtain ⟨hnames, habsolute⟩ := names_foldl_child root hproper
    have horigin : t.origin (names.foldl Path.child root) = t₀.origin root := by
      simp [origin, hroot, habsolute hroot]
    obtain ⟨-, hl₀⟩ := route_of_find hbefore
    -- What the names of the root lead to are directories that the file is below.
    have hdirectory : ∀ front rest : List Name, root.names = front ++ rest →
        t.get? (arrive (t₀.origin root) front) = some .directory := by
      intro front rest hfront
      rw [← horigin]
      have hnames' : (names.foldl Path.child root).names = front ++ (rest ++ names) := by
        rw [hnames, hfront, List.append_assoc]
      exact directory_of_front hwf hfind hnames' (by simp [hne])
    have hthere : t.find root = .ok (l₀, .directory) := by
      refine find_directory_of_route hw (fun d hd => ?_) ?_ hbefore
      · obtain ⟨front, rest, hfront, rfl⟩ := exists_front_of_route hd
        exact hdirectory front rest hfront
      · rw [hl₀, destination_eq_names]
        exact hdirectory root.names [] (by simp)
    refine mem_walk_below (c := c) hthere ?_
    obtain ⟨-, -, -, -, hfile⟩ := find_file_iff.1 hfind
    rw [(route_of_find hfind).2, destination_foldl_child t root hproper] at hfile
    rwa [hl₀, ← destination_congr hw]

/-- **A file that a later walk comes to is one that the walk came to before**, and is found by
    its path, if it was there and another file of the walk is found. -/
theorem mem_walk_sibling {d : Content} {e : Entry} (hwf : t.WellFormed) (h : t.Listed)
    (hwf' : t'.WellFormed) (h' : t'.Listed) (hw : t'.workingDir = t.workingDir)
    (hroot : root.isAbsolute) (hp : p ∈ t.walk root) (hfind : t.find p = .ok (l, e))
    (hq : q ∈ t'.walk root) (hne : t.destination q ≠ l)
    (hget : t.get? (t.destination q) = some (.file d)) :
    q ∈ t.walk root ∧ ∀ {m : Location} {c : Content}, t'.find q = .ok (m, .file c) →
      t.find q = .ok (m, .file d) := by
  have hplace := (route_of_find hfind).2
  rcases mem_walk h hp with ⟨_, c', hfile, rfl⟩ | ⟨l₀, names, c', hdirectory, rfl, hget'⟩
  · -- The root is a file, and nothing is below it.
    obtain ⟨others, hproper, rfl, hothers⟩ := exists_names_of_mem hwf' h' hq
    rw [destination_foldl_child t p hproper, ← hplace] at hget
    have hempty : others = [] := by
      by_contra hsome
      obtain ⟨-, -, -, -, hthere⟩ := find_file_iff.1 hfile
      rw [(route_of_find hfile).2, ← hplace] at hthere
      rw [hwf.above hget (List.prefix_append _ _) (by simpa using Ne.symm hsome)] at hthere
      cases hthere
    subst hempty
    exact absurd hplace.symm hne
  · obtain ⟨others, hproper, rfl, hothers⟩ := exists_names_of_mem hwf' h' hq
    have hproper' : ∀ name ∈ names, name.IsProper := fun name hname =>
      hwf.proper_of_get? hget' name (by simp [hname])
    have hsome : names ≠ [] := by
      rintro rfl
      rw [List.append_nil, hwf.directory_of_find hdirectory] at hget'
      cases hget'
    have hbelow := hget
    rw [destination_foldl_child t root hproper, ← (route_of_find hdirectory).2] at hbelow
    exact ⟨mem_walk_below hdirectory hbelow, fun hq => find_sibling hwf hroot hproper hproper' hsome
      hfind (by simp [Path.sameAs]) hget hw hq⟩

end FileTree

/-- **Moving a file leaves every entry listed once.** -/
theorem organizeFile_listed {t : FileTree} {source : Path} {l : Location} {c : Content}
    (musicDir : Path) (relative : String) (h : t.Listed) (hs : t.find source = .ok (l, .file c)) :
    (organizeFile t source musicDir relative).1.Listed := by
  cases hempty : relative.isEmpty with
  | true =>
    rw [organizeFile, if_pos hempty]
    exact h
  | false =>
    have hcases := organizeFile_cases musicDir hs hempty
    generalize organizeFile t source musicDir relative = result at hcases
    cases hcases with
    | same _ => exact h
    | refused _ _ hrefused _ =>
      rcases hrefused with rfl | rfl
      · exact h
      · exact h.createParent _
    | @moved t₁ t₂ _ hp _ hmove _ =>
      have hprepared := h.createParent (resolve musicDir relative)
      rw [hp.parent] at hprepared
      exact (hprepared.moveFile (hp.adds.find hs) hmove).cleanUp musicDir source

end SongLibrary
