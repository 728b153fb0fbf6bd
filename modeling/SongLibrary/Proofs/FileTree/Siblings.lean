/-
  Files that a walk comes to, beside each other.

  * a path leads through directories that its first names lead to
    (`exists_front_of_route`), and through all of them (`directory_of_front`);
  * so a file that a walk comes to is found as long as another one is, and it is still
    there (`find_sibling`).
-/
import SongLibrary.Proofs.FileTree.Walk
import SongLibrary.Proofs.Location

namespace SongLibrary

/-- A directory on the way is where some first parts lead. -/
theorem exists_front_of_way {l d : Location} {parts : List Name} (h : d ∈ way l parts) :
    ∃ front rest, parts = front ++ rest ∧ d = arrive l front := by
  induction parts generalizing l with
  | nil => simp [way] at h
  | cons part parts ih =>
    have hlater : d ∈ way (arriveAt l part) parts →
        ∃ front rest, part :: parts = front ++ rest ∧ d = arrive l front := by
      intro h
      obtain ⟨front, rest, rfl, rfl⟩ := ih h
      exact ⟨part :: front, rest, rfl, rfl⟩
    unfold way at h
    split at h
    · exact hlater h
    · next hloud =>
      rcases List.mem_cons.1 h with rfl | h
      · simp only [Bool.or_eq_true, beq_iff_eq, not_or] at hloud
        exact ⟨[part], parts, rfl, by simp [arriveAt, hloud]⟩
      · exact hlater h

theorem way_subset_append (l : Location) (parts rest : List Name) :
    way l parts ⊆ way l (parts ++ rest) := by
  induction parts generalizing l with
  | nil => simp [way]
  | cons part parts ih =>
    rw [List.cons_append]
    unfold way
    split
    · exact ih _
    · exact List.cons_subset_cons _ (ih _)

namespace FileTree

variable {t t₁ : FileTree} {p root target : Path} {l m : Location} {c : Content}

theorem names_eq_filter_parts (p : Path) :
    p.names = (p.parts.filter (!·.isEmpty)).filter fun part => !part.isSilent := by
  rw [Path.names_eq_filter, List.filter_filter]
  refine List.filter_congr fun part _ => ?_
  cases hempty : part.isEmpty <;> simp [Name.isSilent, hempty]

theorem arrive_loud (l : Location) (parts : List Name) :
    arrive l (parts.filter fun part => !part.isSilent) = arrive l parts :=
  arrive_filter (fun part h => by simpa using h) l parts

/-- A path leads through directories that its first names lead to. -/
theorem exists_front_of_route (h : m ∈ t.route p) :
    ∃ front rest, p.names = front ++ rest ∧ m = arrive (t.origin p) front := by
  rcases List.mem_cons.1 h with rfl | h
  · exact ⟨[], p.names, rfl, rfl⟩
  · obtain ⟨front, rest, hparts, rfl⟩ := exists_front_of_way h
    obtain ⟨last, hlast⟩ := List.dropLast_prefix (p.parts.filter (!·.isEmpty))
    rw [hparts] at hlast
    refine ⟨front.filter fun part => !part.isSilent, (rest ++ last).filter fun part => !part.isSilent,
      ?_, (arrive_loud _ front).symm⟩
    rw [names_eq_filter_parts, ← hlast, List.append_assoc, List.filter_append]

/-- The names of a path that finds something, but for the last, lead to directories. -/
theorem directory_of_front (hwf : t.WellFormed) {e : Entry} (h : t.find p = .ok (l, e))
    {front rest : List Name} (hnames : p.names = front ++ rest) (hrest : rest ≠ []) :
    t.get? (arrive (t.origin p) front) = some .directory := by
  have hroute := (route_of_find h).1
  rw [names_eq_filter_parts, List.filter_eq_append_iff] at hnames
  obtain ⟨before, after, hparts, rfl, hafter⟩ := hnames
  have hne : after ≠ [] := by
    rintro rfl
    exact hrest hafter.symm
  rw [arrive_loud]
  refine hwf.arrive (hroute _ (List.mem_cons_self ..)) fun d hd => hroute d ?_
  refine List.mem_cons_of_mem _ ?_
  rw [hparts, List.dropLast_append_of_ne_nil hne]
  exact way_subset_append _ _ _ hd

/-! ## Below a directory -/

theorem names_foldl_child (root : Path) {names : List Name}
    (hproper : ∀ name ∈ names, name.IsProper) :
    (names.foldl Path.child root).names = root.names ++ names ∧
      (root.isAbsolute → (names.foldl Path.child root).isAbsolute) := by
  induction names generalizing root with
  | nil => exact ⟨(List.append_nil _).symm, id⟩
  | cons name names ih =>
    obtain ⟨hname, hproper⟩ := List.forall_mem_cons.1 hproper
    have hrelative : Path.isAbsolute ⟨name⟩ = false := by
      rw [Bool.eq_false_iff]
      exact fun h => hname.no_slash (List.mem_of_mem_head? ((Path.isAbsolute_iff ⟨name⟩).1 h))
    have hone : Path.names ⟨name⟩ = [name] := by
      rw [Path.names_eq_filter, Path.parts_of_name hname.no_slash]
      simp [hname.loud]
    obtain ⟨hnames, habsolute⟩ := ih (root.child name) hproper
    refine ⟨?_, fun hroot => habsolute (Path.isAbsolute_join hroot _)⟩
    rw [List.foldl_cons, hnames, Path.child, Path.names_join root hrelative, hone,
      List.append_assoc, List.singleton_append]

/-- **A file below a directory is found as long as another one is**, by any path with the
    same names that finds it in a tree with more directories. -/
theorem find_sibling (hwf : t.WellFormed) (hroot : root.isAbsolute) {names others : List Name}
    (hproper : ∀ name ∈ names, name.IsProper) (hothers : ∀ name ∈ others, name.IsProper)
    (hne : others ≠ []) {e : Entry} (hother : t.find (others.foldl Path.child root) = .ok (l, e))
    (htarget : target.sameAs (names.foldl Path.child root)) {d : Content}
    (hget : t.get? (t.destination target) = some (.file d)) (hw : t₁.workingDir = t.workingDir)
    (hfind : t₁.find target = .ok (m, .file c)) : t.find target = .ok (m, .file d) := by
  obtain ⟨hdirs, hm⟩ := route_of_find hfind
  obtain ⟨hnames, habsolute⟩ := names_foldl_child root hproper
  obtain ⟨hnames', habsolute'⟩ := names_foldl_child root hothers
  obtain ⟨hstart, hsame⟩ : target.start = (names.foldl Path.child root).start ∧
      target.names = (names.foldl Path.child root).names := by
    simpa [Path.sameAs, Path.components] using htarget
  have horigin : t.origin target = [] := by
    have habs : target.isAbsolute := by
      rw [Path.isAbsolute, hstart]
      exact habsolute hroot
    rw [origin, habs, if_pos rfl]
  have horigin' : t.origin (others.foldl Path.child root) = [] := by
    rw [origin, habsolute' hroot, if_pos rfl]
  rw [hnames] at hsame
  rw [destination_congr hw] at hm
  rw [route_congr hw] at hdirs
  refine find_of_route hw.symm (fun dir hdir => ?_) (hm ▸ hget) hfind
  rw [route_congr hw] at hdir
  obtain ⟨front, rest, hfront, rfl⟩ := exists_front_of_route hdir
  have hnot : arrive (t.origin target) front ≠ m := by
    intro heq
    obtain ⟨-, -, -, -, hfile⟩ := find_file_iff.1 hfind
    have hdirectory := hdirs _ hdir
    rw [heq, hfile] at hdirectory
    cases hdirectory
  rw [hsame] at hfront
  rcases List.append_eq_append_iff.1 hfront.symm with ⟨more, hroot', -⟩ | ⟨more, rfl, hnames''⟩
  · -- The other file is found through the directories that lead to the first one.
    rw [horigin, ← horigin']
    have hothers' : (others.foldl Path.child root).names = front ++ (more ++ others) := by
      rw [hnames', hroot', List.append_assoc]
    exact directory_of_front hwf hother hothers' (by simp [hne])
  · -- The file is there, and so are the directories above it.
    have hproper' : ∀ name ∈ more, name.IsProper := fun name hname =>
      hproper name (hnames'' ▸ List.mem_append_left _ hname)
    have hend : m = arrive (t.origin target) (root.names ++ more) ++ rest := by
      rw [hm, destination_eq_names, hsame, hnames'', ← List.append_assoc, arrive_append,
        arrive_of_proper fun name hname => hproper name (hnames'' ▸ List.mem_append_right _ hname)]
    exact hwf.above (hm ▸ hget) ⟨rest, hend.symm⟩ hnot

end FileTree

end SongLibrary
