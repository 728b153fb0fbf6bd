/-
  The paths that a walk comes to.

  * `destination_child`: the path of a name in a directory leads to that name;
  * in a tree that lists every entry once (`Listed`), a walk comes to files
    (`mem_walk`, `file_of_mem_walk`), and to each of them once (`nodup_walk`);
  * a walk comes to the files that it comes to in a tree with no other directories
    (`mem_walk_of`).
-/
import Mathlib.Data.List.Nodup
import SongLibrary.FileTree.Walk
import SongLibrary.Proofs.FileTree.WellFormed

namespace SongLibrary.FileTree

variable {t t' : FileTree} {p root : Path} {l : Location}

/-! ## Children -/

theorem arrive_of_proper {names : List Name} (h : ∀ name ∈ names, name.IsProper) :
    arrive l names = l ++ names := by
  induction names generalizing l with
  | nil => simp
  | cons name rest ih =>
    obtain ⟨hname, hrest⟩ := List.forall_mem_cons.1 h
    rw [arrive_cons, arriveAt, hname.loud, if_neg Bool.false_ne_true, if_neg hname.ne_up, ih hrest]
    simp

theorem destination_child (t : FileTree) (p : Path) {name : Name} (h : name.IsProper) :
    t.destination (p.child name) = t.destination p ++ [name] := by
  have harrive : ∀ l, arriveAt l name = l ++ [name] := fun l => by
    rw [arriveAt, h.loud, if_neg Bool.false_ne_true, if_neg h.ne_up]
  have hsilent : ∀ l, arriveAt l [] = l := fun l => by simp [arriveAt, Name.isSilent]
  have horigin : ∀ ys, (Path.slash ∉ ys ∨ p.symbols ≠ []) → t.origin ⟨p.symbols ++ ys⟩ = t.origin p :=
    fun ys hys => by rw [origin, origin, Path.isAbsolute_append hys]
  have hrelative : Path.isAbsolute ⟨name⟩ = false := by
    rw [Bool.eq_false_iff]
    intro habsolute
    exact h.no_slash (List.mem_of_mem_head? ((Path.isAbsolute_iff ⟨name⟩).1 habsolute))
  unfold Path.child Path.join
  rw [hrelative, if_neg Bool.false_ne_true]
  -- The child is joined with a slash, unless the path is empty or ends in one.
  by_cases hempty : p.symbols = []
  · rw [hempty]
    have hp : p.parts = [[]] := by simp [Path.parts, hempty]
    have ho := horigin name (.inl h.no_slash)
    rw [hempty] at ho
    simp only [List.isEmpty_nil, Bool.true_or, if_true]
    rw [destination, destination, ho, hp, List.nil_append, Path.parts_of_name h.no_slash]
    simp [harrive, hsilent]
  · by_cases hslash : p.symbols.getLast? = some Path.slash
    · obtain ⟨front, hfront⟩ := List.getLast?_eq_some_iff.1 hslash
      have hp : p.parts = Path.parts ⟨front⟩ ++ [[]] := by
        have hnil : Path.parts ⟨[]⟩ = [[]] := rfl
        rw [← hnil, ← Path.parts_append, ← hfront]
      have hparts : Path.parts ⟨p.symbols ++ name⟩ = Path.parts ⟨front⟩ ++ [name] := by
        rw [hfront, List.append_assoc, List.singleton_append, Path.parts_append,
          Path.parts_of_name h.no_slash]
      simp only [hslash, beq_self_eq_true, Bool.or_true, if_true]
      rw [destination, destination, horigin name (.inl h.no_slash), hparts, hp]
      simp [arrive_append, harrive, hsilent]
    · have hparts : Path.parts ⟨p.symbols ++ Path.slash :: name⟩ = p.parts ++ [name] := by
        rw [Path.parts_append, Path.parts_of_name h.no_slash]
      simp only [List.isEmpty_iff, hempty, hslash, beq_iff_eq, Bool.or_eq_true, or_self, if_false]
      rw [destination, destination, horigin _ (.inr hempty), hparts]
      simp [arrive_append, harrive]

theorem destination_foldl_child (t : FileTree) (p : Path) {names : List Name}
    (h : ∀ name ∈ names, name.IsProper) :
    t.destination (names.foldl Path.child p) = t.destination p ++ names := by
  induction names generalizing p with
  | nil => simp
  | cons name rest ih =>
    obtain ⟨hname, hrest⟩ := List.forall_mem_cons.1 h
    rw [List.foldl_cons, ih _ hrest, destination_child t p hname]
    simp

/-! ## Walks -/

variable (t) in
/-- Every entry is listed once, and none for the root. -/
def Listed : Prop :=
  ([] :: t.entries.map Prod.fst).Nodup

instance : Decidable t.Listed :=
  inferInstanceAs (Decidable (List.Nodup _))

theorem Listed.get? (h : t.Listed) {l : Location} {e : Entry} (he : (l, e) ∈ t.entries) :
    t.get? l = some e := by
  obtain ⟨hroot, hnodup⟩ := List.nodup_cons.1 h
  have hl : l ≠ [] := by
    rintro rfl
    exact hroot (List.mem_map_of_mem he)
  rw [FileTree.get?, if_neg hl, List.lookup_eq_some_iff]
  obtain ⟨before, after, heq⟩ := List.append_of_mem he
  refine ⟨before, after, heq, ?_⟩
  intro e' he'
  rw [heq, List.map_append, List.map_cons, List.nodup_append] at hnodup
  have hne := hnodup.2.2 e'.1 (List.mem_map_of_mem he') l (by simp)
  simpa using Ne.symm hne

theorem Listed.put (h : t.Listed) (hl : l ≠ []) (e : Entry) : (t.put l e).Listed := by
  obtain ⟨hroot, hnodup⟩ := List.nodup_cons.1 h
  have hsub : ((t.entries.filter (·.1 != l)).map Prod.fst).Sublist (t.entries.map Prod.fst) :=
    List.filter_sublist.map _
  refine List.nodup_cons.2 ⟨?_, List.nodup_cons.2 ⟨?_, hnodup.sublist hsub⟩⟩
  · rw [FileTree.put, List.map_cons, List.mem_cons, not_or]
    exact ⟨Ne.symm hl, fun hmem => hroot (hsub.subset hmem)⟩
  · simp

theorem Listed.erase (h : t.Listed) (l : Location) : (t.erase l).Listed :=
  h.sublist ((List.filter_sublist.map _).cons_cons _)

theorem mem_filesBelow {names : List Name} :
    names ∈ t.filesBelow l ↔ ∃ c, (l ++ names, .file c) ∈ t.entries := by
  unfold filesBelow
  simp only [List.mem_mergeSort, List.mem_filterMap, List.mem_filter, namesBelow?]
  constructor
  · rintro ⟨⟨k, e⟩, ⟨hmem, hfile⟩, hbelow⟩
    split at hbelow
    · next hprefix =>
      obtain ⟨rest, rfl⟩ := List.isPrefixOf_iff_prefix.1 hprefix
      simp only [List.drop_left, Option.some.injEq] at hbelow
      subst hbelow
      cases e with
      | directory => cases hfile
      | file c => exact ⟨c, hmem⟩
    · cases hbelow
  · rintro ⟨c, hmem⟩
    refine ⟨_, ⟨hmem, rfl⟩, ?_⟩
    rw [if_pos (List.isPrefixOf_iff_prefix.2 (List.prefix_append l names))]
    simp

theorem nodup_filesBelow (h : t.Listed) (l : Location) : (t.filesBelow l).Nodup := by
  unfold filesBelow
  refine (List.mergeSort_perm _ _).nodup_iff.2 ?_
  have hkeys := (List.nodup_cons.1 h).2
  rw [List.Nodup, List.pairwise_map] at hkeys
  refine (hkeys.filter _).filterMap _ ?_
  intro e e' hne names hnames names' hnames' heq
  subst heq
  unfold namesBelow? at hnames hnames'
  split at hnames
  · next hprefix =>
    split at hnames'
    · next hprefix' =>
      obtain ⟨rest, hrest⟩ := List.isPrefixOf_iff_prefix.1 hprefix
      obtain ⟨rest', hrest'⟩ := List.isPrefixOf_iff_prefix.1 hprefix'
      apply hne
      rw [← hrest, List.drop_left] at hnames
      rw [← hrest', List.drop_left] at hnames'
      rw [← hrest, ← hrest', Option.some.inj (hnames.trans hnames'.symm)]
    · cases hnames'
  · cases hnames

theorem WellFormed.proper_of_get? (h : t.WellFormed) {e : Entry} (hl : t.get? l = some e) :
    ∀ name ∈ l, name.IsProper := by
  induction l using List.reverseRecOn generalizing e with
  | nil => simp
  | append_singleton front name ih =>
    intro name' hname
    rcases List.mem_append.1 hname with hname | hname
    · exact ih (h.parent _ _ _ hl) name' hname
    · rw [List.mem_singleton.1 hname]
      exact h.proper _ _ _ hl

/-- A directory that a path leads to is found in any other tree that has the route
    of the path and the directory. -/
theorem find_directory_of_route (hw : t'.workingDir = t.workingDir)
    (hr : ∀ d ∈ t.route p, t'.get? d = some .directory) (hl : t'.get? l = some .directory)
    (h : t.find p = .ok (l, .directory)) : t'.find p = .ok (l, .directory) := by
  unfold find at h ⊢
  split at h
  · next spot hlocate =>
    rw [locate_of_route hw hr hlocate]
    cases spot with
    | directory l' => exact h
    | entry parent name asDirectory =>
      unfold entryAt at h ⊢
      dsimp only at h ⊢
      split at h
      · cases h
      · cases h
        rw [hl]
      · split at h <;> cases h
  · cases h

/-- What a walk comes to: the file that its root is, or a file below it. -/
theorem mem_walk (h : t.Listed) (hp : p ∈ t.walk root) :
    (∃ l c, t.find root = .ok (l, .file c) ∧ p = root) ∨
      ∃ l names c, t.find root = .ok (l, .directory) ∧ p = names.foldl Path.child root ∧
        t.get? (l ++ names) = some (.file c) := by
  unfold walk at hp
  split at hp
  · simp at hp
  · next l c hroot => exact .inl ⟨l, c, hroot, by simpa using hp⟩
  · next l hroot =>
    obtain ⟨names, hnames, rfl⟩ := List.mem_map.1 hp
    obtain ⟨c, hmem⟩ := mem_filesBelow.1 hnames
    exact .inr ⟨l, names, c, hroot, rfl, h.get? hmem⟩

/-- A walk from a directory comes to the files below it, in their order. -/
theorem walk_of_pairwise {names : List (List Name)} (hroot : t.find root = .ok (l, .directory))
    (hbelow : (t.entries.filter isFile).filterMap (namesBelow? l) = names)
    (hsorted : names.Pairwise fun a b => walksBefore a b) :
    t.walk root = names.map fun names => names.foldl Path.child root := by
  rw [walk, hroot]
  dsimp only
  rw [filesBelow, hbelow, List.mergeSort_of_pairwise hsorted]

/-- A walk comes to files. -/
theorem file_of_mem_walk (hwf : t.WellFormed) (h : t.Listed) (hp : p ∈ t.walk root) :
    ∃ c, t.get? (t.destination p) = some (.file c) := by
  rcases mem_walk h hp with ⟨l, c, hroot, rfl⟩ | ⟨l, names, c, hroot, rfl, hget⟩
  · obtain ⟨-, -, -, -, hget⟩ := find_file_iff.1 hroot
    rw [(route_of_find hroot).2] at hget
    exact ⟨c, hget⟩
  · have hproper := hwf.proper_of_get? hget
    rw [destination_foldl_child t root fun name hname => hproper name (by simp [hname]),
      ← (route_of_find hroot).2]
    exact ⟨c, hget⟩

/-- A walk comes to every file once. -/
theorem nodup_walk (hwf : t.WellFormed) (h : t.Listed) (root : Path) :
    ((t.walk root).map t.destination).Nodup := by
  unfold walk
  split
  · simp
  · simp
  · next l hroot =>
    have heq : ((t.filesBelow l).map fun names => names.foldl Path.child root).map t.destination =
        (t.filesBelow l).map (l ++ ·) := by
      rw [List.map_map]
      refine List.map_congr_left ?_
      intro names hnames
      obtain ⟨c, hmem⟩ := mem_filesBelow.1 hnames
      have hproper := hwf.proper_of_get? (h.get? hmem)
      rw [Function.comp_apply, destination_foldl_child t root fun name hname =>
        hproper name (by simp [hname]), ← (route_of_find hroot).2]
    rw [heq]
    exact List.Nodup.map (fun _ _ => List.append_cancel_left) (nodup_filesBelow h l)

/-- A walk from a directory comes to the files below it. -/
theorem mem_walk_below {names : List Name} {c : Content} (hroot : t.find root = .ok (l, .directory))
    (hget : t.get? (l ++ names) = some (.file c)) : names.foldl Path.child root ∈ t.walk root := by
  have hne : l ++ names ≠ [] := by
    intro hnil
    rw [hnil, get?_nil] at hget
    cases hget
  rw [FileTree.get?, if_neg hne] at hget
  obtain ⟨before, after, heq, -⟩ := List.lookup_eq_some_iff.1 hget
  have hmem : names ∈ t.filesBelow l := mem_filesBelow.2 ⟨c, by rw [heq]; simp⟩
  simp only [walk, hroot]
  exact List.mem_map_of_mem hmem

/-- A walk comes to a file, if it comes there in another tree with no directories
    that the first does not have. -/
theorem mem_walk_of {c : Content} (hwf : t'.WellFormed) (h : t'.Listed)
    (hw : t'.workingDir = t.workingDir)
    (hdirs : ∀ d, t'.get? d = some .directory → t.get? d = some .directory)
    (hp : p ∈ t'.walk root) (hget : t.get? (t.destination p) = some (.file c)) :
    p ∈ t.walk root := by
  rcases mem_walk h hp with ⟨l, c', hroot, rfl⟩ | ⟨l, names, c', hroot, rfl, hget'⟩
  · obtain ⟨hroute, hl⟩ := route_of_find hroot
    rw [destination_congr hw] at hl
    have hfind : t.find p = .ok (l, .file c) :=
      find_of_route hw.symm (fun d hd => hdirs d (hroute d hd)) (hl ▸ hget) hroot
    simp [walk, hfind]
  · obtain ⟨hroute, hl⟩ := route_of_find hroot
    rw [destination_congr hw] at hl
    have hproper := hwf.proper_of_get? hget'
    rw [destination_foldl_child t root fun name hname => hproper name (by simp [hname]), ← hl] at hget
    have hdirectory : t'.get? l = some .directory := hwf.directory_of_find hroot
    have hfind : t.find root = .ok (l, .directory) :=
      find_directory_of_route hw.symm (fun d hd => hdirs d (hroute d hd)) (hdirs l hdirectory) hroot
    exact mem_walk_below hfind hget

end SongLibrary.FileTree
