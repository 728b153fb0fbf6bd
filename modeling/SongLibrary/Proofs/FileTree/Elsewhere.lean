/-
  Trees that are the same but for what is at some places.

  * `Avoids`: no beginning of a path leads to one of the places.  Then the path comes to
    the same in both trees (`SameElsewhere.find_eq`), and so does whatever is done to the
    entry that it leads to;
  * moving a file does the same in both trees, if its own path and the one to its place
    avoid the places (`SameElsewhere.organizeFile`);
  * a walk comes to the same files, in the same order, if the places are not below its
    root (`filesBelow_put`, `filesBelow_erase`).
-/
import Mathlib.Data.List.Infix
import SongLibrary.Proofs.FileTree.Siblings
import SongLibrary.Proofs.Organize
import SongLibrary.Proofs.PathAbove

namespace SongLibrary

namespace FileTree

variable {u u' t t' t₁ t₁' : FileTree} {places : List Location} {p q : Path} {k l m : Location}
  {c : Content} {e : Entry}

/-! ## Paths that keep away from some places -/

variable (t) in
/-- No beginning of a path leads to one of some places. -/
def Avoids (p : Path) (places : List Location) : Prop :=
  ∀ front ∈ p.names.inits, arrive (t.origin p) front ∉ places

instance (p : Path) (places : List Location) : Decidable (t.Avoids p places) :=
  inferInstanceAs (Decidable (∀ front ∈ p.names.inits, arrive (t.origin p) front ∉ places))

namespace Avoids

theorem congr (h : t'.workingDir = t.workingDir) : t'.Avoids p places ↔ t.Avoids p places := by
  rw [Avoids, Avoids, origin_congr h]

theorem front (h : t.Avoids p places) {front rest : List Name} (hnames : p.names = front ++ rest) :
    arrive (t.origin p) front ∉ places :=
  h front ((List.mem_inits _ _).2 ⟨rest, hnames.symm⟩)

theorem route (h : t.Avoids p places) (hm : m ∈ t.route p) : m ∉ places := by
  obtain ⟨front, rest, hnames, rfl⟩ := exists_front_of_route hm
  exact h.front hnames

theorem destination (h : t.Avoids p places) : t.destination p ∉ places := by
  rw [destination_eq_names]
  exact h.front (List.append_nil _).symm

/-- A path through the first names of one that keeps away does so as well. -/
theorem above (h : t.Avoids p places) (hp : p.isAbsolute) (hq : q.isAbsolute)
    (hnames : q.names <+: p.names) : t.Avoids q places := by
  have horigin : t.origin q = t.origin p := by rw [origin, origin, if_pos hq, if_pos hp]
  intro front hfront
  rw [horigin]
  exact h front ((List.mem_inits _ _).2 (((List.mem_inits _ _).1 hfront).trans hnames))

/-- What is below the root of a scan keeps away from places that are not. -/
theorem child {root : Path} {names : List Name} (h : t.Avoids root places)
    (hroot : root.isAbsolute) (hbelow : ∀ k ∈ places, ¬ t.destination root <+: k)
    (hproper : ∀ name ∈ names, name.IsProper) : t.Avoids (names.foldl Path.child root) places := by
  obtain ⟨hnames, habsolute⟩ := names_foldl_child root hproper
  have horigin : t.origin (names.foldl Path.child root) = t.origin root := by
    rw [origin, origin, if_pos (habsolute hroot), if_pos hroot]
  intro front hfront
  rw [horigin]
  have hprefix := hnames ▸ (List.mem_inits _ _).1 hfront
  rcases List.prefix_or_prefix_of_prefix hprefix (List.prefix_append root.names names) with
    hfirst | ⟨rest, rfl⟩
  · exact h front ((List.mem_inits _ _).2 hfirst)
  · have hrest : ∀ name ∈ rest, name.IsProper := fun name hname =>
      hproper name (((List.prefix_append_right_inj root.names).1 hprefix).subset hname)
    rw [arrive_append, ← destination_eq_names, arrive_of_proper hrest]
    exact fun hmem => hbelow _ hmem (List.prefix_append _ _)

end Avoids

/-- A path that finds something keeps away from places where no directory is. -/
theorem avoids_of_find (hwf : t.WellFormed) (hplaces : ∀ k ∈ places, t.get? k ≠ some .directory)
    (h : t.find p = .ok (l, e)) (hl : l ∉ places) : t.Avoids p places := by
  intro front hfront hmem
  obtain ⟨rest, hnames⟩ := (List.mem_inits _ _).1 hfront
  by_cases hrest : rest = []
  · rw [hrest, List.append_nil] at hnames
    rw [hnames, ← destination_eq_names, ← (route_of_find h).2] at hmem
    exact hl hmem
  · exact hplaces _ hmem (directory_of_front hwf h hnames.symm hrest)

theorem avoids_of_mem_walk {root : Path} (hwf : t.WellFormed) (hlisted : t.Listed)
    (hroot : root.isAbsolute) (hplaces : ∀ k ∈ places, t.get? k ≠ some .directory)
    (hbelow : ∀ k ∈ places, ¬ t.destination root <+: k) (hp : p ∈ t.walk root) :
    t.Avoids p places := by
  have hfound : ∀ {l e}, t.find root = .ok (l, e) → t.Avoids root places := fun hfind =>
    avoids_of_find hwf hplaces hfind fun hmem =>
      hbelow _ hmem ((route_of_find hfind).2 ▸ List.prefix_refl _)
  rcases mem_walk hlisted hp with ⟨_, _, hfind, rfl⟩ | ⟨l, names, _, hfind, rfl, hget⟩
  · exact hfound hfind
  · exact (hfound hfind).child hroot hbelow fun name hname =>
      hwf.proper_of_get? hget name (List.mem_append_right _ hname)

/-! ## Trees that are the same elsewhere -/

theorem hasChildren_iff : t.hasChildren m ↔ ∃ k, m <+: k ∧ k ≠ m ∧ (t.get? k).isSome := by
  unfold hasChildren
  simp only [List.any_eq_true, Bool.and_eq_true, List.isPrefixOf_iff_prefix, bne_iff_ne, ne_eq]
  constructor
  · rintro ⟨⟨k, e⟩, hmem, hprefix, hne⟩
    refine ⟨k, hprefix, hne, ?_⟩
    unfold FileTree.get?
    split
    · rfl
    · rw [Option.isSome_iff_ne_none, ne_eq, List.lookup_eq_none_iff]
      intro hall
      simpa using hall (k, e) hmem
  · rintro ⟨k, hprefix, hne, hsome⟩
    have hk : k ≠ [] := by
      rintro rfl
      exact hne (List.prefix_nil.1 hprefix).symm
    obtain ⟨e, he⟩ := Option.isSome_iff_exists.1 hsome
    rw [FileTree.get?, if_neg hk] at he
    obtain ⟨before, after, hentries, -⟩ := List.lookup_eq_some_iff.1 he
    exact ⟨(k, e), by rw [hentries]; simp, hprefix, hne⟩

/-- Two trees that have come from two others: at some places each is as it was, and
    elsewhere they are the same.  What is at the places is below the same directories. -/
structure SameElsewhere (places : List Location) (u u' t t' : FileTree) : Prop where
  workingDir : t'.workingDir = t.workingDir
  mounts : t'.mounts = t.mounts
  get? : ∀ m ∉ places, t'.get? m = t.get? m
  kept : ∀ m ∈ places, t.get? m = u.get? m ∧ t'.get? m = u'.get? m
  below : ∀ m ∉ places, (∃ k ∈ places, m <+: k ∧ (u'.get? k).isSome) ↔
    ∃ k ∈ places, m <+: k ∧ (u.get? k).isSome

namespace SameElsewhere

theorem hasChildren_eq (h : SameElsewhere places u u' t t') (hm : m ∉ places) :
    t'.hasChildren m = t.hasChildren m := by
  have hsplit : ∀ {t u : FileTree}, (∀ k ∈ places, t.get? k = u.get? k) →
      (t.hasChildren m ↔ (∃ k ∈ places, m <+: k ∧ (u.get? k).isSome) ∨
        ∃ k, k ∉ places ∧ m <+: k ∧ k ≠ m ∧ (t.get? k).isSome) := by
    intro t u hkept
    rw [hasChildren_iff]
    constructor
    · rintro ⟨k, hprefix, hne, hsome⟩
      by_cases hk : k ∈ places
      · exact .inl ⟨k, hk, hprefix, hkept k hk ▸ hsome⟩
      · exact .inr ⟨k, hk, hprefix, hne, hsome⟩
    · rintro (⟨k, hk, hprefix, hsome⟩ | ⟨k, -, hprefix, hne, hsome⟩)
      · exact ⟨k, hprefix, by rintro rfl; exact hm hk, hkept k hk ▸ hsome⟩
      · exact ⟨k, hprefix, hne, hsome⟩
  rw [Bool.eq_iff_iff, hsplit fun k hk => (h.kept k hk).2, hsplit fun k hk => (h.kept k hk).1,
    h.below m hm]
  refine or_congr_right (exists_congr fun k => and_congr_right fun hk => ?_)
  rw [h.get? k hk]

/-- Trees stay the same elsewhere, if they change alike there, and not at the places. -/
theorem changed (h : SameElsewhere places u u' t t') (hdir : t₁.workingDir = t.workingDir)
    (hdir' : t₁'.workingDir = t'.workingDir) (hmounts : t₁.mounts = t.mounts)
    (hmounts' : t₁'.mounts = t'.mounts) (hsame : ∀ m ∉ places, t₁'.get? m = t₁.get? m)
    (hkept : ∀ m ∈ places, t₁.get? m = t.get? m ∧ t₁'.get? m = t'.get? m) :
    SameElsewhere places u u' t₁ t₁' :=
  ⟨hdir'.trans (h.workingDir.trans hdir.symm), hmounts'.trans (h.mounts.trans hmounts.symm),
    hsame, fun m hm => ⟨(hkept m hm).1.trans (h.kept m hm).1,
      (hkept m hm).2.trans (h.kept m hm).2⟩, h.below⟩

theorem ne_of_mem {k m : Location} (hk : k ∉ places) (hm : m ∈ places) : m ≠ k := by
  rintro rfl
  exact hk hm

theorem put (h : SameElsewhere places u u' t t') (hk : k ∉ places) (hne : k ≠ []) (e : Entry) :
    SameElsewhere places u u' (t.put k e) (t'.put k e) := by
  refine h.changed rfl rfl rfl rfl (fun m hm => ?_) fun m hm => ?_
  · rw [get?_put _ hne, get?_put _ hne, h.get? m hm]
  · rw [get?_put _ hne, get?_put _ hne, if_neg (ne_of_mem hk hm), if_neg (ne_of_mem hk hm)]
    exact ⟨rfl, rfl⟩

theorem erase (h : SameElsewhere places u u' t t') (hk : k ∉ places) (hne : k ≠ []) :
    SameElsewhere places u u' (t.erase k) (t'.erase k) := by
  refine h.changed rfl rfl rfl rfl (fun m hm => ?_) fun m hm => ?_
  · rw [get?_erase _ hne, get?_erase _ hne, h.get? m hm]
  · rw [get?_erase _ hne, get?_erase _ hne, if_neg (ne_of_mem hk hm), if_neg (ne_of_mem hk hm)]
    exact ⟨rfl, rfl⟩

theorem moves (h : SameElsewhere places u u' t t') (hl : l ∉ places) (hk : k ∉ places)
    (hmoves : MovesFile t t₁ l k c) (hmoves' : MovesFile t' t₁' l k c) :
    SameElsewhere places u u' t₁ t₁' := by
  refine h.changed hmoves.workingDir hmoves'.workingDir hmoves.mounts hmoves'.mounts
    (fun m hm => ?_) fun m hm => ?_
  · rw [hmoves.get?, hmoves'.get?, h.get? m hm]
  · rw [hmoves.get?, hmoves'.get?, if_neg (ne_of_mem hk hm), if_neg (ne_of_mem hk hm),
      if_neg (ne_of_mem hl hm), if_neg (ne_of_mem hl hm)]
    exact ⟨rfl, rfl⟩

/-! ## Finding -/

theorem descend_eq (h : SameElsewhere places u u' t t') {parts : List Name}
    (hway : ∀ m ∈ way l parts, m ∉ places) : t'.descend l parts = t.descend l parts := by
  induction parts generalizing l with
  | nil => rfl
  | cons part rest ih =>
    have henter : t'.enter l part = t.enter l part := by
      unfold enter
      split
      · rfl
      · next hloud =>
        split
        · rfl
        · next hup => rw [h.get? _ (hway _ (by simp [way, hloud, hup]))]
    rw [descend, descend, henter]
    split
    · next l' hentered =>
      obtain ⟨rfl, -⟩ := enter_eq_ok_iff.1 hentered
      refine ih fun m hm => hway m ?_
      unfold way
      split
      · exact hm
      · exact List.mem_cons_of_mem _ hm
    · rfl

theorem follow_eq (h : SameElsewhere places u u' t t') (hp : t.Avoids p places) :
    t'.follow p = t.follow p := by
  have hroute : ∀ m ∈ t.route p, m ∉ places := fun m hm => hp.route hm
  rw [route, List.forall_mem_cons] at hroute
  unfold follow
  rw [show (if p.isAbsolute then [] else t'.workingDir) = t.origin p from
      origin_congr h.workingDir p,
    show (if p.isAbsolute then [] else t.workingDir) = t.origin p from rfl]
  dsimp only
  rw [h.get? _ hroute.1, h.descend_eq hroute.2]

theorem locate_eq (h : SameElsewhere places u u' t t') (hp : t.Avoids p places) :
    t'.locate p = t.locate p := by
  unfold locate
  rw [h.follow_eq hp]

/-- Where a located entry is, or would be, is none of the places. -/
theorem not_mem_of_locate {parent : Location} {name : Name} {asDirectory : Bool}
    (hp : t.Avoids p places) (hlocate : t.locate p = .ok (.entry parent name asDirectory)) :
    parent ++ [name] ∉ places := by
  have hlocation : parent ++ [name] = t.destination p := location_of_locate hlocate
  rw [hlocation]
  exact hp.destination

theorem find_eq (h : SameElsewhere places u u' t t') (hp : t.Avoids p places) :
    t'.find p = t.find p := by
  unfold find
  rw [h.locate_eq hp]
  split
  · next spot hlocate =>
    unfold entryAt
    cases spot with
    | directory _ => rfl
    | entry parent name asDirectory =>
      dsimp only
      rw [h.get? _ (not_mem_of_locate hp hlocate)]
  · rfl

theorem pathExists_eq (h : SameElsewhere places u u' t t') (hp : t.Avoids p places) :
    t'.pathExists p = t.pathExists p := by
  rw [pathExists, pathExists, h.find_eq hp]

theorem isDirectory_eq (h : SameElsewhere places u u' t t') (hp : t.Avoids p places) :
    t'.isDirectory p = t.isDirectory p := by
  rw [isDirectory, isDirectory, h.find_eq hp]

theorem read_eq (h : SameElsewhere places u u' t t') (hp : t.Avoids p places) :
    t'.read p = t.read p := by
  rw [read, read, h.find_eq hp]

theorem isEmptyDirectory_eq (h : SameElsewhere places u u' t t') (hp : t.Avoids p places) :
    t'.isEmptyDirectory p = t.isEmptyDirectory p := by
  unfold isEmptyDirectory
  rw [h.find_eq hp]
  split
  · next l hfind =>
    rw [h.hasChildren_eq ((route_of_find hfind).2 ▸ hp.destination)]
  · rfl

/-! ## Changes -/

/-- A change that fails in both trees for the same reason, or gives trees that are the same
    elsewhere. -/
inductive Both (places : List Location) (u u' : FileTree) :
    Except Fault FileTree → Except Fault FileTree → Prop where
  | error (fault : Fault) : Both places u u' (.error fault) (.error fault)
  | ok {t t' : FileTree} (h : SameElsewhere places u u' t t') : Both places u u' (.ok t) (.ok t')

theorem createDirectory (h : SameElsewhere places u u' t t') (hp : t.Avoids p places) :
    Both places u u' (t.createDirectory p) (t'.createDirectory p) := by
  unfold FileTree.createDirectory
  rw [h.locate_eq hp]
  split
  · exact .error _
  · exact .error _
  · next l name _ hlocate =>
    have hplace := not_mem_of_locate hp hlocate
    rw [h.get? _ hplace]
    split
    · exact .error _
    · exact .ok (h.put hplace (by simp) _)

theorem removeDirectory (h : SameElsewhere places u u' t t') (hp : t.Avoids p places) :
    Both places u u' (t.removeDirectory p) (t'.removeDirectory p) := by
  unfold FileTree.removeDirectory
  rw [h.locate_eq hp]
  split
  · exact .error _
  · exact .error _
  · next l name _ hlocate =>
    have hplace := not_mem_of_locate hp hlocate
    rw [h.get? _ hplace]
    split
    · exact .error _
    · exact .error _
    · rw [h.mounts, h.hasChildren_eq hplace]
      split
      · exact .error _
      · split
        · exact .error _
        · exact .ok (h.erase hplace (by simp))

theorem createWith (h : SameElsewhere places u u' t t') {parents : List Path}
    (hp : t.Avoids p places) (hparents : ∀ q ∈ parents, t.Avoids q places) :
    SameElsewhere places u u' (t.createWith p parents).1 (t'.createWith p parents).1 ∧
      (t'.createWith p parents).2 = (t.createWith p parents).2 := by
  -- By induction on the directories above, which are tried where the first one has no parent.
  induction parents generalizing p with
  | nil =>
    have hcreated := h.createDirectory hp
    unfold FileTree.createWith
    split
    · exact ⟨h, rfl⟩
    · generalize t.createDirectory p = created, t'.createDirectory p = created' at hcreated
      cases hcreated with
      | ok hnext => exact ⟨hnext, rfl⟩
      | error fault =>
        rw [h.isDirectory_eq hp]
        cases fault <;> exact ⟨h, rfl⟩
  | cons q rest ih =>
    obtain ⟨hq, hrest⟩ := List.forall_mem_cons.1 hparents
    have hcreated := h.createDirectory hp
    have habove := ih hq hrest
    have hdir := (createWith_adds (t := t) q rest).workingDir
    unfold FileTree.createWith
    split
    · exact ⟨h, rfl⟩
    · generalize t.createDirectory p = created, t'.createDirectory p = created' at hcreated
      cases hcreated with
      | ok hnext => exact ⟨hnext, rfl⟩
      | error fault =>
        cases fault with
        | notFound =>
          dsimp only
          obtain ⟨hnext, hresult⟩ := habove
          generalize t.createWith q rest = above, t'.createWith q rest = above'
            at hnext hresult hdir
          obtain ⟨t₁, result⟩ := above
          obtain ⟨t₁', result'⟩ := above'
          obtain rfl : result' = result := hresult
          cases result' with
          | error fault => exact ⟨hnext, rfl⟩
          | ok =>
            have hp₁ : t₁.Avoids p places := (Avoids.congr hdir).2 hp
            have hcreated := SameElsewhere.createDirectory hnext hp₁
            dsimp only at hcreated hnext ⊢
            generalize t₁.createDirectory p = created, t₁'.createDirectory p = created'
              at hcreated
            cases hcreated with
            | ok hlast => exact ⟨hlast, rfl⟩
            | error fault => exact ⟨hnext, by rw [hnext.isDirectory_eq hp₁]⟩
        | _ => exact ⟨h, by rw [h.isDirectory_eq hp]⟩

/-- A file can be put in one tree where it can be in the other. -/
theorem lands_iff (h : SameElsewhere places u u' t t') (hp : t.Avoids p places) :
    t'.Lands p k ↔ t.Lands p k := by
  unfold Lands
  rw [h.locate_eq hp]
  refine exists_congr fun parent => exists_congr fun name => and_congr_right fun hlocate =>
    and_congr_right ?_
  rintro rfl
  rw [h.get? _ (not_mem_of_locate hp hlocate)]

/-! ## Moving a file -/

theorem moveFile {source target : Path} (h : SameElsewhere places u u' t t')
    (hs : t.find source = .ok (l, .file c)) (hsource : t.Avoids source places)
    (htarget : t.Avoids target places) :
    SameElsewhere places u u' (moveFile t source target).1
        (SongLibrary.moveFile t' source target).1 ∧
      (SongLibrary.moveFile t' source target).2.toOption =
        (SongLibrary.moveFile t source target).2.toOption := by
  have hs' : t'.find source = .ok (l, .file c) := (h.find_eq hsource).trans hs
  have hl : l ∉ places := (route_of_find hs).2 ▸ hsource.destination
  rcases hmove : SongLibrary.moveFile t source target with ⟨t₁, failure | _⟩ <;>
    rcases hmove' : SongLibrary.moveFile t' source target with ⟨t₁', failure' | _⟩
  · obtain ⟨rfl, -⟩ := moveFile_error hs hmove
    obtain ⟨rfl, -⟩ := moveFile_error hs' hmove'
    exact ⟨h, rfl⟩
  · obtain ⟨k, hlands, -⟩ := moveFile_ok hs' hmove'
    exact absurd ((h.lands_iff htarget).1 hlands) ((moveFile_error hs hmove).2 k)
  · obtain ⟨k, hlands, -⟩ := moveFile_ok hs hmove
    exact absurd ((h.lands_iff htarget).2 hlands) ((moveFile_error hs' hmove').2 k)
  · obtain ⟨k, hlands, hmoved⟩ := moveFile_ok hs hmove
    obtain ⟨k', hlands', hmoved'⟩ := moveFile_ok hs' hmove'
    obtain rfl : k' = k := ((h.lands_iff htarget).1 hlands').unique hlands
    have hk : k' ∉ places := hlands.eq_destination ▸ htarget.destination
    refine ⟨?_, rfl⟩
    rcases hmoved with ⟨heq, rfl⟩ | ⟨hne, hmoves⟩ <;>
      rcases hmoved' with ⟨heq', rfl⟩ | ⟨hne', hmoves'⟩
    · exact h
    · exact absurd heq hne'
    · exact absurd heq' hne
    · exact h.moves hl hk hmoves hmoves'

theorem createParent {target : Path} (h : SameElsewhere places u u' t t')
    (habsolute : target.isAbsolute) (htarget : t.Avoids target places) :
    SameElsewhere places u u' (createParent t target).1 (SongLibrary.createParent t' target).1 ∧
      (SongLibrary.createParent t' target).2.toOption =
        (SongLibrary.createParent t target).2.toOption := by
  unfold SongLibrary.createParent
  split
  · exact ⟨h, rfl⟩
  · next parent hparent =>
    obtain ⟨hroot, hnames⟩ := Path.parent?_absolute habsolute hparent
    have havoids := htarget.above habsolute hroot (hnames ▸ List.dropLast_prefix _)
    have habove : ∀ q ∈ above (parent.names.length + 1) parent, t.Avoids q places := by
      intro q hq
      obtain ⟨hroot', hnames'⟩ := Path.above_absolute hroot hq
      exact havoids.above hroot hroot' hnames'
    obtain ⟨hnext, hresult⟩ := h.createWith havoids habove
    unfold createDirectories
    generalize t.createWith parent _ = created, t'.createWith parent _ = created' at hnext hresult
    obtain ⟨t₁, result⟩ := created
    obtain ⟨t₁', result'⟩ := created'
    obtain rfl : result' = result := hresult
    cases result' with
    | error _ => exact ⟨hnext, rfl⟩
    | ok _ => exact ⟨hnext, rfl⟩

theorem removeEmptyDirectories {root : Path} {parents : List Path}
    (h : SameElsewhere places u u' t t') (hp : t.Avoids p places)
    (hparents : ∀ q ∈ parents, t.Avoids q places) :
    SameElsewhere places u u' (removeEmptyDirectories root t p parents)
      (SongLibrary.removeEmptyDirectories root t' p parents) := by
  induction parents generalizing t t' p with
  | nil =>
    unfold SongLibrary.removeEmptyDirectories
    rw [h.isEmptyDirectory_eq hp]
    have hremoved := h.removeDirectory hp
    split
    · exact h
    · generalize t.removeDirectory p = removed, t'.removeDirectory p = removed' at hremoved
      cases hremoved with
      | error _ => exact h
      | ok hnext => exact hnext
  | cons q rest ih =>
    obtain ⟨hq, hrest⟩ := List.forall_mem_cons.1 hparents
    unfold SongLibrary.removeEmptyDirectories
    rw [h.isEmptyDirectory_eq hp]
    have hremoved := h.removeDirectory hp
    split
    · exact h
    · cases hremove : t.removeDirectory p with
      | error fault =>
        rw [hremove] at hremoved
        generalize t'.removeDirectory p = removed' at hremoved
        cases hremoved
        exact h
      | ok t₁ =>
        rw [hremove] at hremoved
        generalize t'.removeDirectory p = removed' at hremoved
        cases hremoved with
        | ok hnext =>
          have hdir := (removeDirectory_prunes hremove).workingDir
          exact ih hnext ((Avoids.congr hdir).2 hq) fun q hq =>
            (Avoids.congr hdir).2 (hrest q hq)

theorem cleanUp {musicDir source : Path} (h : SameElsewhere places u u' t t')
    (habsolute : source.isAbsolute) (hsource : t.Avoids source places) :
    SameElsewhere places u u' (cleanUp t musicDir source)
      (SongLibrary.cleanUp t' musicDir source) := by
  unfold SongLibrary.cleanUp
  split
  · exact h
  · next parent hparent =>
    obtain ⟨hroot, hnames⟩ := Path.parent?_absolute habsolute hparent
    have havoids := hsource.above habsolute hroot (hnames ▸ List.dropLast_prefix _)
    refine h.removeEmptyDirectories havoids fun q hq => ?_
    obtain ⟨hroot', hnames'⟩ := Path.above_absolute hroot hq
    exact havoids.above hroot hroot' hnames'

/-- **Moving a file does the same in both trees.** -/
theorem organizeFile {source musicDir : Path} {relative : String}
    (h : SameElsewhere places u u' t t') (hs : t.find source = .ok (l, .file c))
    (habsolute : source.isAbsolute) (hmusic : musicDir.isAbsolute)
    (hsource : t.Avoids source places)
    (htarget : t.Avoids (resolve musicDir relative) places) :
    SameElsewhere places u u' (organizeFile t source musicDir relative).1
        (SongLibrary.organizeFile t' source musicDir relative).1 ∧
      (SongLibrary.organizeFile t' source musicDir relative).2.toOption =
        (SongLibrary.organizeFile t source musicDir relative).2.toOption := by
  have htargetRoot : (resolve musicDir relative).isAbsolute := Path.isAbsolute_join hmusic _
  unfold SongLibrary.organizeFile
  dsimp only
  rw [show musicDir.join (.ofString relative) = resolve musicDir relative from rfl]
  generalize resolve musicDir relative = target at htarget htargetRoot
  split
  · exact ⟨h, rfl⟩
  · split
    · exact ⟨h, rfl⟩
    · rw [h.pathExists_eq htarget]
      split
      · exact ⟨h, rfl⟩
      · obtain ⟨hnext, hresult⟩ := h.createParent htargetRoot htarget
        have hadds := createParent_adds t target
        generalize SongLibrary.createParent t target = created,
          SongLibrary.createParent t' target = created' at hnext hresult hadds
        -- Creating the directories fails in both trees or in neither, and so does the move.
        obtain ⟨t₁, failure | _⟩ := created <;> obtain ⟨t₁', failure' | _⟩ := created'
        · exact ⟨hnext, rfl⟩
        · cases hresult
        · cases hresult
        · have hs₁ := hadds.find hs
          have hsource₁ := (Avoids.congr hadds.workingDir).2 hsource
          obtain ⟨hlast, hmoved⟩ := SameElsewhere.moveFile hnext hs₁ hsource₁
            ((Avoids.congr hadds.workingDir).2 htarget)
          have hdir : (SongLibrary.moveFile t₁ source target).1.workingDir = t₁.workingDir := by
            rcases hmove : SongLibrary.moveFile t₁ source target with ⟨t₂, failure | _⟩
            · rw [(moveFile_error hs₁ hmove).1]
            · obtain ⟨_, -, hmoves⟩ := moveFile_ok hs₁ hmove
              exact workingDir_of_moved hmoves
          dsimp only at hlast hmoved hdir ⊢
          generalize SongLibrary.moveFile t₁ source target = moved,
            SongLibrary.moveFile t₁' source target = moved' at hlast hmoved hdir
          obtain ⟨t₂, failure | _⟩ := moved <;> obtain ⟨t₂', failure' | _⟩ := moved'
          · exact ⟨hlast, rfl⟩
          · cases hmoved
          · cases hmoved
          · exact ⟨hlast.cleanUp habsolute ((Avoids.congr hdir).2 hsource₁), rfl⟩

end SameElsewhere

/-! ## Trees that have been edited -/

theorem filesBelow_erase (h : ¬ l <+: k) : (t.erase k).filesBelow l = t.filesBelow l := by
  unfold filesBelow erase
  simp only [List.filter_filter, List.filterMap_filter]
  congr 2
  funext entry
  by_cases hk : entry.1 = k
  · have hnone : namesBelow? l entry = none := by
      rw [namesBelow?, if_neg]
      rwa [List.isPrefixOf_iff_prefix, hk]
    simp [hnone]
  · simp [hk]

theorem filesBelow_put (h : ¬ l <+: k) : (t.put k e).filesBelow l = t.filesBelow l := by
  have hnone : namesBelow? l (k, e) = none := by
    rw [namesBelow?, if_neg]
    rwa [List.isPrefixOf_iff_prefix]
  rw [← filesBelow_erase (t := t) h]
  unfold filesBelow put erase
  rw [List.filter_cons]
  split
  · rw [List.filterMap_cons_none hnone]
  · rfl

/-- The second tree has come from the first by changes at some places: elsewhere it is the
    same, also in the order in which a scan comes to files. -/
structure Edited (places : List Location) (t t' : FileTree) : Prop where
  workingDir : t'.workingDir = t.workingDir
  mounts : t'.mounts = t.mounts
  get? : ∀ m ∉ places, t'.get? m = t.get? m
  filesBelow : ∀ l, (∀ k ∈ places, ¬ l <+: k) → t'.filesBelow l = t.filesBelow l

namespace Edited

theorem refl (t : FileTree) : Edited places t t :=
  ⟨rfl, rfl, fun _ _ => rfl, fun _ _ => rfl⟩

theorem symm (h : Edited places t t') : Edited places t' t :=
  ⟨h.workingDir.symm, h.mounts.symm, fun m hm => (h.get? m hm).symm,
    fun l hl => (h.filesBelow l hl).symm⟩

theorem trans (h : Edited places t t₁) (h' : Edited places t₁ t') : Edited places t t' :=
  ⟨h'.workingDir.trans h.workingDir, h'.mounts.trans h.mounts,
    fun m hm => (h'.get? m hm).trans (h.get? m hm),
    fun l hl => (h'.filesBelow l hl).trans (h.filesBelow l hl)⟩

theorem put (h : Edited places t t') (hk : k ∈ places) (hne : k ≠ []) (e : Entry) :
    Edited places t (t'.put k e) :=
  h.trans ⟨rfl, rfl, fun m hm => by
    rw [get?_put _ hne, if_neg (SameElsewhere.ne_of_mem hm hk).symm],
    fun _ hl => filesBelow_put (hl k hk)⟩

theorem erase (h : Edited places t t') (hk : k ∈ places) (hne : k ≠ []) :
    Edited places t (t'.erase k) :=
  h.trans ⟨rfl, rfl, fun m hm => by
    rw [get?_erase _ hne, if_neg (SameElsewhere.ne_of_mem hm hk).symm],
    fun _ hl => filesBelow_erase (hl k hk)⟩

/-- **A scan comes to the same files**, if the places are not below its root. -/
theorem walk_eq {root : Path} (h : Edited places t t') (hwf : t.WellFormed)
    (hwf' : t'.WellFormed) (hs : SameElsewhere places t t' t t')
    (hplaces : ∀ k ∈ places, t.get? k ≠ some .directory ∧ t'.get? k ≠ some .directory)
    (hbelow : ∀ k ∈ places, ¬ t.destination root <+: k) : t'.walk root = t.walk root := by
  have hdest : t'.destination root = t.destination root := destination_congr h.workingDir _
  by_cases hroot : t.Avoids root places
  · unfold walk
    rw [hs.find_eq hroot]
    split
    · rfl
    · rfl
    · next l hfind => rw [h.filesBelow l ((route_of_find hfind).2 ▸ hbelow)]
  · -- The root leads nowhere in both.
    have hnowhere : ∀ {t : FileTree}, (∀ l e, t.find root ≠ .ok (l, e)) → t.walk root = [] := by
      intro t hnone
      unfold walk
      split
      · rfl
      · next hfind => exact absurd hfind (hnone _ _)
      · next hfind => exact absurd hfind (hnone _ _)
    rw [hnowhere fun l e hfind => hroot ?_, hnowhere fun l e hfind => hroot ?_]
    · exact avoids_of_find hwf (fun k hk => (hplaces k hk).1) hfind fun hmem =>
        hbelow _ hmem ((route_of_find hfind).2 ▸ List.prefix_refl _)
    · refine (Avoids.congr h.workingDir).1 ?_
      exact avoids_of_find hwf' (fun k hk => (hplaces k hk).2) hfind fun hmem =>
        hbelow _ hmem (hdest ▸ (route_of_find hfind).2 ▸ List.prefix_refl _)

end Edited

/-! ## Where less is there -/

/-- The second tree has the directories of the first and nothing where that has nothing. -/
structure HasLess (t t' : FileTree) : Prop where
  workingDir : t'.workingDir = t.workingDir
  directory : ∀ d, t'.get? d = some .directory ↔ t.get? d = some .directory
  none : ∀ m, t.get? m = none → t'.get? m = none

namespace HasLess

theorem enter_notFound {part : Name} (h : HasLess t t')
    (henter : t.enter l part = .error .notFound) :
    t'.enter l part = .error .notFound := by
  unfold enter at henter ⊢
  split at henter
  · cases henter
  · next hloud =>
    split at henter
    · cases henter
    · next hup =>
      split at henter
      · cases henter
      · next hshort =>
        split at henter
        · cases henter
        · cases henter
        · next hnone => rw [if_neg hloud, if_neg hup, if_neg hshort, h.none _ hnone]

theorem descend_notFound {parts : List Name} (h : HasLess t t')
    (hdescend : t.descend l parts = .error .notFound) :
    t'.descend l parts = .error .notFound := by
  induction parts generalizing l with
  | nil => cases hdescend
  | cons part rest ih =>
    rw [descend] at hdescend ⊢
    cases henter : t.enter l part with
    | error fault =>
      rw [henter] at hdescend
      cases hdescend
      rw [h.enter_notFound henter]
    | ok m =>
      rw [henter] at hdescend
      obtain ⟨rfl, hshort, hthere⟩ := enter_eq_ok_iff.1 henter
      have hthere' : part.isSilent ∨ part = Name.up ∨ t'.get? (l ++ [part]) = some .directory := by
        rwa [h.directory]
      rw [enter_eq_ok_iff.2 ⟨rfl, hshort, hthere'⟩]
      exact ih hdescend

theorem follow_notFound (h : HasLess t t') (hfollow : t.follow p = .error .notFound) :
    t'.follow p = .error .notFound := by
  have hstart : ∀ d, (t'.get? d != some .directory) = (t.get? d != some .directory) := by
    intro d
    rw [Bool.eq_iff_iff, bne_iff_ne, bne_iff_ne, ne_eq, ne_eq, h.directory]
  unfold follow at hfollow ⊢
  simp only [h.workingDir, hstart] at hfollow ⊢
  generalize (if p.isAbsolute then [] else t.workingDir) = start at hfollow ⊢
  revert hfollow
  split_ifs
  iterate 4 exact id
  cases (p.parts.filter (!·.isEmpty)).getLast? with
  | none => exact id
  | some last =>
    intro hfollow
    dsimp only at hfollow ⊢
    cases hdescend : t.descend start (p.parts.filter (!·.isEmpty)).dropLast with
    | error fault =>
      rw [hdescend] at hfollow
      cases hfollow
      rw [h.descend_notFound hdescend]
    | ok l =>
      rw [hdescend] at hfollow
      dsimp only at hfollow
      split at hfollow
      · cases hfollow
      · split at hfollow <;> cases hfollow

theorem isFree (h : HasLess t t') (hfree : t.isFree l) : t'.isFree l := by
  unfold FileTree.isFree at hfree ⊢
  generalize Path.ofParts ([] :: l) = p at hfree ⊢
  split at hfree
  · next spot hlocate =>
    have hroute := (follow_eq_ok_iff.1 (locate_eq_ok_iff.1 hlocate).1).2.2
    rw [locate_of_route h.workingDir (fun d hd => (h.directory d).2 (hroute d hd)) hlocate]
  · next hlocate =>
    have hfollow : t.follow p = .error .notFound := by
      unfold locate at hlocate
      split at hlocate
      · split at hlocate <;> cases hlocate
      · exact hlocate
    rw [locate, h.follow_notFound hfollow]
  · cases hfree

/-- The path of a table leads to its location there as well. -/
theorem tableLocation? (h : HasLess t t') (hp : t.tableLocation? p = some l) :
    t'.tableLocation? p = some l := by
  have hfold : ∀ {parts : List Name} {l k : Location}, parts.foldlM t.enterForTable? l = some k →
      parts.foldlM t'.enterForTable? l = some k := by
    intro parts
    induction parts with
    | nil => exact fun h => h
    | cons part rest ih =>
      intro l k hfold
      simp only [List.foldlM_cons, Option.bind_eq_bind, Option.bind_eq_some_iff] at hfold ⊢
      obtain ⟨next, hnext, hrest⟩ := hfold
      refine ⟨next, ?_, ih hrest⟩
      unfold enterForTable? at hnext ⊢
      split at hnext
      · next hsilent => rw [if_pos hsilent, hnext]
      · next hloud =>
        rw [if_neg hloud]
        split at hnext
        · next hup => rw [if_pos hup, hnext]
        · next hup =>
          rw [if_neg hup]
          dsimp only at hnext ⊢
          split at hnext
          · cases hnext
          · next hok =>
            simp only [Bool.or_eq_true, not_or, Bool.not_eq_true, Bool.not_eq_false',
              decide_eq_true_eq] at hok
            rw [if_neg (by simp [hok.1, h.isFree hok.2]), hnext]
  unfold FileTree.tableLocation? at hp ⊢
  simp only [Option.bind_eq_bind, Option.bind_eq_some_iff] at hp ⊢
  obtain ⟨text, htext, k, hk, hl⟩ := hp
  exact ⟨text, htext, k, h.workingDir ▸ hfold hk, hl⟩

end HasLess

end FileTree

end SongLibrary
