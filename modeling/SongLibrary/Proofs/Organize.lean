/-
  Moving files to their places is safe, with three exceptions.

  * `MovedSafely` says what a safe move is: the content of the file is at its
    place, or nothing happened to it, and every other file is as it was;
  * `Organized` lists what a move can come to (`organizeFile_cases`);
  * `Misspelt`, `Overwrites` and `CutsOff` are the exceptions, and
    `organizeFile_safe_iff` says that there are no others;
  * the last two need a target that leaves a directory again by `..`: they do not
    arise where the target is direct (`not_overwrites_of_direct`,
    `not_cutsOff_of_direct`).
-/
import SongLibrary.Location
import SongLibrary.Proofs.SongTable.File

namespace SongLibrary

open FileTree (AddsDirectories Prunes MovesFile Lands find_file_iff)

variable {t t' : FileTree} {source target musicDir : Path} {l : Location} {c : Content}

/-- The fault of a file that a failure comes from. -/
def Failure.fault? : Failure → Option Fault
  | io fault => some fault
  | context _ cause => cause.fault?
  | database | metadata _ _ | organization _ | protocol _ | configuration _ => none

/-! ## The parts of a move -/

/-- **A file that is moved is where the target leads, and nowhere else.** -/
theorem moveFile_ok (hs : t.find source = .ok (l, .file c))
    (h : moveFile t source target = (t', .ok ())) :
    ∃ k, t.Lands target k ∧ (k = l ∧ t' = t ∨ k ≠ l ∧ MovesFile t t' l k c) := by
  have hl := (Lands.of_find hs).ne_nil
  unfold moveFile at h
  split at h
  · next t₁ hrename =>
    cases h
    exact FileTree.moves_of_rename hs hrename
  · next fault hrename =>
    split at h
    · cases h
    · next t₁ hcopy =>
      simp only [FileTree.copy, hs] at hcopy
      obtain ⟨k, hlands, rfl⟩ := FileTree.write_eq_ok_iff.1 hcopy
      -- A file can be renamed to its own place, so what is copied goes elsewhere.
      have hkl : k ≠ l := by
        rintro rfl
        have hdevice : t.sameDevice k.dropLast k.dropLast := by simp [FileTree.sameDevice]
        rw [(FileTree.rename_eq_ok_iff hs).2 ⟨k, hlands, hdevice, rfl⟩] at hrename
        cases hrename
      have hadded : ∀ m, (t.put k (.file c)).get? m = if m = k then some (.file c) else t.get? m :=
        fun m => FileTree.get?_put t hlands.ne_nil _ m
      split at h
      · cases h
      · next t₂ hremove =>
        cases h
        obtain ⟨l', c', hfind, rfl⟩ := FileTree.removeFile_eq_ok_iff.1 hremove
        have hll' : l' = l := by
          rw [(FileTree.route_of_find hfind).2, (FileTree.route_of_find hs).2]
          exact FileTree.destination_congr rfl source
        subst hll'
        refine ⟨k, hlands, .inr ⟨hkl, rfl, rfl, ?_⟩⟩
        intro m
        rw [FileTree.get?_erase _ hl, hadded]
        by_cases hm : m = l'
        · simp [hm, Ne.symm hkl]
        · simp [hm]

theorem workingDir_of_moved {k : Location} (h : k = l ∧ t' = t ∨ k ≠ l ∧ MovesFile t t' l k c) :
    t'.workingDir = t.workingDir := by
  rcases h with ⟨-, rfl⟩ | ⟨-, hmoves⟩
  · rfl
  · exact hmoves.workingDir

/-- A file that is not moved is where it was, and the target leads to no place
    for it. -/
theorem moveFile_error {failure : Failure} (hs : t.find source = .ok (l, .file c))
    (h : moveFile t source target = (t', .error failure)) :
    t' = t ∧ ∀ k, ¬ t.Lands target k := by
  unfold moveFile at h
  split at h
  · cases h
  · next fault hrename =>
    split at h
    · next fault' hcopy =>
      cases h
      refine ⟨rfl, ?_⟩
      intro k hlands
      simp only [FileTree.copy, hs] at hcopy
      rw [FileTree.write_eq_ok_iff.2 ⟨k, hlands, rfl⟩] at hcopy
      cases hcopy
    · next t₁ hcopy =>
      -- A file that has been copied is still found, and can be removed.
      exfalso
      simp only [FileTree.copy, hs] at hcopy
      obtain ⟨k, hlands, rfl⟩ := FileTree.write_eq_ok_iff.1 hcopy
      have hadded : ∀ m, (t.put k (.file c)).get? m = if m = k then some (.file c) else t.get? m :=
        fun m => FileTree.get?_put t hlands.ne_nil _ m
      obtain ⟨parent, name, -, rfl, hget⟩ := find_file_iff.1 hs
      have hfind : (t.put k (.file c)).find source = .ok (parent ++ [name], .file c) := by
        refine FileTree.find_of_route (t := t) rfl ?_ ?_ hs
        · intro d hd
          have hdir := (FileTree.route_of_find hs).1 d hd
          obtain ⟨_, _, -, -, hfree⟩ := hlands
          rw [hadded, if_neg]
          · exact hdir
          · rintro rfl
            exact hfree hdir
        · rw [hadded]
          split
          · rfl
          · exact hget
      rw [FileTree.removeFile_eq_ok_iff.2 ⟨_, c, hfind, rfl⟩] at h
      cases h

/-- A move that fails leaves the tree as it is, also where there is no file. -/
theorem moveFile_failed {failure : Failure} (h : moveFile t source target = (t', .error failure)) :
    t' = t := by
  cases hs : t.find source with
  | ok found =>
    obtain ⟨l, _ | c⟩ := found
    · unfold moveFile at h
      split at h
      · cases h
      · simp only [FileTree.copy, hs] at h
        cases h
        rfl
    · exact (moveFile_error hs h).1
  | error fault =>
    unfold moveFile at h
    split at h
    · cases h
    · simp only [FileTree.copy, hs] at h
      cases h
      rfl

theorem createParent_adds (t : FileTree) (target : Path) :
    AddsDirectories t (createParent t target).1 := by
  unfold createParent
  split
  · exact .refl t
  · next parent _ =>
    have hadds := FileTree.createDirectories_adds (t := t) parent
    split
    · next h =>
      rw [h] at hadds
      exact hadds
    · next h =>
      rw [h] at hadds
      exact hadds

theorem removeEmptyDirectories_prunes (root : Path) (t : FileTree) (p : Path)
    (parents : List Path) : Prunes t (removeEmptyDirectories root t p parents) := by
  fun_induction removeEmptyDirectories root t p parents with
  | case3 t p _ t' hremove => exact FileTree.removeDirectory_prunes hremove
  | case4 t p _ t' hremove q rest ih => exact (FileTree.removeDirectory_prunes hremove).trans ih
  | _ => exact .refl _

theorem cleanUp_prunes (t : FileTree) (musicDir source : Path) :
    Prunes t (cleanUp t musicDir source) := by
  unfold cleanUp
  split
  · exact .refl t
  · exact removeEmptyDirectories_prunes _ _ _ _

/-- A file is found where it has been moved. -/
theorem find_of_moveFile {k : Location} (hs : t.find source = .ok (l, .file c))
    (hlands : t.Lands target k) (hmoved : k = l ∧ t' = t ∨ k ≠ l ∧ MovesFile t t' l k c) :
    t'.find target = .ok (k, .file c) := by
  obtain ⟨-, -, -, -, hget⟩ := find_file_iff.1 hs
  obtain ⟨parent, name, hlocate, rfl, hfree⟩ := hlands
  rcases hmoved with ⟨rfl, rfl⟩ | ⟨-, hmoves⟩
  · exact find_file_iff.2 ⟨parent, name, hlocate, rfl, hget⟩
  · refine find_file_iff.2 ⟨parent, name, ?_, rfl, by simp [hmoves.get?]⟩
    refine FileTree.locate_of_route hmoves.workingDir ?_ hlocate
    intro d hd
    have hfollow := (FileTree.locate_eq_ok_iff.1 hlocate).1
    have hdir := (FileTree.follow_eq_ok_iff.1 hfollow).2.2 d hd
    have hdk : d ≠ parent ++ [name] := by
      rintro rfl
      exact hfree hdir
    have hdl : d ≠ l := by
      rintro rfl
      rw [hdir] at hget
      cases hget
    rw [hmoves.get?, if_neg hdk, if_neg hdl, hdir]

/-! ## What a move comes to -/

/-- The target is another path than the source and leads nowhere, and its parent
    has been created. -/
structure Prepares (t : FileTree) (source target : Path) (t₁ : FileTree) : Prop where
  differs : target.sameAs source = false
  free : t.pathExists target = false
  parent : createParent t target = (t₁, .ok ())

theorem Prepares.adds {t₁ : FileTree} (h : Prepares t source target t₁) : AddsDirectories t t₁ := by
  have hadds := createParent_adds t target
  rwa [h.parent] at hadds

/-- What moving a file to a target comes to. -/
inductive Organized (t : FileTree) (source musicDir target : Path) (l : Location) (c : Content) :
    FileTree × Except Failure Path → Prop where
  /-- The target is the source. -/
  | same (h : target.sameAs source) : Organized t source musicDir target l c (t, .ok target)
  /-- The file stays, and perhaps directories have been created. -/
  | refused {t' : FileTree} (failure : Failure) (hd : target.sameAs source = false)
      (h : t' = t ∨ t' = (createParent t target).1)
      (hfree : ∀ t₁, Prepares t source target t₁ → ∀ k, ¬ t₁.Lands target k) :
      Organized t source musicDir target l c (t', .error failure)
  /-- The file has moved, and directories that it left empty are removed. -/
  | moved {t₁ t₂ : FileTree} {k : Location} (hp : Prepares t source target t₁)
      (hlands : t₁.Lands target k) (hmove : moveFile t₁ source target = (t₂, .ok ()))
      (hmoved : k = l ∧ t₂ = t₁ ∨ k ≠ l ∧ MovesFile t₁ t₂ l k c) :
      Organized t source musicDir target l c (cleanUp t₂ musicDir source, .ok target)

theorem organizeFile_cases (musicDir : Path) {relative : String} (hs : t.find source = .ok (l, .file c))
    (hr : relative.isEmpty = false) :
    Organized t source musicDir (resolve musicDir relative) l c
      (organizeFile t source musicDir relative) := by
  unfold organizeFile resolve
  simp only [hr, Bool.false_eq_true, if_false]
  generalize musicDir.join (.ofString relative) = target
  -- The checks in their order: the same path, a path that exists, the directories, the move.
  split
  · next hsame => exact .same hsame
  · next hdiffers =>
    replace hdiffers : target.sameAs source = false := by simpa using hdiffers
    split
    · next hexists =>
      refine .refused _ hdiffers (.inl rfl) ?_
      intro t₁ hp
      rw [hp.free] at hexists
      cases hexists
    · next hfree =>
      have hadds := createParent_adds t target
      split
      · next t₁ failure hparent =>
        refine .refused _ hdiffers (.inr (by rw [hparent])) ?_
        intro t₂ hp
        rw [hp.parent] at hparent
        cases hparent
      · next t₁ hparent =>
        rw [hparent] at hadds
        have hp : Prepares t source target t₁ :=
          ⟨hdiffers, by simpa using hfree, hparent⟩
        split
        · next hmove =>
          obtain ⟨rfl, hnone⟩ := moveFile_error (hadds.find hs) hmove
          refine .refused _ hdiffers (.inr (by rw [hparent])) ?_
          intro t₂ hp₂
          have heq := hp.parent.symm.trans hp₂.parent
          cases heq
          exact hnone
        · next t₂ hmove =>
          obtain ⟨k, hlands, hmoved⟩ := moveFile_ok (hadds.find hs) hmove
          exact .moved hp hlands hmove hmoved

/-! ## When a move is safe -/

/-- A move of the file with content `c` at `l` is safe: the content is at the
    place it is said to be, or no file has changed; and every other file is as
    it was. -/
def MovedSafely (t : FileTree) (l : Location) (c : Content) :
    FileTree × Except Failure Path → Prop
  | (t', .ok place) => t'.read place = .ok c ∧
      ∀ k d, k ≠ l → t.get? k = some (.file d) → t'.get? k = some (.file d)
  | (t', .error _) => ∀ k d, t.get? k = some (.file d) → t'.get? k = some (.file d)

/-- The target is the source in another spelling, under which the file cannot be
    read: with a slash at its end, or too long. -/
def Misspelt (t : FileTree) (source target : Path) (c : Content) : Prop :=
  target.sameAs source ∧ t.read target ≠ .ok c

/-- Once its parent has been created, the target leads to another file. -/
def Overwrites (t : FileTree) (source target : Path) (l : Location) (c : Content) : Prop :=
  ∃ t₁ k d, Prepares t source target t₁ ∧ t₁.find target = .ok (k, .file d) ∧ k ≠ l ∧ d ≠ c

/-- A directory that the target leads through is removed because the file has
    left it empty. -/
def CutsOff (t : FileTree) (source target musicDir : Path) : Prop :=
  ∃ t₁ t₂, Prepares t source target t₁ ∧ moveFile t₁ source target = (t₂, .ok ()) ∧
    ∃ d ∈ t.route target, (cleanUp t₂ musicDir source).get? d ≠ some .directory

namespace Organized

variable {t₁ t₂ : FileTree} {k : Location}

theorem safe_iff_of_same (h : target.sameAs source) :
    MovedSafely t l c (t, .ok target) ↔
      ¬ Misspelt t source target c ∧ ¬ Overwrites t source target l c ∧
        ¬ CutsOff t source target musicDir := by
  have hnot : ∀ t₁, ¬ Prepares t source target t₁ := by
    intro t₁ hp
    rw [hp.differs] at h
    cases h
  constructor
  · rintro ⟨hread, -⟩
    refine ⟨fun hm => hm.2 hread, ?_, ?_⟩
    · rintro ⟨t₁, -, -, hp, -⟩
      exact hnot t₁ hp
    · rintro ⟨t₁, -, hp, -⟩
      exact hnot t₁ hp
  · rintro ⟨hspelt, -, -⟩
    have hread : t.read target = .ok c := by
      by_contra hne
      exact hspelt ⟨h, hne⟩
    exact ⟨hread, fun k d _ hk => hk⟩

theorem safe_iff_of_refused {failure : Failure} (hs : t.find source = .ok (l, .file c))
    (hd : target.sameAs source = false) (h : t' = t ∨ t' = (createParent t target).1)
    (hfree : ∀ t₁, Prepares t source target t₁ → ∀ k, ¬ t₁.Lands target k) :
    MovedSafely t l c (t', .error failure) ↔
      ¬ Misspelt t source target c ∧ ¬ Overwrites t source target l c ∧
        ¬ CutsOff t source target musicDir := by
  have hadds : AddsDirectories t t' := by
    rcases h with rfl | rfl
    · exact .refl _
    · exact createParent_adds t target
  refine iff_of_true (fun k d hk => hadds.some hk) ⟨?_, ?_, ?_⟩
  · rintro ⟨hsame, -⟩
    rw [hd] at hsame
    cases hsame
  · rintro ⟨t₁, k, d, hp, hfind, -⟩
    exact hfree t₁ hp k (.of_find hfind)
  · rintro ⟨t₁, t₂, hp, hmove, -⟩
    obtain ⟨k, hlands, -⟩ := moveFile_ok (hp.adds.find hs) hmove
    exact hfree t₁ hp k hlands

/-- A moved file is found at the target, as long as the way there stays. -/
theorem read_of_moved (hs : t.find source = .ok (l, .file c)) (hp : Prepares t source target t₁)
    (hlands : t₁.Lands target k) (hmoved : k = l ∧ t₂ = t₁ ∨ k ≠ l ∧ MovesFile t₁ t₂ l k c) :
    (cleanUp t₂ musicDir source).read target = .ok c ↔
      ∀ d ∈ t.route target, (cleanUp t₂ musicDir source).get? d = some .directory := by
  have hprunes := cleanUp_prunes t₂ musicDir source
  have hfound := find_of_moveFile (hp.adds.find hs) hlands hmoved
  have hw : t₂.workingDir = t.workingDir :=
    (workingDir_of_moved hmoved).trans hp.adds.workingDir
  rw [← FileTree.route_congr hw]
  constructor
  · intro hread d hd
    obtain ⟨l', hfind⟩ := FileTree.read_eq_ok_iff.1 hread
    rw [← FileTree.route_congr hprunes.workingDir] at hd
    exact (FileTree.route_of_find hfind).1 d hd
  · intro hroute
    obtain ⟨-, -, -, -, hget⟩ := find_file_iff.1 hfound
    have hkept := hprunes.file_iff.2 hget
    exact FileTree.read_eq_ok_iff.2
      ⟨k, FileTree.find_of_route hprunes.workingDir hroute hkept hfound⟩

/-- A moved file is read at the target, unless a directory on the way there is removed. -/
theorem read_iff_of_moved (hs : t.find source = .ok (l, .file c)) (hp : Prepares t source target t₁)
    (hlands : t₁.Lands target k) (hmove : moveFile t₁ source target = (t₂, .ok ()))
    (hmoved : k = l ∧ t₂ = t₁ ∨ k ≠ l ∧ MovesFile t₁ t₂ l k c) :
    (cleanUp t₂ musicDir source).read target = .ok c ↔ ¬ CutsOff t source target musicDir := by
  rw [read_of_moved hs hp hlands hmoved]
  constructor
  · rintro hroute ⟨t₁', t₂', hp', hmove', d, hd, hnot⟩
    have heq := hp.parent.symm.trans hp'.parent
    cases heq
    have heq := hmove.symm.trans hmove'
    cases heq
    exact hnot (hroute d hd)
  · intro hcut d hd
    by_contra hnot
    exact hcut ⟨t₁, t₂, hp, hmove, d, hd, hnot⟩

theorem safe_iff_of_moved (hs : t.find source = .ok (l, .file c))
    (hp : Prepares t source target t₁) (hlands : t₁.Lands target k)
    (hmove : moveFile t₁ source target = (t₂, .ok ()))
    (hmoved : k = l ∧ t₂ = t₁ ∨ k ≠ l ∧ MovesFile t₁ t₂ l k c) :
    MovedSafely t l c (cleanUp t₂ musicDir source, .ok target) ↔
      ¬ Misspelt t source target c ∧ ¬ Overwrites t source target l c ∧
        ¬ CutsOff t source target musicDir := by
  have hprunes := cleanUp_prunes t₂ musicDir source
  have hcut : (cleanUp t₂ musicDir source).read target = .ok c ↔
      ¬ CutsOff t source target musicDir := read_iff_of_moved hs hp hlands hmove hmoved
  -- Another file is lost just if it was at the place that the source moves to.
  have hover : (∀ m d, m ≠ l → t.get? m = some (.file d) →
      (cleanUp t₂ musicDir source).get? m = some (.file d)) ↔
        ¬ Overwrites t source target l c := by
    constructor
    · rintro hkept ⟨t₁', k', d, hp', hfind, hkl, hdc⟩
      have heq := hp.parent.symm.trans hp'.parent
      cases heq
      obtain rfl := hlands.unique (.of_find hfind)
      obtain ⟨-, -, -, -, hget⟩ := find_file_iff.1 hfind
      have hthere := hkept k d hkl (hp.adds.file hget)
      rcases hmoved with ⟨rfl, -⟩ | ⟨-, hmoves⟩
      · exact hkl rfl
      · rw [hprunes.file_iff, hmoves.get?, if_pos rfl] at hthere
        cases hthere
        exact hdc rfl
    · intro hover m d hml hm
      have hm₁ := hp.adds.some hm
      rw [hprunes.file_iff]
      rcases hmoved with ⟨-, rfl⟩ | ⟨hkl, hmoves⟩
      · exact hm₁
      · rw [hmoves.get?]
        split
        · next hmk =>
          subst hmk
          obtain ⟨parent, name, hlocate, hk, -⟩ := hlands
          have hfind := find_file_iff.2 ⟨parent, name, hlocate, hk, hm₁⟩
          by_contra hdc
          exact hover ⟨t₁, m, d, hp, hfind, hkl, fun e => hdc (by rw [e])⟩
        · exact hm₁
  have hspelt : ¬ Misspelt t source target c := by
    rintro ⟨hsame, -⟩
    rw [hp.differs] at hsame
    cases hsame
  rw [MovedSafely, hcut, hover, and_iff_right hspelt, and_comm]

end Organized

/-- **A move is safe, with three exceptions.**  A file is moved to its place or
    stays where it is, and no other file is touched, unless the place is the file
    itself in another spelling, or parts `..` of the place make it lead to another
    file, or through a directory that goes once the file has left it. -/
theorem organizeFile_safe_iff {relative : String} (hs : t.find source = .ok (l, .file c))
    (hr : relative.isEmpty = false) :
    MovedSafely t l c (organizeFile t source musicDir relative) ↔
      ¬ Misspelt t source (resolve musicDir relative) c ∧
        ¬ Overwrites t source (resolve musicDir relative) l c ∧
        ¬ CutsOff t source (resolve musicDir relative) musicDir := by
  have hcases := organizeFile_cases musicDir hs hr
  generalize resolve musicDir relative = target at hcases ⊢
  generalize organizeFile t source musicDir relative = result at hcases ⊢
  cases hcases with
  | same h => exact Organized.safe_iff_of_same h
  | refused failure hd h hfree => exact Organized.safe_iff_of_refused hs hd h hfree
  | moved hp hlands hmove hmoved => exact Organized.safe_iff_of_moved hs hp hlands hmove hmoved

/-- A library with two songs. -/
def twoSongs : FileTree where
  entries :=
    [([.ofString "music"], .directory),
      ([.ofString "music", .ofString "a.mp3"], .file (.text "a")),
      ([.ofString "music", .ofString "b.mp3"], .file (.text "b"))]

theorem organizeFile_safe_iff_twoSongs :
    twoSongs.find (.ofString "/music/a.mp3") =
        .ok ([.ofString "music", .ofString "a.mp3"], .file (.text "a")) ∧
      (MovedSafely twoSongs [.ofString "music", .ofString "a.mp3"] (.text "a")
          (organizeFile twoSongs (.ofString "/music/a.mp3") (.ofString "/music") "x/c.mp3") ↔
        ¬ Misspelt twoSongs (.ofString "/music/a.mp3")
            (resolve (.ofString "/music") "x/c.mp3") (.text "a") ∧
          ¬ Overwrites twoSongs (.ofString "/music/a.mp3") (resolve (.ofString "/music") "x/c.mp3")
            [.ofString "music", .ofString "a.mp3"] (.text "a") ∧
          ¬ CutsOff twoSongs (.ofString "/music/a.mp3") (resolve (.ofString "/music") "x/c.mp3")
            (.ofString "/music")) := by
  have hs : twoSongs.find (.ofString "/music/a.mp3") =
      .ok ([.ofString "music", .ofString "a.mp3"], .file (.text "a")) := by
    decide +kernel
  exact ⟨hs, organizeFile_safe_iff hs (by decide +kernel)⟩

theorem MovedSafely.kept {result : FileTree × Except Failure Path} {k : Location} {d : Content}
    (h : MovedSafely t l c result) (hk : k ≠ l) (hd : t.get? k = some (.file d)) :
    result.1.get? k = some (.file d) := by
  obtain ⟨t', failure | place⟩ := result
  · exact h k d hd
  · exact h.2 k d hk hd

/-- **A file can be lost**: moved to `x/../b.mp3`, where `x` is not there yet, a
    file takes the place of `b.mp3`. -/
theorem organizeFile_loses_file :
    twoSongs.find (.ofString "/music/a.mp3") =
        .ok ([.ofString "music", .ofString "a.mp3"], .file (.text "a")) ∧
      ¬ MovedSafely twoSongs [.ofString "music", .ofString "a.mp3"] (.text "a")
        (organizeFile twoSongs (.ofString "/music/a.mp3") (.ofString "/music") "x/../b.mp3") := by
  refine ⟨by decide +kernel, ?_⟩
  intro h
  have hkept := h.kept (show [.ofString "music", .ofString "b.mp3"] ≠ _ by decide +kernel)
    (show twoSongs.get? _ = some (.file (.text "b")) by decide +kernel)
  revert hkept
  decide +kernel

/-! ## Direct targets -/

theorem not_overwrites_of_direct (hwf : t.WellFormed) (hd : t.IsDirect target) :
    ¬ Overwrites t source target l c := by
  rintro ⟨t₁, k, d, hp, hfind, -, -⟩
  obtain ⟨-, -, -, -, hget⟩ := find_file_iff.1 hfind
  have hbefore := hwf.find_of_direct hp.adds.workingDir hfind hd (hp.adds.file hget)
  have hfree := hp.free
  simp [FileTree.pathExists, hbefore, Except.isOk, Except.toBool] at hfree

theorem not_cutsOff_of_direct (hs : t.find source = .ok (l, .file c)) (hd : t.IsDirect target) :
    ¬ CutsOff t source target musicDir := by
  rintro ⟨t₁, t₂, hp, hmove, d, hroute, hnot⟩
  obtain ⟨k, hlands, hmoved⟩ := moveFile_ok (hp.adds.find hs) hmove
  have hfound := find_of_moveFile (hp.adds.find hs) hlands hmoved
  obtain ⟨-, -, -, -, hget⟩ := find_file_iff.1 hfound
  obtain ⟨hdirs, hdest⟩ := FileTree.route_of_find hfound
  have hw : t₂.workingDir = t.workingDir :=
    (workingDir_of_moved hmoved).trans hp.adds.workingDir
  rw [FileTree.route_congr hw] at hdirs
  rw [FileTree.destination_congr hw] at hdest
  exact hnot ((cleanUp_prunes t₂ musicDir source).directory hget (hdest ▸ hd d hroute)
    (hdirs d hroute))

/-! ## What a move leaves alone -/

theorem createParent_wellFormed (hwf : t.WellFormed) (target : Path) :
    (createParent t target).1.WellFormed := by
  unfold createParent
  split
  · exact hwf
  · next parent _ =>
    have hcreated := hwf.createDirectories parent
    split
    · next h =>
      rw [h] at hcreated
      exact hcreated
    · next h =>
      rw [h] at hcreated
      exact hcreated

theorem Prepares.wellFormed {t₁ : FileTree} (h : Prepares t source target t₁) (hwf : t.WellFormed) :
    t₁.WellFormed := by
  have hwf₁ := createParent_wellFormed hwf target
  rwa [h.parent] at hwf₁

namespace Organized

variable {result : FileTree × Except Failure Path}

theorem workingDir (h : Organized t source musicDir target l c result) :
    result.1.workingDir = t.workingDir := by
  cases h with
  | same _ => rfl
  | refused _ _ h _ =>
    rcases h with rfl | rfl
    · rfl
    · exact (createParent_adds t target).workingDir
  | @moved t₁ t₂ _ hp _ _ hmoved =>
    exact ((cleanUp_prunes _ _ _).workingDir.trans (workingDir_of_moved hmoved)).trans
      hp.adds.workingDir

theorem wellFormed (h : Organized t source musicDir target l c result)
    (hs : t.find source = .ok (l, .file c)) (hwf : t.WellFormed) : result.1.WellFormed := by
  cases h with
  | same _ => exact hwf
  | refused _ _ h _ =>
    rcases h with rfl | rfl
    · exact hwf
    · exact createParent_wellFormed hwf target
  | @moved t₁ t₂ k hp hlands _ hmoved =>
    have hwf₁ := hp.wellFormed hwf
    have hwf₂ : t₂.WellFormed := by
      rcases hmoved with ⟨-, rfl⟩ | ⟨hkl, hmoves⟩
      · exact hwf₁
      · obtain ⟨-, -, -, -, hget⟩ := find_file_iff.1 hs
        exact hwf₁.moves (hp.adds.some hget) hlands hkl hmoves
    exact hwf₂.prunes (cleanUp_prunes _ _ _)

/-- A move leaves alone what is neither moved nor at its place. -/
theorem file_iff {m : Location} {d : Content} (h : Organized t source musicDir target l c result)
    (hs : t.find source = .ok (l, .file c)) (hm : m ≠ l)
    (hplace : result.2.toOption.map t.destination ≠ some m) :
    result.1.get? m = some (.file d) ↔ t.get? m = some (.file d) := by
  cases h with
  | same _ => exact Iff.rfl
  | refused _ _ h _ =>
    rcases h with rfl | rfl
    · exact Iff.rfl
    · exact ⟨(createParent_adds t target).file, (createParent_adds t target).some⟩
  | @moved t₁ t₂ k hp hlands hmove hmoved =>
    have hk : k = t.destination target :=
      hlands.eq_destination.trans (FileTree.destination_congr hp.adds.workingDir target)
    have hmk : m ≠ k := by
      rintro rfl
      exact hplace (by simp [Except.toOption, ← hk])
    rw [(cleanUp_prunes _ _ _).file_iff]
    rcases hmoved with ⟨rfl, rfl⟩ | ⟨-, hmoves⟩
    · exact ⟨hp.adds.file, hp.adds.some⟩
    · rw [hmoves.get?, if_neg hmk, if_neg hm]
      exact ⟨hp.adds.file, hp.adds.some⟩

/-- A move leaves tables alone, but for the one at its place. -/
theorem tableAt? (h : Organized t source musicDir target l c result)
    (hs : t.find source = .ok (l, .file c)) (hc : ∀ table, c ≠ .songs table) (m : Location) :
    result.1.tableAt? m =
      if result.2.toOption.map t.destination = some m then none else t.tableAt? m := by
  obtain ⟨-, -, -, -, hget⟩ := find_file_iff.1 hs
  have hl := (FileTree.route_of_find hs).2
  cases h with
  | same hsame =>
    simp only [Except.toOption, Option.map_some, Option.some.injEq]
    rw [FileTree.destination_of_sameAs hsame, ← hl]
    split
    · next hlm => rw [← hlm, FileTree.tableAt?_eq_none hget hc]
    · rfl
  | refused _ _ h _ =>
    simp only [Except.toOption, Option.map_none, reduceCtorEq, if_false]
    rcases h with rfl | rfl
    · rfl
    · exact (createParent_adds t target).tableAt? m
  | @moved t₁ t₂ k hp hlands hmove hmoved =>
    have hk : k = t.destination target :=
      hlands.eq_destination.trans (FileTree.destination_congr hp.adds.workingDir target)
    have hget₁ := hp.adds.some hget
    simp only [Except.toOption, Option.map_some, Option.some.injEq, ← hk]
    rw [(cleanUp_prunes _ _ _).tableAt?, ← hp.adds.tableAt? m]
    rcases hmoved with ⟨rfl, rfl⟩ | ⟨-, hmoves⟩
    · split
      · next hkm => rw [← hkm, FileTree.tableAt?_eq_none hget₁ hc]
      · rfl
    · rw [hmoves.tableAt? hget₁ hc]
      simp only [@eq_comm _ m k]

end Organized

/-- **A move that gives a result keeps the tree well formed, and every table but
    the one whose place is taken.** -/
theorem organizeFile_keeps {relative : String} {result : FileTree × Except Failure Path}
    (hs : t.find source = .ok (l, .file c)) (hc : ∀ table, c ≠ .songs table) (hwf : t.WellFormed)
    (h : organizeFile t source musicDir relative = result) :
    result.1.WellFormed ∧ result.1.workingDir = t.workingDir ∧ ∀ m, result.1.tableAt? m =
      if result.2.toOption.map t.destination = some m then none else t.tableAt? m := by
  cases hr : relative.isEmpty with
  | true =>
    simp only [organizeFile, hr, if_true] at h
    subst h
    exact ⟨hwf, rfl, fun m => rfl⟩
  | false =>
    have hcases := organizeFile_cases musicDir hs hr
    rw [h] at hcases
    exact ⟨hcases.wellFormed hs hwf, hcases.workingDir, hcases.tableAt? hs hc⟩

/-- A move leaves every file alone that is neither moved nor at its place. -/
theorem organizeFile_elsewhere {relative : String} {result : FileTree × Except Failure Path}
    (hs : t.find source = .ok (l, .file c)) (hwf : t.WellFormed)
    (h : organizeFile t source musicDir relative = result) :
    result.1.WellFormed ∧ result.1.workingDir = t.workingDir ∧
      ∀ m d, m ≠ l → result.2.toOption.map t.destination ≠ some m →
        (result.1.get? m = some (.file d) ↔ t.get? m = some (.file d)) := by
  cases hr : relative.isEmpty with
  | true =>
    simp only [organizeFile, hr, if_true] at h
    subst h
    exact ⟨hwf, rfl, fun _ _ _ _ => Iff.rfl⟩
  | false =>
    have hcases := organizeFile_cases musicDir hs hr
    rw [h] at hcases
    exact ⟨hcases.wellFormed hs hwf, hcases.workingDir, fun m d hm hplace =>
      hcases.file_iff hs hm hplace⟩

/-- Where a file is moved is settled by the path that is asked for. -/
theorem organizeFile_place {relative : String} {place : Path}
    (h : organizeFile t source musicDir relative = (t', .ok place)) :
    place = resolve musicDir relative := by
  unfold organizeFile at h
  split at h
  · cases h
  · dsimp only at h
    split at h
    · cases h
      rfl
    · split at h
      · cases h
      · split at h
        · cases h
        · split at h
          · cases h
          · cases h
            rfl

/-- A move that succeeds, whatever the source leads to, has nothing to do, or it is made after
    the directory it goes to has been created, and before those that it left empty are removed. -/
theorem organizeFile_ok_cases {relative : String} {place : Path}
    (h : organizeFile t source musicDir relative = (t', .ok place)) :
    place.sameAs source ∧ t' = t ∨ ∃ t₁ t₂, Prepares t source place t₁ ∧
      moveFile t₁ source place = (t₂, .ok ()) ∧ t' = cleanUp t₂ musicDir source := by
  unfold organizeFile at h
  split at h
  · cases h
  · dsimp only at h
    split at h
    · next hsame =>
      cases h
      exact .inl ⟨hsame, rfl⟩
    · next hdiffers =>
      split at h
      · cases h
      · next hfree =>
        split at h
        · cases h
        · next t₁ hparent =>
          split at h
          · cases h
          · next t₂ hmove =>
            cases h
            exact .inr ⟨t₁, t₂, ⟨by simpa using hdiffers, by simpa using hfree, hparent⟩, hmove, rfl⟩

/-- A move that fails, whatever the source leads to, has created directories at most: those that
    the file was to be in, unless the place was taken. -/
theorem organizeFile_error_cases {relative : String} {failure : Failure}
    (h : organizeFile t source musicDir relative = (t', .error failure)) :
    t' = t ∨ relative.isEmpty = false ∧ t.pathExists (resolve musicDir relative) = false ∧
      t' = (createParent t (resolve musicDir relative)).1 := by
  unfold organizeFile at h
  split at h
  · cases h
    exact .inl rfl
  · next hr =>
    dsimp only at h
    split at h
    · cases h
    · split at h
      · cases h
        exact .inl rfl
      · next hfree =>
        refine .inr ⟨by simpa using hr, by simpa [resolve] using hfree, ?_⟩
        rw [resolve]
        split at h
        · next hparent =>
          cases h
          rw [hparent]
        · next hparent =>
          split at h
          · next hmove =>
            cases h
            rw [hparent, moveFile_failed hmove]
          · cases h

/-- A move that fails adds directories at most. -/
theorem organizeFile_error_adds {relative : String} {failure : Failure}
    (h : organizeFile t source musicDir relative = (t', .error failure)) :
    AddsDirectories t t' ∧ (t.WellFormed → t'.WellFormed) := by
  rcases organizeFile_error_cases h with rfl | ⟨-, -, rfl⟩
  · exact ⟨.refl _, id⟩
  · exact ⟨createParent_adds t _, fun hwf => createParent_wellFormed hwf _⟩

/-- **A move to a place that is direct takes the file there**, where no other file
    was. -/
theorem organizeFile_ok {relative : String} {place : Path} (hs : t.find source = .ok (l, .file c))
    (hwf : t.WellFormed) (h : organizeFile t source musicDir relative = (t', .ok place))
    (hp : t.Leads place) :
    place = resolve musicDir relative ∧
      (t.HasFile (t.destination place) → t.destination place = l) ∧
      ∀ m, t'.HasFile m ↔ m = t.destination place ∨ m ≠ l ∧ t.HasFile m := by
  obtain ⟨-, -, -, -, hget⟩ := find_file_iff.1 hs
  have hl := (FileTree.route_of_find hs).2
  have hr : relative.isEmpty = false := by
    cases hr : relative.isEmpty with
    | true =>
      simp only [organizeFile, hr, if_true] at h
      cases h
    | false => rfl
  have hcases := organizeFile_cases musicDir hs hr
  rw [h] at hcases
  generalize hresult : (t', Except.ok place) = result at hcases
  cases hcases with
  | same hsame =>
    cases hresult
    have hdest := FileTree.destination_of_sameAs (t := t) hsame
    rw [← hl] at hdest
    refine ⟨rfl, fun _ => hdest, ?_⟩
    intro m
    rw [hdest]
    exact FileTree.HasFile.iff ⟨c, hget⟩ m
  | refused _ _ _ _ => cases hresult
  | @moved t₁ t₂ k hprep hlands _ hmoved =>
    cases hresult
    have hk : k = t.destination (resolve musicDir relative) :=
      hlands.eq_destination.trans (FileTree.destination_congr hprep.adds.workingDir _)
    rw [← hk]
    refine ⟨rfl, ?_, ?_⟩
    · rintro ⟨d, hd⟩
      -- A file at the place would have been found before the move.
      have hfree := hprep.free
      rw [FileTree.pathExists, hwf.find_of_leads hp (hk ▸ hd)] at hfree
      cases hfree
    · intro m
      rw [(cleanUp_prunes _ _ _).hasFile]
      rcases hmoved with ⟨rfl, rfl⟩ | ⟨-, hmoves⟩
      · rw [hprep.adds.hasFile]
        exact FileTree.HasFile.iff ⟨c, hget⟩ m
      · rw [hmoves.hasFile, hprep.adds.hasFile]

/-! ## What is read afterwards -/

/-- **What is read at the place of a file that has moved** is its content, unless the place is
    the file itself in another spelling, or the way there is cut off. -/
theorem organizeFile_read {relative : String} {place : Path} (hs : t.find source = .ok (l, .file c))
    (h : organizeFile t source musicDir relative = (t', .ok place)) :
    t'.read (resolve musicDir relative) = .ok c ↔
      ¬ Misspelt t source (resolve musicDir relative) c ∧
        ¬ CutsOff t source (resolve musicDir relative) musicDir := by
  have hr : relative.isEmpty = false := by
    cases hr : relative.isEmpty with
    | true =>
      simp only [organizeFile, hr, if_true] at h
      cases h
    | false => rfl
  have hcases := organizeFile_cases musicDir hs hr
  rw [h] at hcases
  generalize resolve musicDir relative = target at hcases ⊢
  generalize hresult : (t', Except.ok place) = result at hcases
  cases hcases with
  | same hsame =>
    cases hresult
    have hcut : ¬ CutsOff t source place musicDir := by
      rintro ⟨_, _, hp, -⟩
      rw [hp.differs] at hsame
      cases hsame
    rw [and_iff_left hcut, Misspelt, and_iff_right hsame, not_not]
  | refused _ _ _ _ => cases hresult
  | moved hp hlands hmove hmoved =>
    cases hresult
    have hspelt : ¬ Misspelt t source place c := by
      rintro ⟨hsame, -⟩
      rw [hp.differs] at hsame
      cases hsame
    rw [and_iff_right hspelt]
    exact Organized.read_iff_of_moved hs hp hlands hmove hmoved

/-- A file that is not moved is found where it was. -/
theorem organizeFile_stays {relative : String} {failure : Failure}
    (hs : t.find source = .ok (l, .file c)) (hr : relative.isEmpty = false)
    (h : organizeFile t source musicDir relative = (t', .error failure)) :
    t'.find source = .ok (l, .file c) ∧ ¬ Misspelt t source (resolve musicDir relative) c ∧
      ¬ CutsOff t source (resolve musicDir relative) musicDir := by
  have hadds := (organizeFile_error_adds h).1
  have hcases := organizeFile_cases musicDir hs hr
  rw [h] at hcases
  generalize resolve musicDir relative = target at hcases ⊢
  generalize hresult : (t', Except.error failure) = result at hcases
  cases hcases with
  | refused _ hd hkept hfree =>
    cases hresult
    have hsafe : MovedSafely t l c (t', .error failure) ↔ ¬ Misspelt t source target c ∧
        ¬ Overwrites t source target l c ∧ ¬ CutsOff t source target musicDir :=
      Organized.safe_iff_of_refused hs hd hkept hfree
    obtain ⟨hspelt, -, hcut⟩ := hsafe.1 fun m d hm => hadds.some hm
    exact ⟨hadds.find hs, hspelt, hcut⟩
  | _ => cases hresult

end SongLibrary
