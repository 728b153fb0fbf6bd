/-
  Names that are too long.

  * `Path.Fits`: no part of a path is too long to be a name.  Only such a path leads anywhere in
    a tree (`FileTree.fits_of_locate`), so nothing is ever moved to another
    (`not_organizeFile_ok`, `organizeFile_tooLong`);
  * `Path.IsShort`: nor is the path as a whole too long.  No operation on such a path, and so no
    move to it, fails because a name is too long (`organizeFile_fault`).
-/
import SongLibrary.Proofs.Organize
import SongLibrary.Proofs.PathAbove
import SongLibrary.Sanitizer

namespace SongLibrary

variable {t t' : FileTree} {p q base source target musicDir : Path} {l : Location} {c : Content}

/-! ## Paths -/

theorem FileTree.isTooLong_eq_false_iff {name : Name} :
    FileTree.isTooLong name = false ↔ name.bytes.length ≤ maxNameBytes := by
  simp [isTooLong, maxNameBytes]

namespace Path

open FileTree (isTooLong isTooLong_eq_false_iff)

/-- Each part of a path is short enough to be a name. -/
def Fits (p : Path) : Prop :=
  ∀ part ∈ p.parts, part.bytes.length ≤ maxNameBytes

instance (p : Path) : Decidable p.Fits :=
  inferInstanceAs (Decidable (∀ part ∈ p.parts, part.bytes.length ≤ maxNameBytes))

theorem fits_iff : p.Fits ↔ ∀ part ∈ p.parts, isTooLong part = false := by
  simp only [Fits, isTooLong_eq_false_iff]

/-- The silent parts of a path are short enough. -/
theorem fits_iff_names : p.Fits ↔ ∀ name ∈ p.names, isTooLong name = false := by
  rw [fits_iff, names_eq_filter]
  constructor
  · intro h name hname
    exact h name (List.mem_filter.1 hname).1
  · intro h part hpart
    by_cases hsilent : part.isSilent
    · exact isTooLong_of_silent hsilent
    · exact h part (List.mem_filter.2 ⟨hpart, by simpa using hsilent⟩)

theorem Fits.join (hbase : base.Fits) (hp : p.Fits) : (base.join p).Fits := by
  cases habsolute : p.isAbsolute with
  | true => rwa [Path.join, if_pos habsolute]
  | false =>
    rw [fits_iff_names] at hbase hp ⊢
    rw [names_join base habsolute]
    intro name hname
    exact (List.mem_append.1 hname).elim (hbase name) (hp name)

theorem Fits.of_join (h : (base.join p).Fits) : p.Fits := by
  obtain ⟨front, hparts⟩ := base.exists_parts_join p
  intro part hpart
  refine h part ?_
  rw [hparts]
  exact List.mem_append_right _ hpart

/-- Paths through the same names both fit or neither does. -/
theorem fits_congr (h : p.sameAs q) : p.Fits ↔ q.Fits := by
  have hboth : p.start = q.start ∧ p.names = q.names := by
    simpa [sameAs, components] using h
  rw [fits_iff_names, fits_iff_names, hboth.2]

/-- A path that is not too long, and neither is one of its names. -/
structure IsShort (p : Path) : Prop where
  text : (Text.encode p.symbols).length ≤ maxPathBytes
  fits : p.Fits

/-- The paths above a short one are short. -/
theorem IsShort.above {n : Nat} (h : p.IsShort) (hq : q ∈ FileTree.above n p) : q.IsShort := by
  have hbytes : Text.encode q.symbols <+: Text.encode p.symbols := (above_begins hq).flatMap _
  have hnames := (above_names hq).2
  refine ⟨hbytes.length_le.trans h.text, fits_iff_names.2 ?_⟩
  intro name hname
  exact fits_iff_names.1 h.fits name (hnames.subset hname)

theorem IsShort.parent (h : p.IsShort) (hq : p.parent? = some q) : q.IsShort := by
  refine h.above (n := 1) ?_
  simp [FileTree.above, hq]

end Path

/-! ## Paths that are too long -/

namespace FileTree

/-- Where a path leads somewhere, none of its names is too long. -/
theorem fits_of_locate {spot : Spot} (h : t.locate p = .ok spot) : p.Fits := by
  obtain ⟨hfollow, hname⟩ := locate_eq_ok_iff.1 h
  obtain ⟨⟨-, hfront⟩, hspot, -⟩ := follow_eq_ok_iff.1 hfollow
  rw [Path.fits_iff]
  intro part hpart
  by_cases hempty : part = []
  · exact isTooLong_of_silent (by rw [hempty]; rfl)
  have hmem : part ∈ p.parts.filter (!·.isEmpty) :=
    List.mem_filter.2 ⟨hpart, by simpa using hempty⟩
  rcases List.eq_nil_or_concat (p.parts.filter (!·.isEmpty)) with hnil | ⟨front, last, hparts⟩
  · rw [hnil] at hmem
    cases hmem
  · rw [List.concat_eq_append] at hparts
    rw [hparts, List.dropLast_concat] at hfront
    rw [hparts, List.mem_append, List.mem_singleton] at hmem
    rcases hmem with hmem | rfl
    · exact hfront part hmem
    · -- The last part is the name at the spot, or else leads to a directory by where it is.
      unfold spotOf at hspot
      simp only [hparts, List.getLast?_concat] at hspot
      split at hspot
      · next hhere => exact isTooLong_of_silent (by rw [hhere]; rfl)
      · split at hspot
        · next hup => exact hup ▸ isTooLong_up
        · exact hname _ _ _ hspot

theorem fits_of_find {e : Entry} (h : t.find p = .ok (l, e)) : p.Fits := by
  unfold find at h
  split at h
  · next spot hlocate => exact fits_of_locate hlocate
  · cases h

end FileTree

/-- **Nothing is moved to a path with a name that is too long.** -/
theorem not_organizeFile_ok {relative : String} (hs : t.find source = .ok (l, .file c))
    (hlong : ¬ (Path.ofString relative).Fits) (place : Path) :
    (organizeFile t source musicDir relative).2 ≠ .ok place := by
  have hne : relative.isEmpty = false := by
    rw [String.isEmpty_eq_false_iff]
    rintro rfl
    exact hlong (by decide)
  have hlong' : ¬ (resolve musicDir relative).Fits := fun h => hlong (Path.Fits.of_join h)
  have hcases := organizeFile_cases musicDir hs hne
  generalize organizeFile t source musicDir relative = outcome at hcases
  cases hcases with
  | same hsame => exact absurd ((Path.fits_congr hsame).2 (FileTree.fits_of_find hs)) hlong'
  | refused failure _ _ _ => nofun
  | moved _ hlands _ _ =>
    obtain ⟨_, _, hlocate, -⟩ := hlands
    exact absurd (FileTree.fits_of_locate hlocate) hlong'

namespace FileTree

/-- The name that a path leads to is a part of the path, and that only of a directory if the
    path ends in a slash. -/
theorem spotOf_entry {name : Name} {asDirectory : Bool}
    (h : t.spotOf p = .entry l name asDirectory) :
    name ∈ p.parts ∧ asDirectory = (p.parts.getLast? == some []) := by
  unfold spotOf at h
  dsimp only at h
  split at h
  · cases h
  · next last hlast =>
    split at h
    · cases h
    · split at h
      · cases h
      · cases h
        exact ⟨(List.mem_filter.1 (List.mem_of_getLast? hlast)).1, rfl⟩

/-- Where a path that does not fit leads is under a name that is too long, if the path has no
    slash at its end. -/
theorem tooLong_of_follow {spot : Spot} (hlong : ¬ p.Fits) (hends : p.parts.getLast? ≠ some [])
    (h : t.follow p = .ok spot) : ∃ l name, spot = .entry l name false ∧ isTooLong name := by
  cases spot with
  | directory l => exact absurd (fits_of_locate (locate_eq_ok_iff.2 ⟨h, nofun⟩)) hlong
  | entry l name asDirectory =>
    have hname : isTooLong name := by
      by_contra hshort
      refine hlong (fits_of_locate (locate_eq_ok_iff.2 ⟨h, ?_⟩))
      rintro _ _ _ ⟨⟩
      simpa using hshort
    refine ⟨l, name, ?_, hname⟩
    obtain ⟨-, hspot, -⟩ := follow_eq_ok_iff.1 h
    rw [(spotOf_entry hspot.symm).2, beq_eq_false_iff_ne.2 hends]

theorem write_tooLong {name : Name} (h : t.follow p = .ok (.entry l name false))
    (hlong : isTooLong name) : t.write p c = .error .nameTooLong := by
  simp [write, h, hlong]

end FileTree

/-- A file is not copied to a name that is too long. -/
theorem moveFile_tooLong {spot : Spot} (hs : t.find source = .ok (l, .file c))
    (hlong : ¬ target.Fits) (hends : target.parts.getLast? ≠ some [])
    (hfollow : t.follow target = .ok spot) :
    ∃ failure, moveFile t source target = (t, .error failure) ∧
      failure.fault? = some .nameTooLong := by
  obtain ⟨_, _, rfl, hname⟩ := FileTree.tooLong_of_follow hlong hends hfollow
  unfold moveFile
  split
  · next hrename =>
    obtain ⟨_, ⟨_, _, hlocate, -⟩, -⟩ := FileTree.moves_of_rename hs hrename
    exact absurd (FileTree.fits_of_locate hlocate) hlong
  · simp only [FileTree.copy, hs, FileTree.write_tooLong hfollow hname]
    exact ⟨_, rfl, rfl⟩

/-- **A move to a name that is too long fails for that**, once there is a directory for it. -/
theorem organizeFile_tooLong {relative : String} {spot : Spot}
    (hs : t.find source = .ok (l, .file c)) (hlong : ¬ (Path.ofString relative).Fits)
    (hends : (Path.ofString relative).parts.getLast? ≠ some [])
    (hparent : createParent t (resolve musicDir relative) = (t', .ok ()))
    (hfollow : t'.follow (resolve musicDir relative) = .ok spot) :
    ∃ failure, organizeFile t source musicDir relative = (t', .error failure) ∧
      failure.fault? = some .nameTooLong := by
  have hlong' : ¬ (resolve musicDir relative).Fits := fun h => hlong h.of_join
  have hends' : (resolve musicDir relative).parts.getLast? ≠ some [] := by
    obtain ⟨front, hparts⟩ := musicDir.exists_parts_join (.ofString relative)
    rwa [resolve, hparts, List.getLast?_append_of_ne_nil _ (Path.splitOn_ne_nil _)]
  have hne : relative.isEmpty = false := by
    rw [String.isEmpty_eq_false_iff]
    rintro rfl
    exact hends rfl
  have hdiffers : (resolve musicDir relative).sameAs source = false := by
    rw [Bool.eq_false_iff]
    intro hsame
    exact hlong' ((Path.fits_congr hsame).2 (FileTree.fits_of_find hs))
  have hfree : t.pathExists (resolve musicDir relative) = false := by
    unfold FileTree.pathExists
    cases hfind : t.find (resolve musicDir relative) with
    | error _ => rfl
    | ok found => exact absurd (FileTree.fits_of_find hfind) hlong'
  have hadds := createParent_adds t (resolve musicDir relative)
  rw [hparent] at hadds
  obtain ⟨failure, hmove, hfault⟩ := moveFile_tooLong (hadds.find hs) hlong' hends' hfollow
  refine ⟨failure, ?_, hfault⟩
  unfold organizeFile
  rw [show musicDir.join (.ofString relative) = resolve musicDir relative from rfl]
  simp only [hne, hdiffers, hfree, hparent, hmove, Bool.false_eq_true, if_false]

/-! ## Paths that are not -/

namespace FileTree

theorem enter_ne_nameTooLong {part : Name} (h : isTooLong part = false) :
    t.enter l part ≠ .error .nameTooLong := by
  intro henter
  unfold enter at henter
  rw [h] at henter
  split at henter
  · cases henter
  · split at henter
    · cases henter
    · simp only [Bool.false_eq_true, if_false] at henter
      split at henter <;> cases henter

theorem descend_ne_nameTooLong {parts : List Name} (h : ∀ part ∈ parts, isTooLong part = false) :
    t.descend l parts ≠ .error .nameTooLong := by
  induction parts generalizing l with
  | nil => nofun
  | cons part rest ih =>
    obtain ⟨hpart, hrest⟩ := List.forall_mem_cons.1 h
    unfold descend
    split
    · exact ih hrest
    · next fault henter =>
      rintro ⟨⟩
      exact enter_ne_nameTooLong hpart henter

theorem follow_ne_nameTooLong (h : p.IsShort) : t.follow p ≠ .error .nameTooLong := by
  have hlength : ¬ (Text.encode p.symbols).length > maxPathBytes := Nat.not_lt.2 h.text
  have hparts : ∀ part ∈ (p.parts.filter (!·.isEmpty)).dropLast, isTooLong part = false :=
    fun part hpart => Path.fits_iff.1 h.fits part
      (List.mem_filter.1 (List.mem_of_mem_dropLast hpart)).1
  intro hfollow
  unfold follow at hfollow
  rw [show (if p.isAbsolute then [] else t.workingDir) = t.origin p from rfl] at hfollow
  simp only [hlength, if_false] at hfollow
  split at hfollow
  · cases hfollow
  · split at hfollow
    · cases hfollow
    · split at hfollow
      · cases hfollow
      · split at hfollow
        · cases hfollow
        · split at hfollow
          · next fault hdescend =>
            cases hfollow
            exact descend_ne_nameTooLong hparts hdescend
          · split at hfollow
            · cases hfollow
            · split at hfollow <;> cases hfollow

theorem mem_parts_of_follow {name : Name} {asDirectory : Bool}
    (h : t.follow p = .ok (.entry l name asDirectory)) : name ∈ p.parts :=
  (spotOf_entry (follow_eq_ok_iff.1 h).2.1.symm).1

theorem locate_ne_nameTooLong (h : p.IsShort) : t.locate p ≠ .error .nameTooLong := by
  unfold locate
  split
  · next hfollow =>
    rw [Path.fits_iff.1 h.fits _ (mem_parts_of_follow hfollow)]
    nofun
  · exact follow_ne_nameTooLong h

theorem createDirectory_ne_nameTooLong (h : p.IsShort) :
    t.createDirectory p ≠ .error .nameTooLong := by
  unfold createDirectory
  split
  · next fault hlocate =>
    rintro ⟨⟩
    exact locate_ne_nameTooLong h hlocate
  · nofun
  · split <;> nofun

theorem createWith_ne_nameTooLong {parents : List Path} (h : p.IsShort)
    (hparents : ∀ q ∈ parents, q.IsShort) : (t.createWith p parents).2 ≠ .error .nameTooLong := by
  fun_induction createWith t p parents with
  | case4 p _ _ q rest t' fault hfails ih =>
    obtain ⟨hq, hrest⟩ := List.forall_mem_cons.1 hparents
    have hfault := ih hq hrest
    rwa [hfails] at hfault
  | case6 p _ _ q rest t' _ fault hfails _ =>
    dsimp only
    split
    · simp
    · rintro ⟨⟩
      exact createDirectory_ne_nameTooLong h hfails
  | case7 parents p _ fault _ hfails =>
    dsimp only
    split
    · simp
    · rintro ⟨⟩
      exact createDirectory_ne_nameTooLong h hfails
  | _ => simp

theorem createDirectories_ne_nameTooLong (h : p.IsShort) :
    (t.createDirectories p).2 ≠ .error .nameTooLong :=
  createWith_ne_nameTooLong h fun _ hq => h.above hq

theorem write_ne_nameTooLong (h : p.IsShort) : t.write p c ≠ .error .nameTooLong := by
  intro hwrite
  unfold write at hwrite
  split at hwrite
  · next fault hfollow =>
    cases hwrite
    exact follow_ne_nameTooLong h hfollow
  · cases hwrite
  · next hfollow =>
    rw [Path.fits_iff.1 h.fits _ (mem_parts_of_follow hfollow)] at hwrite
    split at hwrite
    · cases hwrite
    · simp only [Bool.false_eq_true, if_false] at hwrite
      split at hwrite <;> cases hwrite

end FileTree

variable {failure : Failure}

theorem createParent_fault (h : target.IsShort)
    (hfails : createParent t target = (t', .error failure)) :
    failure.fault? ≠ some .nameTooLong := by
  unfold createParent at hfails
  split at hfails
  · cases hfails
  · next parent hparent =>
    have hshort := h.parent hparent
    have hnone := FileTree.createDirectories_ne_nameTooLong (t := t) hshort
    split at hfails
    · cases hfails
    · next fault hcreate =>
      cases hfails
      rintro ⟨⟩
      exact hnone (congrArg Prod.snd hcreate)

theorem moveFile_fault (hs : t.find source = .ok (l, .file c)) (h : target.IsShort)
    (hfails : moveFile t source target = (t', .error failure)) :
    failure.fault? ≠ some .nameTooLong := by
  obtain ⟨-, hnone⟩ := moveFile_error hs hfails
  unfold moveFile at hfails
  split at hfails
  · cases hfails
  · split at hfails
    · next fault hcopy =>
      cases hfails
      rw [FileTree.copy, hs] at hcopy
      rintro ⟨⟩
      exact FileTree.write_ne_nameTooLong h hcopy
    · next t₁ hcopy =>
      -- A file that can be copied to the target can be moved there.
      simp only [FileTree.copy, hs] at hcopy
      obtain ⟨k, hlands, -⟩ := FileTree.write_eq_ok_iff.1 hcopy
      exact absurd hlands (hnone k)

/-- **No move to a short path fails because a name is too long.** -/
theorem organizeFile_fault {relative : String} (hs : t.find source = .ok (l, .file c))
    (h : (resolve musicDir relative).IsShort)
    (hfails : (organizeFile t source musicDir relative).2 = .error failure) :
    failure.fault? ≠ some .nameTooLong := by
  unfold organizeFile at hfails
  split at hfails
  · cases hfails
    nofun
  · rw [show musicDir.join (.ofString relative) = resolve musicDir relative from rfl] at hfails
    dsimp only at hfails
    split at hfails
    · cases hfails
    · split at hfails
      · cases hfails
        nofun
      · have hadds := createParent_adds t (resolve musicDir relative)
        split at hfails
        · next hparent =>
          cases hfails
          exact createParent_fault h hparent
        · next t₁ hparent =>
          rw [hparent] at hadds
          split at hfails
          · next hmove =>
            cases hfails
            exact moveFile_fault (hadds.find hs) h hmove
          · cases hfails

end SongLibrary
