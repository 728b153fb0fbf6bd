/-
  Paths that come to a file.

  A path without `..` that comes to a file, or goes through one, is no place for another
  file: whoever tries to move one there leaves the tree as it is (`organizeFile_blocked`).
  The directories of such a path are there as far as they can be, so none is created
  (`createParent_blocked`).
-/
import SongLibrary.Proofs.FileTree.Elsewhere

namespace SongLibrary

namespace FileTree

variable {t : FileTree} {p : Path} {k l : Location}

/-! ## Where nothing is on the way -/

/-- Without `..`, a way only goes further. -/
theorem prefix_arrive {parts : List Name} (h : ∀ part ∈ parts, part ≠ Name.up) :
    l <+: arrive l parts := by
  induction parts generalizing l with
  | nil => exact List.prefix_refl _
  | cons part rest ih =>
    obtain ⟨hpart, hrest⟩ := List.forall_mem_cons.1 h
    refine List.IsPrefix.trans ?_ (ih hrest)
    unfold arriveAt
    split
    · exact List.prefix_refl _
    · exact List.prefix_append _ _

/-- There is a directory on the way to a location, and nothing where the way goes on. -/
def HasGap (t : FileTree) (l : Location) : Prop :=
  ∃ m name, m ++ [name] <+: l ∧ t.get? m = some .directory ∧ t.get? (m ++ [name]) = none

theorem HasGap.mono (h : t.HasGap l) (hlk : l <+: k) : t.HasGap k := by
  obtain ⟨m, name, hm, hthere, hnone⟩ := h
  exact ⟨m, name, hm.trans hlk, hthere, hnone⟩

theorem hasGap_of_descend {parts : List Name} (hl : t.get? l = some .directory)
    (hup : ∀ part ∈ parts, part ≠ Name.up) (h : t.descend l parts = .error .notFound) :
    t.HasGap (arrive l parts) := by
  induction parts generalizing l with
  | nil => cases h
  | cons part rest ih =>
    obtain ⟨hpart, hrest⟩ := List.forall_mem_cons.1 hup
    rw [descend] at h
    cases henter : t.enter l part with
    | ok l' =>
      rw [henter] at h
      obtain ⟨rfl, -, hthere⟩ := enter_eq_ok_iff.1 henter
      refine ih ?_ hrest h
      unfold arriveAt
      split
      · exact hl
      · next hloud => exact (hthere.resolve_left hloud).resolve_left hpart
    | error fault =>
      rw [henter] at h
      cases h
      unfold enter at henter
      split at henter
      · cases henter
      · next hloud =>
        split at henter
        · cases henter
        · split at henter
          · cases henter
          · cases henter
          · next hnone =>
            have hnext : l ++ [part] <+: arrive l (part :: rest) := by
              rw [arrive_cons, arriveAt, if_neg hloud, if_neg hpart]
              exact prefix_arrive hrest
            exact ⟨l, part, hnext, hl, hnone⟩

/-- No part of a path is `..` if none of its names is. -/
theorem ne_up_of_parts (hup : Name.up ∉ p.names) : ∀ part ∈ p.parts, part ≠ Name.up := by
  rintro part hpart rfl
  rw [← filter_parts] at hup
  exact hup (List.mem_filter.2 ⟨hpart, by decide⟩)

/-- A path from the root, without `..`, leads where its names say. -/
theorem destination_of_plain (hp : p.isAbsolute) (hup : Name.up ∉ p.names) :
    t.destination p = p.names := by
  rw [destination_eq_names, origin, if_pos hp, arrive_of_proper, List.nil_append]
  intro name hname
  have hpart := hname
  rw [← filter_parts] at hpart
  obtain ⟨hmem, hloud⟩ := List.mem_filter.1 hpart
  refine ⟨by simpa using hloud, ?_, Path.slash_not_mem_of_mem_parts hmem⟩
  rintro rfl
  exact hup hname

theorem encode_of_absolute (hp : p.isAbsolute) : (Text.encode p.symbols).isEmpty = false := by
  obtain ⟨rest, hsymbols⟩ := List.head?_eq_some_iff.1 ((Path.isAbsolute_iff p).1 hp)
  rw [hsymbols]
  rfl

/-- What a path leads through, and to, is on the way to its destination. -/
theorem spotOf_prefix (hup : Name.up ∉ p.names) :
    arrive (t.origin p) (p.parts.filter (!·.isEmpty)).dropLast <+: t.destination p := by
  rw [destination_eq]
  rcases List.eq_nil_or_concat (p.parts.filter (!·.isEmpty)) with hnil | ⟨front, last, hparts⟩
  · rw [hnil]
    exact List.prefix_refl _
  · rw [List.concat_eq_append] at hparts
    rw [hparts, List.dropLast_concat, arrive_append]
    refine prefix_arrive fun part hpart => ?_
    have hmem : part ∈ p.parts.filter (!·.isEmpty) := hparts ▸ List.mem_append_right _ hpart
    exact ne_up_of_parts hup part (List.mem_filter.1 hmem).1

/-- A path that is not found has a gap on its way. -/
theorem hasGap_of_follow (hp : p.isAbsolute) (hup : Name.up ∉ p.names)
    (h : t.follow p = .error .notFound) : t.HasGap (t.destination p) := by
  have horigin : t.origin p = [] := by rw [origin, if_pos hp]
  unfold follow at h
  rw [show (if p.isAbsolute then [] else t.workingDir) = t.origin p from rfl, horigin] at h
  simp only [encode_of_absolute hp, get?_nil, Bool.false_eq_true, if_false, bne_self_eq_false] at h
  split at h
  · cases h
  · split at h
    · cases h
    · split at h
      · cases h
      · split at h
        · next hdescend =>
          cases h
          have hgap := hasGap_of_descend (get?_nil t) (fun part hpart =>
            ne_up_of_parts hup part (List.mem_filter.1 (List.mem_of_mem_dropLast hpart)).1) hdescend
          exact hgap.mono (horigin ▸ spotOf_prefix hup)
        · split at h
          · cases h
          · split at h <;> cases h

/-- No file is where a directory is, or above one. -/
theorem WellFormed.not_file_above (hwf : t.WellFormed) {c : Content}
    (hl : t.get? l = some .directory) (hkl : k <+: l) : t.get? k ≠ some (.file c) := by
  by_cases hlast : k = l
  · rw [hlast, hl]
    simp
  · rw [hwf.above hl hkl hlast]
    simp

/-- There is no gap before a file. -/
theorem not_hasGap (hwf : t.WellFormed) (hfile : t.HasFile k) (h : l <+: k ∨ k <+: l) :
    ¬ t.HasGap l := by
  rintro ⟨m, name, hm, hdir, hnone⟩
  obtain ⟨c, hget⟩ := hfile
  have hbefore : ¬ m ++ [name] <+: k := by
    intro hprefix
    by_cases hlast : m ++ [name] = k
    · rw [hlast, hget] at hnone
      cases hnone
    · rw [hwf.above hget hprefix hlast] at hnone
      cases hnone
  rcases h with hlk | hkl
  · exact hbefore (hm.trans hlk)
  · rcases List.prefix_or_prefix_of_prefix hm hkl with hprefix | hprefix
    · exact hbefore hprefix
    · rcases List.prefix_concat_iff.1 hprefix with rfl | hkm
      · exact hbefore (List.prefix_refl _)
      · exact hwf.not_file_above hdir hkm hget

/-! ## No directory is created -/

/-- A directory is not created where the path comes to a file, nor is one missing there. -/
theorem createDirectory_blocked (hwf : t.WellFormed) (hp : p.isAbsolute) (hup : Name.up ∉ p.names)
    (hfile : t.HasFile k) (h : t.destination p <+: k ∨ k <+: t.destination p) :
    ∃ fault, t.createDirectory p = .error fault ∧ fault ≠ .notFound := by
  have hgap := not_hasGap hwf hfile h
  unfold createDirectory
  split
  · next fault hlocate =>
    refine ⟨fault, rfl, ?_⟩
    rintro rfl
    unfold locate at hlocate
    split at hlocate
    · split at hlocate <;> cases hlocate
    · exact hgap (hasGap_of_follow hp hup hlocate)
  · exact ⟨_, rfl, by simp⟩
  · next parent name _ hlocate =>
    split
    · exact ⟨_, rfl, by simp⟩
    · next hnone =>
      have hlocation : parent ++ [name] = t.destination p := location_of_locate hlocate
      exact absurd ⟨parent, name, hlocation ▸ List.prefix_refl _, (hwf.of_locate hlocate).1, hnone⟩
        hgap

/-- None of the directories is created that such a path is to be in. -/
theorem createParent_blocked {target : Path} (hwf : t.WellFormed) (hp : target.isAbsolute)
    (hup : Name.up ∉ target.names) (hfile : t.HasFile k) (hk : k <+: t.destination target) :
    (createParent t target).1 = t := by
  unfold createParent
  split
  · rfl
  · next parent hparent =>
    obtain ⟨habsolute, hnames⟩ := Path.parent?_absolute hp hparent
    have hup' : Name.up ∉ parent.names := fun hmem => hup (List.mem_of_mem_dropLast (hnames ▸ hmem))
    have hway : t.destination parent <+: k ∨ k <+: t.destination parent := by
      rw [destination_of_plain hp hup] at hk
      rw [destination_of_plain habsolute hup', hnames]
      exact List.prefix_or_prefix_of_prefix (List.dropLast_prefix _) hk
    obtain ⟨fault, hcreate, hfault⟩ := createDirectory_blocked hwf habsolute hup' hfile hway
    -- The first directory is not created, and those above it are not tried.
    have hcreated : (t.createDirectories parent).1 = t := by
      unfold createDirectories createWith
      rw [hcreate]
      split
      · rfl
      · cases fault with
        | notFound => exact absurd rfl hfault
        | _ => rfl
    generalize t.createDirectories parent = created at hcreated ⊢
    obtain ⟨t₁, _ | _⟩ := created <;> exact hcreated

/-- **A file is not moved to where another one is, nor through it**: whoever tries leaves the
    tree as it is. -/
theorem organizeFile_blocked {source musicDir : Path} {relative : String} {c : Content}
    (hwf : t.WellFormed) (hs : t.find source = .ok (l, .file c))
    (hmusic : musicDir.isAbsolute) (hup : Name.up ∉ (resolve musicDir relative).names)
    (hother : (resolve musicDir relative).sameAs source = false) (hfile : t.HasFile k)
    (hk : k <+: t.destination (resolve musicDir relative)) :
    ∃ failure, organizeFile t source musicDir relative = (t, .error failure) := by
  have hp : (resolve musicDir relative).isAbsolute := Path.isAbsolute_join hmusic _
  have hcreated := createParent_blocked hwf hp hup hfile hk
  unfold organizeFile
  dsimp only
  rw [show musicDir.join (.ofString relative) = resolve musicDir relative from rfl, hother]
  generalize resolve musicDir relative = target at hp hup hk hcreated ⊢
  split
  · exact ⟨_, rfl⟩
  · simp only [Bool.false_eq_true, if_false]
    split
    · exact ⟨_, rfl⟩
    · next hfree =>
      generalize createParent t target = created at hcreated ⊢
      obtain ⟨t₁, failure | _⟩ := created <;> obtain rfl : t₁ = t := hcreated
      · exact ⟨failure, rfl⟩
      · dsimp only
        rcases hmove : moveFile t₁ source target with ⟨t₂, failure | _⟩
        · obtain ⟨rfl, -⟩ := moveFile_error hs hmove
          exact ⟨failure, rfl⟩
        · -- There would have to be room where the target leads, and no directory is a file.
          obtain ⟨m, hlands, -⟩ := moveFile_ok hs hmove
          rw [← hlands.eq_destination] at hk
          obtain ⟨parent, name, hlocate, rfl, -⟩ := hlands
          obtain ⟨d, hget⟩ := hfile
          rcases List.prefix_concat_iff.1 hk with rfl | hparent
          · have hfound := find_file_iff.2 ⟨parent, name, hlocate, rfl, hget⟩
            simp [pathExists, hfound, Except.isOk, Except.toBool] at hfree
          · exact absurd hget (hwf.not_file_above (hwf.of_locate hlocate).1 hparent)

/-! ## The same in both trees -/

/-- A path without `..` keeps away from a place, or leads to it or through it. -/
theorem avoids_or_prefix (hup : Name.up ∉ p.names) (k : Location) :
    t.Avoids p [k] ∨ k <+: t.destination p := by
  by_cases havoids : t.Avoids p [k]
  · exact .inl havoids
  · obtain ⟨front, hfront, hmem⟩ : ∃ front ∈ p.names.inits, arrive (t.origin p) front ∈ [k] := by
      simpa [Avoids] using havoids
    obtain ⟨rest, hnames⟩ := (List.mem_inits _ _).1 hfront
    obtain rfl : arrive (t.origin p) front = k := List.mem_singleton.1 hmem
    refine .inr ?_
    rw [destination_eq_names, ← hnames, arrive_append]
    refine prefix_arrive fun name hname heq => hup ?_
    rw [← heq, ← hnames]
    exact List.mem_append_right _ hname

/-- Paths with the same components keep away from the same places. -/
theorem Avoids.of_sameAs {q : Path} {places : List Location} (h : t.Avoids p places)
    (hsame : q.sameAs p) : t.Avoids q places := by
  obtain ⟨hstart, hnames⟩ : q.start = p.start ∧ q.names = p.names := by
    simpa [Path.sameAs, Path.components] using hsame
  have horigin : t.origin q = t.origin p := by rw [origin, origin, Path.isAbsolute, hstart]; rfl
  intro front hfront
  rw [horigin]
  exact h front (hnames ▸ hfront)

/-- **Moving a file does the same in both trees**, also where a file is in the way in both. -/
theorem SameElsewhere.organizeFile_or_blocked {u u' t' : FileTree} {places : List Location}
    {source musicDir : Path} {relative : String} {c : Content}
    (h : SameElsewhere places u u' t t') (hwf : t.WellFormed) (hwf' : t'.WellFormed)
    (hs : t.find source = .ok (l, .file c)) (habsolute : source.isAbsolute)
    (hmusic : musicDir.isAbsolute) (hsource : t.Avoids source places)
    (htarget : t.Avoids (resolve musicDir relative) places ∨
      Name.up ∉ (resolve musicDir relative).names ∧ ∃ k ∈ places, u.HasFile k ∧ u'.HasFile k ∧
        k <+: t.destination (resolve musicDir relative)) :
    SameElsewhere places u u' (SongLibrary.organizeFile t source musicDir relative).1
        (SongLibrary.organizeFile t' source musicDir relative).1 ∧
      (SongLibrary.organizeFile t' source musicDir relative).2.toOption =
        (SongLibrary.organizeFile t source musicDir relative).2.toOption := by
  cases hsame : (resolve musicDir relative).sameAs source with
  | true => exact h.organizeFile hs habsolute hmusic hsource (hsource.of_sameAs hsame)
  | false =>
    rcases htarget with htarget | ⟨hup, k, hk, hfile, hfile', hway⟩
    · exact h.organizeFile hs habsolute hmusic hsource htarget
    · obtain ⟨hkept, hkept'⟩ := h.kept k hk
      have hs' := (h.find_eq hsource).trans hs
      have hway' : k <+: t'.destination (resolve musicDir relative) := by
        rwa [destination_congr h.workingDir]
      obtain ⟨_, hblocked⟩ := organizeFile_blocked hwf hs hmusic hup hsame
        (by rwa [HasFile, hkept]) hway
      obtain ⟨_, hblocked'⟩ := organizeFile_blocked hwf' hs' hmusic hup hsame
        (by rwa [HasFile, hkept']) hway'
      rw [hblocked, hblocked']
      exact ⟨h, rfl⟩

end FileTree

end SongLibrary
