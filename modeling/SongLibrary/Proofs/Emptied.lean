/-
  The directories that clean-up removes.

  After a move the clean-up goes from the directory that the source was in upward and removes
  directories, as far as they are below the music directory and have nothing in them.

  * `FileTree.LeftEmpty`: a directory on that way that has nothing in it but directories of
    the way;
  * `removeEmptyDirectories_get?`: these are gone afterwards, and all else is as it was.  One
    step up is `FileTree.leftEmpty_step`;
  * `organizeFile_removes_emptied` is what that comes to for a move, after which its place is
    still there.
-/
import SongLibrary.Proofs.FileTree.Spelling
import SongLibrary.Proofs.Relocation

namespace SongLibrary

namespace FileTree

variable {t t' : FileTree} {p q : Path} {root way l m : Location}

/-! ## Directories with nothing in them -/

/-- A directory strictly below a root, on the way there from a directory `way` below it, in
    which there is nothing but directories of the way.  A directory that another device is
    mounted on cannot be removed, so none of these may be one. -/
structure LeftEmpty (t : FileTree) (root way l : Location) : Prop where
  below : root <+: l
  notRoot : l ≠ root
  onWay : l <+: way
  nothing : ∀ k e, t.get? k = some e → l <+: k → k <+: way
  unmounted : ∀ m ∈ t.mounts, l <+: m → ¬ m <+: way

theorem ne_nil_of_below (h : root <+: l) (hne : l ≠ root) : l ≠ [] := by
  rintro rfl
  exact hne (List.prefix_nil.1 h).symm

theorem prefix_antisymm (h : l <+: m) (h' : m <+: l) : l = m :=
  h.eq_of_length_le h'.length_le

/-- If a directory is left empty, so is every directory on the way to it. -/
theorem LeftEmpty.deeper (h : t.LeftEmpty root way l) (hlm : l <+: m) (hm : m <+: way) :
    t.LeftEmpty root way m where
  below := h.below.trans hlm
  notRoot := by
    rintro rfl
    exact h.notRoot (prefix_antisymm hlm h.below)
  onWay := hm
  nothing k e hk hmk := h.nothing k e hk (hlm.trans hmk)
  unmounted k hk hmk := h.unmounted k hk (hlm.trans hmk)

/-- The last directory of the way is left empty if nothing is in it. -/
theorem leftEmpty_self_iff : t.LeftEmpty root way way ↔
    root <+: way ∧ way ≠ root ∧ t.hasChildren way = false ∧ way ∉ t.mounts := by
  constructor
  · intro h
    refine ⟨h.below, h.notRoot, ?_, fun hm => h.unmounted way hm h.onWay h.onWay⟩
    rw [Bool.eq_false_iff, ne_eq, hasChildren_iff]
    rintro ⟨k, hbelow, hne, hsome⟩
    obtain ⟨e, he⟩ := Option.isSome_iff_exists.1 hsome
    exact hne (prefix_antisymm (h.nothing k e he hbelow) hbelow)
  · rintro ⟨hbelow, hne, hempty, hmount⟩
    refine ⟨hbelow, hne, List.prefix_refl _, fun k e hk hway => ?_, fun m hm hway hback => ?_⟩
    · by_cases hkw : k = way
      · exact hkw ▸ List.prefix_refl _
      · rw [get?_below hempty hway hkw] at hk
        cases hk
    · exact hmount (prefix_antisymm hway hback ▸ hm)

/-- **Once the last directory of the way is removed**, the others that were left empty are those
    that are so on the way to the directory above it. -/
theorem leftEmpty_step (h : t.LeftEmpty root way way) : t.LeftEmpty root way l ↔
    l = way ∨ (t.erase way).LeftEmpty root way.dropLast l := by
  obtain ⟨hbelow, hne, hempty, hmount⟩ := leftEmpty_self_iff.1 h
  have hway := ne_nil_of_below hbelow hne
  obtain ⟨front, last, rfl⟩ := (List.eq_nil_or_concat way).resolve_left hway
  rw [List.concat_eq_append] at *
  rw [List.dropLast_concat]
  have herase : ∀ k, (t.erase (front ++ [last])).get? k =
      if k = front ++ [last] then none else t.get? k := get?_erase t hway
  constructor
  · intro hl
    rcases List.prefix_concat_iff.1 hl.onWay with heq | hfront
    · exact .inl heq
    · refine .inr ⟨hl.below, hl.notRoot, hfront, fun k e hk hlk => ?_, fun m hm hlm hback => ?_⟩
      · rw [herase] at hk
        split at hk
        · cases hk
        · next hother =>
          exact (List.prefix_concat_iff.1 (hl.nothing k e hk hlk)).resolve_left hother
      · exact hl.unmounted m hm hlm (hback.trans (List.prefix_append _ _))
  · rintro (rfl | hl)
    · exact h
    · refine ⟨hl.below, hl.notRoot, hl.onWay.trans (List.prefix_append _ _), fun k e hk hlk => ?_,
        fun m hm hlm hback => ?_⟩
      · by_cases hlast : k = front ++ [last]
        · exact hlast ▸ List.prefix_refl _
        · have hk' : (t.erase (front ++ [last])).get? k = some e := by rw [herase, if_neg hlast, hk]
          exact (hl.nothing k e hk' hlk).trans (List.prefix_append _ _)
      · rcases List.prefix_concat_iff.1 hback with rfl | hback
        · exact hmount hm
        · exact hl.unmounted m hm hlm hback

/-! ## Paths to directories -/

/-- The names of a path but for the last are among its parts before the last. -/
theorem dropLast_names_subset (p : Path) :
    p.names.dropLast ⊆ (p.parts.filter (!·.isEmpty)).dropLast := by
  rw [names_eq_filter_parts]
  rcases List.eq_nil_or_concat (p.parts.filter (!·.isEmpty)) with hnil | ⟨front, last, hparts⟩
  · simp [hnil]
  · rw [List.concat_eq_append] at hparts
    rw [hparts, List.dropLast_concat, List.filter_append]
    intro name hname
    have hfront : name ∈ front.filter fun part => !part.isSilent := by
      cases hlast : last.isSilent with
      | true => simpa [hlast] using List.mem_of_mem_dropLast hname
      | false => simpa [hlast] using hname
    exact (List.mem_filter.1 hfront).1

/-- A path that leads to a directory where its names say, and ends in the last of them. -/
structure NamesDirectory (p : Path) : Prop where
  absolute : p.isAbsolute
  plain : Name.up ∉ p.names
  followable : isFollowable p
  short : ∀ name ∈ p.names, isTooLong name = false
  ends : p.names ≠ [] → ∃ front last, p.parts = front ++ [last] ∧ last.isSilent = false

/-- The path above a path that can be followed is one to a directory. -/
theorem NamesDirectory.of_parent (hp : p.isAbsolute) (hup : Name.up ∉ p.names)
    (hfollow : isFollowable p) (h : p.parent? = some q) : NamesDirectory q := by
  obtain ⟨habsolute, hnames⟩ := Path.parent?_absolute hp h
  obtain ⟨htext, hends⟩ := Path.parent?_text hp h
  obtain ⟨⟨hnul, -, hlength⟩, hshort⟩ := hfollow
  have hbytes : Text.encode q.symbols <+: Text.encode p.symbols := htext.flatMap _
  have hnamesShort : ∀ name ∈ q.names, isTooLong name = false := fun name hname =>
    hshort name (dropLast_names_subset p (hnames ▸ hname))
  refine ⟨habsolute, fun hmem => hup (List.mem_of_mem_dropLast (hnames ▸ hmem)), ⟨⟨?_,
    encode_of_absolute habsolute, hbytes.length_le.trans hlength⟩, fun part hpart => ?_⟩,
    hnamesShort, hends⟩
  · rw [Bool.eq_false_iff, ne_eq, List.contains_iff_mem] at hnul ⊢
    exact fun hmem => hnul (hbytes.subset hmem)
  · by_cases hsilent : part.isSilent
    · exact isTooLong_of_silent hsilent
    · refine hnamesShort part ?_
      rw [Path.names_eq_filter]
      have hmem := (List.mem_filter.1 (List.mem_of_mem_dropLast hpart)).1
      exact List.mem_filter.2 ⟨hmem, by simpa using hsilent⟩

/-- Such a path is located at its last name, if the directory is there. -/
theorem NamesDirectory.locate (h : NamesDirectory p) (hwf : t.WellFormed) (hne : p.names ≠ [])
    (hget : t.get? p.names = some .directory) :
    ∃ front last, p.names = front ++ [last] ∧ t.locate p = .ok (.entry front last false) := by
  obtain ⟨before, last, hparts, hloud⟩ := h.ends hne
  have hnames := names_of_loud hparts hloud
  have hlast : last ∈ p.names := by simp [hnames]
  have hspot := spotOf_of_loud (t := t) hparts hloud fun heq => h.plain (heq ▸ hlast)
  have hroute : ∀ d ∈ t.route p, t.get? d = some .directory := by
    intro d hd
    have hdp := isDirect_of_plain h.plain d hd
    rw [destination_of_plain h.absolute h.plain] at hdp
    by_cases heq : d = p.names
    · rw [heq, hget]
    · exact hwf.above hget hdp heq
  have hfollow := follow_eq_ok_iff.2 ⟨h.followable, rfl, hroute⟩
  have hlocation := location_spotOf (t := t) p
  rw [hspot] at hfollow hlocation
  rw [destination_of_plain h.absolute h.plain] at hlocation
  refine ⟨_, last, hlocation.symm, locate_eq_ok_iff.2 ⟨hfollow, ?_⟩⟩
  rintro _ _ _ ⟨⟩
  exact h.short last hlast

/-- What is said of such a path if the directory is there. -/
theorem NamesDirectory.find (h : NamesDirectory p) (hwf : t.WellFormed) (hne : p.names ≠ [])
    (hget : t.get? p.names = some .directory) : t.find p = .ok (p.names, .directory) := by
  obtain ⟨front, last, hnames, hlocate⟩ := h.locate hwf hne hget
  rw [hnames] at hget ⊢
  simp [FileTree.find, hlocate, entryAt, hget]

end FileTree

open FileTree

variable {t t' : FileTree} {root p : Path} {l : Location}

/-! ## Going up -/

/-- Clean-up goes on at a directory strictly below its root, with nothing in it. -/
theorem goesOn_iff (hwf : t.WellFormed) (hroot : root.isAbsolute) (hp : NamesDirectory p)
    (hget : t.get? p.names = some .directory) :
    (p.sameAs root || !p.startsWith root || !t.isEmptyDirectory p) = false ↔
      root.names <+: p.names ∧ p.names ≠ root.names ∧ t.hasChildren p.names = false := by
  have hstart : p.start = .root := by simpa [Path.isAbsolute] using hp.absolute
  have hroot' : root.start = .root := by simpa [Path.isAbsolute] using hroot
  have hsame : p.sameAs root = false ↔ p.names ≠ root.names := by
    simp [Path.sameAs, Path.components, hstart, hroot']
  have hstarts : p.startsWith root ↔ root.names <+: p.names := by
    simp [Path.startsWith, Path.components, hstart, hroot']
  rw [Bool.or_eq_false_iff, Bool.or_eq_false_iff, Bool.not_eq_false', Bool.not_eq_false', hsame,
    hstarts, and_comm (a := p.names ≠ root.names), and_assoc]
  refine and_congr_right fun hbelow => and_congr_right fun hne => ?_
  have hnames := ne_nil_of_below hbelow hne
  rw [isEmptyDirectory, hp.find hwf hnames hget]
  simp

/-- A directory that is not left empty is the end of clean-up. -/
theorem removeEmptyDirectories_stop (hwf : t.WellFormed) (hroot : root.isAbsolute)
    (hp : NamesDirectory p) (hget : t.get? p.names = some .directory)
    (h : ¬ t.LeftEmpty root.names p.names p.names) (parents : List Path) :
    removeEmptyDirectories root t p parents = t := by
  unfold removeEmptyDirectories
  split
  · rfl
  · next hon =>
    obtain ⟨hbelow, hne, hempty⟩ := (goesOn_iff hwf hroot hp hget).1 (Bool.eq_false_iff.2 hon)
    have hnames := ne_nil_of_below hbelow hne
    obtain ⟨front, last, hlast, hlocate⟩ := hp.locate hwf hnames hget
    have hmount : p.names ∈ t.mounts := by
      by_contra hmount
      exact h (leftEmpty_self_iff.2 ⟨hbelow, hne, hempty, hmount⟩)
    have hbusy : t.removeDirectory p = .error .busy := by
      rw [hlast] at hget hmount
      simp [removeDirectory, hlocate, hget, hmount]
    rw [hbusy]

/-- One that is left empty is removed. -/
theorem removeDirectory_of_leftEmpty (hwf : t.WellFormed) (hp : NamesDirectory p)
    (hget : t.get? p.names = some .directory) (h : t.LeftEmpty root.names p.names p.names) :
    t.removeDirectory p = .ok (t.erase p.names) := by
  obtain ⟨hbelow, hne, hempty, hmount⟩ := leftEmpty_self_iff.1 h
  obtain ⟨front, last, hlast, hlocate⟩ := hp.locate hwf (ne_nil_of_below hbelow hne) hget
  rw [hlast] at hget hmount hempty ⊢
  simp [removeDirectory, hlocate, hget, hmount, hempty]

/-- **Clean-up removes the directories that are left empty**, and nothing else. -/
theorem removeEmptyDirectories_get? {n : Nat} (hroot : root.isAbsolute) (hwf : t.WellFormed)
    (hp : NamesDirectory p) (hget : t.get? p.names = some .directory) (hn : p.names.length ≤ n)
    (l : Location) :
    (t.LeftEmpty root.names p.names l →
      (removeEmptyDirectories root t p (above n p)).get? l = none) ∧
    (¬ t.LeftEmpty root.names p.names l →
      (removeEmptyDirectories root t p (above n p)).get? l = t.get? l) := by
  -- By induction on the directories above: with one removed, clean-up goes on from its parent.
  induction n generalizing t p with
  | zero =>
    have hstop : ¬ t.LeftEmpty root.names p.names p.names := by
      intro h
      exact ne_nil_of_below h.below h.notRoot (List.length_eq_zero_iff.1 (Nat.le_zero.1 hn))
    rw [removeEmptyDirectories_stop hwf hroot hp hget hstop]
    exact ⟨fun h => absurd (h.deeper h.onWay (List.prefix_refl _)) hstop, fun _ => rfl⟩
  | succ n ih =>
    by_cases hself : t.LeftEmpty root.names p.names p.names
    · obtain ⟨hbelow, hne, hempty, -⟩ := leftEmpty_self_iff.1 hself
      have hremoved := removeDirectory_of_leftEmpty hwf hp hget hself
      have hnonempty := ne_nil_of_below hbelow hne
      obtain ⟨q, hq⟩ := Path.exists_parent hnonempty
      obtain ⟨-, hnames⟩ := Path.parent?_absolute hp.absolute hq
      have hshorter : q.names ≠ p.names := by
        intro heq
        have hlength := congrArg List.length (hnames.symm.trans heq)
        have hpositive := List.length_pos_of_ne_nil hnonempty
        rw [List.length_dropLast] at hlength
        omega
      have hgetq : (t.erase p.names).get? q.names = some .directory := by
        rw [get?_erase _ hnonempty, if_neg hshorter]
        exact hwf.above hget (hnames ▸ List.dropLast_prefix _) hshorter
      have hrest := ih (hwf.prunes (removeDirectory_prunes hremoved))
        (.of_parent hp.absolute hp.plain hp.followable hq) hgetq
        (by rw [hnames, List.length_dropLast]; omega)
      have hstep : removeEmptyDirectories root t p (above (n + 1) p) =
          removeEmptyDirectories root (t.erase p.names) q (above n q) := by
        rw [above, hq, removeEmptyDirectories,
          (goesOn_iff hwf hroot hp hget).2 ⟨hbelow, hne, hempty⟩, hremoved]
        rfl
      have herased : (t.erase p.names).get? l = if l = p.names then none else t.get? l :=
        get?_erase _ hnonempty l
      rw [hstep, leftEmpty_step hself, ← hnames]
      by_cases hempty : (t.erase p.names).LeftEmpty root.names q.names l
      · exact ⟨fun _ => hrest.1 hempty, fun hnot => absurd (.inr hempty) hnot⟩
      · rw [hrest.2 hempty, herased]
        exact ⟨fun h => if_pos (h.resolve_right hempty), fun hnot => if_neg fun heq => hnot (.inl heq)⟩
    · rw [removeEmptyDirectories_stop hwf hroot hp hget hself]
      exact ⟨fun h => absurd (h.deeper h.onWay (List.prefix_refl _)) hself, fun _ => rfl⟩

/-- What clean-up removes after something has moved. -/
theorem cleanUp_get? {musicDir source : Path} (hm : musicDir.isAbsolute) (hs : source.isAbsolute)
    (hup : Name.up ∉ source.names) (hfollow : isFollowable source) (hne : source.names ≠ [])
    (hwf : t.WellFormed) (hget : t.get? source.names.dropLast = some .directory) (l : Location) :
    (t.LeftEmpty musicDir.names source.names.dropLast l → (cleanUp t musicDir source).get? l = none) ∧
    (¬ t.LeftEmpty musicDir.names source.names.dropLast l →
      (cleanUp t musicDir source).get? l = t.get? l) := by
  obtain ⟨q, hq⟩ := Path.exists_parent hne
  obtain ⟨-, hnames⟩ := Path.parent?_absolute hs hq
  rw [← hnames] at hget ⊢
  unfold cleanUp
  rw [hq]
  exact removeEmptyDirectories_get? hm hwf (.of_parent hs hup hfollow hq) hget (Nat.le_succ _) l

/-! ## After a move -/

/-- What is found by a path is still found after the clean-up, if none of the directories on
    the way is removed. -/
theorem find_of_cleanUp {musicDir source place : Path} {k : Location} {e : Entry}
    (hclean : ∀ l, ¬ t.LeftEmpty musicDir.names source.names.dropLast l →
      (cleanUp t musicDir source).get? l = t.get? l)
    (hfind : t.find place = .ok (k, e))
    (hroute : ∀ d, d ∈ t.route place ∨ d = k →
      ¬ t.LeftEmpty musicDir.names source.names.dropLast d) :
    (cleanUp t musicDir source).pathExists place := by
  have hk : k = t.destination place := (route_of_find hfind).2
  have hsame := find_congr (cleanUp_prunes t musicDir source).workingDir
    (fun d hd hdirectory => (hclean d (hroute d (.inl hd))).trans hdirectory)
    (hclean _ (hroute _ (.inr hk.symm))) hfind
  rw [pathExists, hsame]
  rfl

namespace Moved

variable {source target : Path}

/-- What is moved is under a name in a directory, and its path can be followed. -/
theorem source_below (h : Moved t t' source target) (hwf : t.WellFormed) :
    isFollowable source ∧ t.destination source ≠ [] ∧
      t.get? (t.destination source).dropLast = some .directory := by
  obtain ⟨parent, name, asDirectory, hlocate⟩ : ∃ parent name asDirectory,
      t.locate source = .ok (.entry parent name asDirectory) := by
    cases h with
    | file hs _ _ =>
      obtain ⟨parent, name, hlocate, -⟩ := find_file_iff.1 hs
      exact ⟨parent, name, false, hlocate⟩
    | directory hs _ _ _ => exact hs
  have hplace : parent ++ [name] = t.destination source := location_of_locate hlocate
  rw [← hplace, List.dropLast_concat]
  exact ⟨(follow_eq_ok_iff.1 (locate_eq_ok_iff.1 hlocate).1).1, by simp, (hwf.of_locate hlocate).1⟩

/-- A directory stays, unless it is what is moved or below that. -/
theorem directory_stays {d : Location} (h : Moved t t' source target)
    (hd : t.get? d = some .directory) (hother : ¬ t.destination source <+: d) :
    t'.get? d = some .directory := by
  cases h with
  | @file l k _ hs hlands hmoved =>
    rcases hmoved with ⟨-, rfl⟩ | ⟨-, hmoves⟩
    · exact hd
    · have hdl : d ≠ l := by
        rintro rfl
        exact hother ((route_of_find hs).2 ▸ List.prefix_refl _)
      have hdk : d ≠ k := by
        rintro rfl
        obtain ⟨_, _, -, -, hfree⟩ := hlands
        exact hfree hd
      rw [hmoves.get?, if_neg hdk, if_neg hdl, hd]
  | directory _ _ hget hmoved =>
    rcases hmoved with ⟨-, rfl⟩ | hmoves
    · exact hd
    · rw [hmoves.get?, if_neg hother]
      split
      · next hbelow =>
        rw [hmoves.eq_of_below hd hbelow, List.drop_length, List.append_nil, hget]
      · exact hd

/-- The directory that it was in stays. -/
theorem directory_above (h : Moved t t' source target) (hwf : t.WellFormed) :
    t'.get? (t.destination source).dropLast = some .directory := by
  obtain ⟨-, hne, hget⟩ := h.source_below hwf
  refine h.directory_stays hget fun hbelow => ?_
  have hlength := hbelow.length_le
  have hpositive := List.length_pos_of_ne_nil hne
  rw [List.length_dropLast] at hlength
  omega

/-- What has moved is found at a direct target that it was not at. -/
theorem find_target (h : Moved t t' source target)
    (hdirect : t.IsDirect target) (hne : t.destination target ≠ t.destination source) :
    ∃ e, t'.find target = .ok (t.destination target, e) ∧
      t'.get? (t.destination target) = some e := by
  cases h with
  | @file _ _ c hs hlands hmoved =>
    have hfind := find_of_moveFile hs hlands hmoved
    obtain ⟨-, -, -, -, hget⟩ := find_file_iff.1 hfind
    rw [hlands.eq_destination] at hfind hget
    exact ⟨.file c, hfind, hget⟩
  | directory hs htarget hget hmoved =>
    obtain ⟨parent, name, asDirectory, hlocate⟩ := htarget
    have hmoves := hmoved.resolve_left fun hsame => hne hsame.1
    have hroute := (follow_eq_ok_iff.1 (locate_eq_ok_iff.1 hlocate).1).2.2
    have hlocate' : t'.locate target = .ok (.entry parent name asDirectory) := by
      refine locate_of_route (hmoves.eq ▸ rfl) (fun d hd => ?_) hlocate
      refine directory_stays (.directory hs ⟨parent, name, asDirectory, hlocate⟩ hget hmoved)
        (hroute d hd) fun hbelow => ?_
      exact hmoves.notBelow (hbelow.trans (hdirect d hd))
    have hplace : parent ++ [name] = t.destination target := location_of_locate hlocate
    have hthere : t'.get? (parent ++ [name]) = some .directory := by
      rw [hplace, hmoves.get?, if_pos (List.prefix_refl _), List.drop_length, List.append_nil, hget]
    rw [← hplace]
    exact ⟨.directory, by simp [FileTree.find, hlocate', entryAt, hthere], hthere⟩

/-- The directory that it was in is not below the target. -/
theorem target_notAbove (h : Moved t t' source target) (hwf : t.WellFormed) (hwf' : t'.WellFormed)
    (hne : t.destination target ≠ t.destination source) :
    ¬ t.destination target <+: (t.destination source).dropLast := by
  intro hup
  have hdirectory := h.directory_above hwf
  cases h with
  | @file l k c hs hlands hmoved =>
    rw [← hlands.eq_destination, ← (route_of_find hs).2] at *
    have hmoves := (hmoved.resolve_left fun hsame => hne hsame.1).2
    exact hwf'.not_file_above hdirectory hup ((hmoves.get? k).trans (if_pos rfl))
  | directory _ _ _ hmoved =>
    have hmoves := hmoved.resolve_left fun hsame => hne hsame.1
    exact hmoves.notAbove (hup.trans (List.dropLast_prefix _))

/-- What has moved is still at its place after the clean-up. -/
theorem target_stays {musicDir : Path} (h : Moved t t' source target) (hwf : t.WellFormed)
    (hs : source.isAbsolute) (hsu : Name.up ∉ source.names) (ht : target.isAbsolute)
    (htu : Name.up ∉ target.names) (hd : target.sameAs source = false)
    (hclean : ∀ l, ¬ t'.LeftEmpty musicDir.names source.names.dropLast l →
      (cleanUp t' musicDir source).get? l = t'.get? l) :
    (cleanUp t' musicDir source).pathExists target := by
  have hsource : t.destination source = source.names := destination_of_plain hs hsu
  have htarget : ∀ u : FileTree, u.destination target = target.names := fun u =>
    destination_of_plain ht htu
  have hother : t.destination target ≠ t.destination source := by
    intro heq
    rw [htarget, hsource] at heq
    have hstart : target.start = source.start := by
      rw [(Path.parts_of_absolute ht).1, (Path.parts_of_absolute hs).1]
    simp [Path.sameAs, Path.components, heq, hstart] at hd
  obtain ⟨e, hfind, hget⟩ := h.find_target (isDirect_of_plain htu) hother
  refine find_of_cleanUp hclean hfind fun d hdt hempty => ?_
  have hbelow : d <+: t.destination target := by
    rcases hdt with hdt | rfl
    · have hdirect := isDirect_of_plain htu d hdt
      rwa [htarget] at hdirect ⊢
    · exact List.prefix_refl _
  have hnot := h.target_notAbove hwf (h.carries hwf).wellFormed hother
  rw [hsource] at hnot
  exact hnot (hempty.nothing _ e hget hbelow)

end Moved

/-- A library of one file, two directories down. -/
def nestedSong : FileTree where
  entries :=
    [([.ofString "music"], .directory),
      ([.ofString "music", .ofString "x"], .directory),
      ([.ofString "music", .ofString "x", .ofString "y"], .directory),
      ([.ofString "music", .ofString "x", .ofString "y", .ofString "a.mp3"], .file (.text "a song"))]

end SongLibrary
