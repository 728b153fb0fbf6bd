/-
  Moving whatever a path leads to.

  * `FileTree.MovesDirectory` says that a directory has moved with all that is below it:
    what is where (`MovesDirectory.get?`) in a tree that is still well formed
    (`FileTree.WellFormed.relocate`);
  * `FileTree.rename_cases` says that this is what renaming anything but a file comes to;
  * `organizeFile_carries` is what moving to a place leaves of files, whether a file moves
    or a directory: none is made up, and those elsewhere stay.
-/
import SongLibrary.Proofs.Organize

namespace SongLibrary

namespace FileTree

variable {t t' : FileTree} {old new l m : Location}

/-! ## Directories that move -/

theorem relocated_below (old new rest : Location) :
    relocated old new (old ++ rest) = new ++ rest := by
  simp [relocated]

theorem relocated_elsewhere (new : Location) (h : ¬ old <+: l) : relocated old new l = l := by
  simp [relocated, h]

/-- Looking up where nothing was below the new location: what is there was below the old. -/
theorem lookup_map_relocated (old : Location) {entries : List (Location × Entry)}
    (hfree : ∀ e ∈ entries, ¬ new <+: e.1) (m : Location) :
    (entries.map fun e => (relocated old new e.1, e.2)).lookup m =
      if new <+: m then entries.lookup (old ++ m.drop new.length)
      else if old <+: m then none else entries.lookup m := by
  induction entries with
  | nil => simp
  | cons e rest ih =>
    obtain ⟨k, e⟩ := e
    obtain ⟨hk, hrest⟩ := List.forall_mem_cons.1 hfree
    -- The entry comes to the location just if it was at the one that is looked up instead.
    have hsame : m = relocated old new k ↔
        if new <+: m then old ++ m.drop new.length = k else ¬ old <+: m ∧ m = k := by
      by_cases hold : old <+: k
      · obtain ⟨x, rfl⟩ := hold
        rw [relocated_below]
        split
        · next hm =>
          obtain ⟨y, rfl⟩ := hm
          simp
        · next hm =>
          refine iff_of_false ?_ ?_
          · rintro rfl
            exact hm (List.prefix_append _ _)
          · rintro ⟨hno, rfl⟩
            exact hno (List.prefix_append _ _)
      · rw [relocated_elsewhere new hold]
        split
        · next hm =>
          refine iff_of_false ?_ ?_
          · rintro rfl
            exact hk hm
          · rintro rfl
            exact hold (List.prefix_append _ _)
        · exact ⟨fun h => ⟨h ▸ hold, h⟩, And.right⟩
    rw [List.map_cons, List.lookup_cons, ih hrest]
    by_cases hm : m = relocated old new k
    · rw [beq_iff_eq.2 hm]
      have hat := hsame.1 hm
      split at hat
      · next hnew => simp [hnew, hat]
      · next hnew => simp [hnew, hat.1, ← hat.2]
    · rw [beq_eq_false_iff_ne.2 hm]
      have hat := mt hsame.2 hm
      split at hat
      · next hnew => simp [hnew, List.lookup_cons, beq_eq_false_iff_ne.2 hat]
      · next hnew =>
        by_cases hold : old <+: m
        · simp [hnew, hold]
        · have hne : (m == k) = false := beq_eq_false_iff_ne.2 fun heq => hat ⟨hold, heq⟩
          simp [hnew, hold, List.lookup_cons, hne]

/-- **What was below the old location is below the new one**, and elsewhere nothing
    changed. -/
theorem get?_relocate (hold : old ≠ []) (hnew : new ≠ []) (hapart : ¬ old <+: new)
    (hfree : ∀ e ∈ t.entries, new <+: e.1 → e.1 = new) (m : Location) :
    (t.relocate old new).get? m =
      if new <+: m then t.get? (old ++ m.drop new.length)
      else if old <+: m then none else t.get? m := by
  have hnone : ∀ e ∈ t.entries.filter (·.1 != new), ¬ new <+: e.1 := by
    intro e he hbelow
    obtain ⟨hmem, hne⟩ := List.mem_filter.1 he
    simp [hfree e hmem hbelow] at hne
  have hlookup := lookup_map_relocated old hnone m
  unfold get?
  by_cases hm : m = []
  · subst hm
    simp [hold, hnew]
  · rw [if_neg hm, relocate, hlookup]
    by_cases hbelow : new <+: m
    · have hne : old ++ m.drop new.length ≠ [] := by simp [hold]
      have hother : old ++ m.drop new.length ≠ new := fun heq => hapart (heq ▸ List.prefix_append _ _)
      rw [if_pos hbelow, if_pos hbelow, if_neg hne, lookup_filter_ne, if_neg hother]
    · have hother : m ≠ new := fun heq => hbelow (heq ▸ List.prefix_refl _)
      rw [if_neg hbelow, if_neg hbelow, if_neg hm, lookup_filter_ne, if_neg hother]

/-- A directory has moved with all that is below it, to where nothing was but an empty
    directory at most. -/
structure MovesDirectory (t t' : FileTree) (old new : Location) : Prop where
  notBelow : ¬ old <+: new
  notAbove : ¬ new <+: old
  free : ∀ e ∈ t.entries, new <+: e.1 → e.1 = new
  eq : t' = t.relocate old new

namespace MovesDirectory

theorem ne_nil (h : MovesDirectory t t' old new) : old ≠ [] := by
  rintro rfl
  exact h.notBelow List.nil_prefix

theorem get? (h : MovesDirectory t t' old new) (m : Location) :
    t'.get? m =
      if new <+: m then t.get? (old ++ m.drop new.length)
      else if old <+: m then none else t.get? m := by
  have hnew : new ≠ [] := by
    rintro rfl
    exact h.notAbove List.nil_prefix
  rw [h.eq, get?_relocate h.ne_nil hnew h.notBelow h.free]

/-- Nothing was below the new location. -/
theorem eq_of_below {e : Entry} (h : MovesDirectory t t' old new) (hm : t.get? m = some e)
    (hbelow : new <+: m) : m = new := by
  by_cases hroot : m = []
  · subst hroot
    exact absurd (List.prefix_nil.1 hbelow ▸ List.nil_prefix) h.notAbove
  · rw [FileTree.get?, if_neg hroot] at hm
    obtain ⟨before, after, hentries, -⟩ := List.lookup_eq_some_iff.1 hm
    exact h.free (m, e) (by simp [hentries]) hbelow

end MovesDirectory

/-- Nothing is below a directory without children. -/
theorem free_of_childless {e : Location × Entry} (h : t.hasChildren new = false) (he : e ∈ t.entries)
    (hbelow : new <+: e.1) : e.1 = new := by
  by_contra hother
  have hchild := List.any_eq_false.1 h e he
  simp [hbelow, hother] at hchild

/-- Nothing is below a location where nothing is. -/
theorem WellFormed.free_of_none {e : Location × Entry} (h : t.WellFormed) (hnew : new ≠ [])
    (hnone : t.get? new = none) (he : e ∈ t.entries) (hbelow : new <+: e.1) : e.1 = new := by
  by_contra hother
  have hroot : e.1 ≠ [] := by
    intro hroot
    rw [hroot] at hbelow
    exact hnew (List.prefix_nil.1 hbelow)
  have hentry : t.get? e.1 ≠ none := by
    rw [get?, if_neg hroot]
    intro hlookup
    simpa using List.lookup_eq_none_iff.1 hlookup e he
  obtain ⟨d, hd⟩ := Option.ne_none_iff_exists'.1 hentry
  rw [h.above hd hbelow fun heq => hother heq.symm] at hnone
  cases hnone

/-- What renaming something else than a file comes to: a directory moves, or stays since the
    target leads to it as well. -/
theorem rename_cases {source target : Path} (hwf : t.WellFormed)
    (hs : ∀ l c, t.find source ≠ .ok (l, .file c)) (h : t.rename source target = .ok t') :
    (∃ parent name asDirectory, t.locate source = .ok (.entry parent name asDirectory)) ∧
      (∃ parent name asDirectory, t.locate target = .ok (.entry parent name asDirectory)) ∧
      t.get? (t.destination source) = some .directory ∧
      (t.destination target = t.destination source ∧ t' = t ∨
        MovesDirectory t t' (t.destination source) (t.destination target)) := by
  unfold rename at h
  split at h
  · cases h
  · split at h <;> cases h
  · next l name sourceAsDirectory hsource =>
    split at h
    · cases h
    · cases h
    · next k newName targetAsDirectory htarget =>
      have hold : l ++ [name] = t.destination source := location_of_locate hsource
      have hnew : k ++ [newName] = t.destination target := location_of_locate htarget
      rw [hold, hnew] at h
      dsimp only at h
      split at h
      · cases h
      · split at h
        · cases h
        · next content hget =>
          -- A path that leads to a file and ends in a slash is not renamed.
          split at h
          · cases h
          · next hslash =>
            have hfile : sourceAsDirectory = false := by
              cases sourceAsDirectory <;> simp_all
            subst hfile
            exact absurd (find_file_iff.2 ⟨l, name, hsource, rfl, hold ▸ hget⟩)
              (hs (l ++ [name]) content)
        · next hget =>
          refine ⟨⟨l, name, _, hsource⟩, ⟨k, newName, _, htarget⟩, hget, ?_⟩
          split at h
          · next hsame =>
            cases h
            exact .inl ⟨hsame.symm, rfl⟩
          · split at h
            · cases h
            · split at h
              · cases h
              · next hdown =>
                split at h
                · cases h
                · next hup =>
                  right
                  split at h
                  · cases h
                  · split at h
                    · cases h
                    · next hempty =>
                      cases h
                      exact ⟨by simpa using hdown, by simpa using hup,
                        fun e => free_of_childless (by simpa using hempty), rfl⟩
                  · next hnone =>
                    cases h
                    exact ⟨by simpa using hdown, by simpa using hup,
                      fun e => hwf.free_of_none (by simp [← hnew]) hnone, rfl⟩

/-- A directory that moves keeps the tree well formed. -/
theorem WellFormed.relocate (h : t.WellFormed) {name : Name} (hparent : t.get? l = some .directory)
    (hname : name.IsProper) (hmoves : MovesDirectory t t' old (l ++ [name])) : t'.WellFormed := by
  have hapart := hmoves.notBelow
  have hafter := hmoves.get?
  generalize hnew : l ++ [name] = new at hafter
  -- What is above an entry and at it has moved, or neither has, but for the directory itself.
  have hstep : ∀ (k : Location) (n : Name) (e : Entry), t'.get? (k ++ [n]) = some e →
      t'.get? k = some .directory ∧ n.IsProper := by
    intro k n e hk
    rw [hafter] at hk ⊢
    split at hk
    · next hbelow =>
      rcases List.prefix_concat_iff.1 hbelow with heq | hbelow
      · obtain ⟨rfl, hn⟩ := List.append_inj' (hnew.trans heq) rfl
        cases hn
        have hshort : ¬ new <+: l := by
          intro hle
          have hlength := hle.length_le
          rw [← hnew, List.length_append] at hlength
          simp only [List.length_singleton] at hlength
          omega
        have hup : ¬ old <+: l := fun hle => hapart (hle.trans (List.prefix_append _ _))
        rw [if_neg hshort, if_neg hup]
        exact ⟨hparent, hname⟩
      · obtain ⟨x, rfl⟩ := hbelow
        simp only [List.append_assoc, List.drop_left, List.prefix_append, if_true] at hk ⊢
        rw [← List.append_assoc] at hk
        exact ⟨h.parent _ _ _ hk, h.proper _ _ _ hk⟩
    · next hbelow =>
      split at hk
      · cases hk
      · next hup =>
        rw [if_neg fun hle => hbelow (hle.trans (List.prefix_append _ _)),
          if_neg fun hle => hup (hle.trans (List.prefix_append _ _))]
        exact ⟨h.parent _ _ _ hk, h.proper _ _ _ hk⟩
  exact ⟨fun k n e hk => (hstep k n e hk).1, fun k n e hk => (hstep k n e hk).2,
    hmoves.eq ▸ h.workingDir⟩

end FileTree

open FileTree (AddsDirectories Prunes)

/-! ## Whatever is moved -/

/-- The second tree has files of the first alone, where they were or taken along by a move
    from one location to another, if there is one, and all of those that it leaves alone. -/
structure Carries (move : Option (Location × Location)) (t t' : FileTree) : Prop where
  wellFormed : t'.WellFormed
  workingDir : t'.workingDir = t.workingDir
  file : ∀ m c, t'.get? m = some (.file c) →
    ∃ n, t.get? n = some (.file c) ∧ (n = m ∨ ∃ l k, move = some (l, k) ∧ l <+: n)
  stays : ∀ m c, (∀ l k, move = some (l, k) → ¬ l <+: m ∧ k ≠ m) → t.get? m = some (.file c) →
    t'.get? m = some (.file c)

namespace Carries

variable {t t₁ t₂ t' : FileTree} {move : Option (Location × Location)}

theorem refl (h : t.WellFormed) : Carries move t t :=
  ⟨h, rfl, fun m _ hm => ⟨m, hm, .inl rfl⟩, fun _ _ _ hm => hm⟩

theorem trans (h : Carries move t t₁) (h' : Carries move t₁ t₂) : Carries move t t₂ where
  wellFormed := h'.wellFormed
  workingDir := h'.workingDir.trans h.workingDir
  file m c hm := by
    obtain ⟨n, hn, hfrom⟩ := h'.file m c hm
    obtain ⟨n', hn', hfrom'⟩ := h.file n c hn
    refine ⟨n', hn', ?_⟩
    rcases hfrom' with rfl | htaken
    · exact hfrom
    · exact .inr htaken
  stays m c hleft hm := h'.stays m c hleft (h.stays m c hleft hm)

theorem adds (h : AddsDirectories t t') (hwf : t'.WellFormed) : Carries move t t' :=
  ⟨hwf, h.workingDir, fun m _ hm => ⟨m, h.file hm, .inl rfl⟩, fun _ _ _ hm => h.some hm⟩

theorem prunes (h : Prunes t t') (hwf : t.WellFormed) : Carries move t t' :=
  ⟨hwf.prunes h, h.workingDir, fun m _ hm => ⟨m, h.file_iff.1 hm, .inl rfl⟩, fun _ _ _ hm => h.file_iff.2 hm⟩

end Carries

variable {t t' : FileTree} {source target musicDir : Path}

/-- What is no file is moved by renaming it, since it cannot be copied. -/
theorem rename_of_moveFile (hs : ∀ l c, t.find source ≠ .ok (l, .file c))
    (h : moveFile t source target = (t', .ok ())) : t.rename source target = .ok t' := by
  unfold moveFile at h
  split at h
  · next t₁ hrename =>
    cases h
    exact hrename
  · split at h
    · cases h
    · next t₁ hcopied =>
      unfold FileTree.copy at hcopied
      split at hcopied
      · cases hcopied
      · cases hcopied
      · next l c hfound => exact absurd hfound (hs l c)

/-- What moving comes to: a file is where the target leads, or a directory. -/
inductive Moved (t t' : FileTree) (source target : Path) : Prop where
  | file {l k : Location} {c : Content} (hs : t.find source = .ok (l, .file c))
      (hlands : t.Lands target k)
      (hmoved : k = l ∧ t' = t ∨ k ≠ l ∧ FileTree.MovesFile t t' l k c)
  | directory (hs : ∃ parent name asDirectory,
        t.locate source = .ok (.entry parent name asDirectory))
      (htarget : ∃ parent name asDirectory,
        t.locate target = .ok (.entry parent name asDirectory))
      (hget : t.get? (t.destination source) = some .directory)
      (hmoved : t.destination target = t.destination source ∧ t' = t ∨
        FileTree.MovesDirectory t t' (t.destination source) (t.destination target))

theorem moveFile_moved (hwf : t.WellFormed) (h : moveFile t source target = (t', .ok ())) :
    Moved t t' source target := by
  by_cases hfile : ∃ l c, t.find source = .ok (l, .file c)
  · obtain ⟨l, c, hs⟩ := hfile
    obtain ⟨k, hlands, hmoved⟩ := moveFile_ok hs h
    exact .file hs hlands hmoved
  · have hs : ∀ l c, t.find source ≠ .ok (l, .file c) := fun l c hfound => hfile ⟨l, c, hfound⟩
    obtain ⟨hlocate, htarget, hget, hmoved⟩ :=
      FileTree.rename_cases hwf hs (rename_of_moveFile hs h)
    exact .directory hlocate htarget hget hmoved

/-- What moves carries files along. -/
theorem Moved.carries (h : Moved t t' source target) (hwf : t.WellFormed) :
    Carries (some (t.destination source, t.destination target)) t t' := by
  -- A file goes alone, and a directory with all that is below it.
  cases h with
  | @file l k c hs hlands hmoved =>
    have hl := (FileTree.route_of_find hs).2
    obtain ⟨-, -, -, -, hget⟩ := FileTree.find_file_iff.1 hs
    obtain ⟨-, rfl⟩ | ⟨hne, hmoves⟩ := hmoved
    · exact .refl hwf
    · refine ⟨hwf.moves hget hlands hne hmoves, hmoves.workingDir, ?_, ?_⟩
      · intro m d hm
        rw [hmoves.get?] at hm
        split at hm
        · exact ⟨l, hget.trans hm, .inr ⟨_, _, rfl, hl ▸ List.prefix_refl _⟩⟩
        · split at hm
          · cases hm
          · exact ⟨m, hm, .inl rfl⟩
      · intro m d hleft hm
        obtain ⟨hsource, hplace⟩ := hleft _ _ rfl
        have hmk : m ≠ k := fun heq => hplace (heq ▸ hlands.eq_destination.symm)
        have hml : m ≠ l := fun heq => hsource (heq ▸ hl ▸ List.prefix_refl _)
        rw [hmoves.get?, if_neg hmk, if_neg hml, hm]
  | directory _ htarget _ hmoved =>
    obtain ⟨parent, name, _, hlocate⟩ := htarget
    obtain ⟨-, rfl⟩ | hmoves := hmoved
    · exact .refl hwf
    · have hplace : parent ++ [name] = t.destination target := FileTree.location_of_locate hlocate
      obtain ⟨hparent, hproper⟩ := hwf.of_locate hlocate
      refine ⟨hwf.relocate hparent hproper (hplace ▸ hmoves), hmoves.eq ▸ rfl, ?_, ?_⟩
      · intro m c hm
        rw [hmoves.get?] at hm
        split at hm
        · exact ⟨_, hm, .inr ⟨_, _, rfl, List.prefix_append _ _⟩⟩
        · split at hm
          · cases hm
          · exact ⟨m, hm, .inl rfl⟩
      · intro m c hleft hm
        obtain ⟨hsource, hother⟩ := hleft _ _ rfl
        rw [hmoves.get?, if_neg, if_neg hsource, hm]
        intro hbelow
        exact hother (hmoves.eq_of_below hm hbelow).symm

/-- **Moving to a place carries files along**: afterwards there are the same files, but for
    one that was where something has moved, and those elsewhere are where they were. -/
theorem organizeFile_carries {relative : String} {result : Except Failure Path}
    (hwf : t.WellFormed) (h : organizeFile t source musicDir relative = (t', result)) :
    Carries (result.toOption.map fun place => (t.destination source, t.destination place)) t t' := by
  cases result with
  | error failure =>
    obtain ⟨hadds, hwf'⟩ := organizeFile_error_adds h
    exact .adds hadds (hwf' hwf)
  | ok place =>
    rcases organizeFile_ok_cases h with ⟨-, rfl⟩ | ⟨t₁, t₂, hprep, hmove, rfl⟩
    · exact .refl hwf
    · have hwf₁ := hprep.wellFormed hwf
      have hmoved := (moveFile_moved hwf₁ hmove).carries hwf₁
      rw [FileTree.destination_congr hprep.adds.workingDir,
        FileTree.destination_congr hprep.adds.workingDir] at hmoved
      exact .trans (.trans (.adds hprep.adds hwf₁) hmoved)
        (.prunes (cleanUp_prunes t₂ musicDir source) hmoved.wellFormed)

end SongLibrary
