/-
  Which keys lead back, and which files share one.

  * the key of a file leads back to it just if the path of the file is absolute or begins with
    that of the music directory (`sameAs_resolve_keyOf_iff`);
  * two files share a key just if one is outside the music directory and is called what remains
    of the other after it (`keyOf_eq_iff`); so no two files of a scan do that begins at an
    absolute path or in the music directory (`keyOf_ne_of_mem_walk`);
  * `keys_lead_back` is the main statement, and `relative_key_leads_astray` shows what becomes
    of a relative path outside the music directory.
-/
import SongLibrary.Proofs.FileTree.Walk
import SongLibrary.Proofs.PathAbove

namespace SongLibrary

namespace Path

variable {p q base rest : Path}

/-! ## What remains after a base -/

theorem isSome_partsAfter? (parts names : List Name) : (partsAfter? parts names).isSome =
    names.isPrefixOf (parts.filter fun part => !part.isSilent) := by
  fun_induction partsAfter? parts names with
  | case1 => simp
  | case2 => rfl
  | case3 part parts name names hsilent ih => simpa [hsilent] using ih
  | case4 parts name names hloud ih => simpa [hloud] using ih
  | case5 part parts name names hloud hne =>
    have hne' : (name == part) = false := by simpa using Ne.symm hne
    simp [hloud, List.isPrefixOf, hne']

/-- Something remains of a path just if it begins with the base. -/
theorem isSome_stripBase? (p base : Path) : (p.stripBase? base).isSome = p.startsWith base := by
  unfold stripBase? startsWith
  by_cases hempty : base.components = (.silent, [])
  · simp [hempty]
  · by_cases hstart : p.start = base.start
    · simp [hempty, hstart, isSome_partsAfter?, names]
    · simp [hempty, hstart]

theorem stripBase?_eq_none (h : p.startsWith base = false) : p.stripBase? base = none := by
  rwa [← isSome_stripBase?, Option.isSome_eq_false_iff, Option.isNone_iff_eq_none] at h

/-- A path without the silent parts at its end means the same. -/
theorem components_trimEnd (p : Path) :
    (ofBody p.start (trimEnd p.body)).components = p.components := by
  obtain ⟨first, others, hparts⟩ := List.exists_cons_of_ne_nil p.splitOn_ne_nil
  have hbegins := start_eq p hparts
  have hkept : trimEnd p.body <+: p.body := Text.dropEndWhile_prefix Name.isSilent p.body
  have hslash : ∀ part ∈ trimEnd p.body, slash ∉ part := fun part hpart =>
    slash_not_mem_of_mem_parts (p.body_subset (hkept.subset hpart))
  have hhere : ∀ part ∈ Name.here :: trimEnd p.body, slash ∉ part :=
    List.forall_mem_cons.2 ⟨by decide, hslash⟩
  -- A path that begins with an empty part has no other, or begins at the root.
  have hfirst : p.start = .silent → (trimEnd p.body).head? ≠ some [] := by
    intro hsilent hhead
    obtain ⟨tail, htail⟩ := List.head?_eq_some_iff.1 hhead
    obtain ⟨after, hbody⟩ := hkept
    rw [htail, List.cons_append, body, hsilent] at hbody
    change [] :: (tail ++ after) = p.parts at hbody
    rw [hparts] at hbody
    obtain ⟨rfl, rfl⟩ := List.cons.inj hbody
    by_cases hnone : tail ++ after = []
    · rw [body, hsilent] at htail
      change trimEnd p.parts = [] :: tail at htail
      rw [hparts, hnone] at htail
      cases htail
    · rw [if_pos ⟨rfl, hnone⟩, hsilent] at hbegins
      cases hbegins
  have hnames := (ofBody_names hslash hfirst).2
  rw [filter_trimEnd] at hnames
  refine Prod.ext_iff.2 ⟨?_, hnames⟩
  change (ofBody p.start (trimEnd p.body)).start = p.start
  cases hstart : p.start with
  | root =>
    have habsolute := (ofBody_names hslash hfirst).1
    rw [hstart] at habsolute
    simpa [isAbsolute] using habsolute
  | here =>
    rw [ofBody, start_eq _ (parts_ofParts hhere (by simp)), if_neg fun h => absurd h.1 (by decide),
      if_pos rfl]
  | silent =>
    cases hbody : trimEnd p.body with
    | nil => rfl
    | cons part parts =>
      rw [hbody] at hslash
      have hne : part ≠ [] := by simpa [hbody] using hfirst hstart
      rw [ofBody, start_eq _ (parts_ofParts hslash (by simp)), if_neg fun h => hne h.1, if_neg]
      rintro rfl
      obtain ⟨after, hpart⟩ := hkept
      rw [hbody, List.cons_append, body, hstart] at hpart
      change Name.here :: (parts ++ after) = p.parts at hpart
      rw [start_eq p hpart.symm, if_neg fun h => hne h.1, if_pos rfl] at hstart
      cases hstart

/-- What remains of a path that is text is text. -/
theorem IsText.stripBase? (hp : p.IsText) (h : p.stripBase? base = some rest) : rest.IsText := by
  rw [isText_iff] at hp ⊢
  have hchar : ∀ x, x = slash ∨ x ∈ p.symbols → ∃ c, x = .char c := by
    rintro x (rfl | hx)
    · exact ⟨'/', rfl⟩
    · exact hp x hx
  by_cases hbase : base.symbols = []
  · rw [Path.stripBase?, if_pos ((components_eq_silent_iff base).2 hbase)] at h
    cases h
    have hkept : trimEnd p.body ⊆ p.parts :=
      List.Subset.trans (Text.dropEndWhile_prefix Name.isSilent p.body).subset p.body_subset
    have hparts : ∀ parts : List Name,
        (∀ part ∈ parts, part ∈ p.parts ∨ part = [] ∨ part = Name.here) →
          ∀ x ∈ (ofParts parts).symbols, ∃ c, x = .char c := by
      intro parts hparts x hx
      rcases mem_symbols_ofParts hx with rfl | ⟨part, hpart, hx⟩
      · exact ⟨'/', rfl⟩
      · rcases hparts part hpart with hpart | rfl | rfl
        · exact hp x (subset_of_mem_splitOn hpart hx)
        · cases hx
        · exact ⟨'.', List.mem_singleton.1 hx⟩
    have hbody : ∀ part ∈ trimEnd p.body, part ∈ p.parts ∨ part = [] ∨ part = Name.here :=
      fun part hpart => .inl (hkept hpart)
    unfold ofBody
    split
    · refine hparts _ (List.forall_mem_cons.2 ⟨.inr (.inl rfl), ?_⟩)
      split
      · exact List.forall_mem_singleton.2 (.inr (.inl rfl))
      · exact hbody
    · exact hparts _ (List.forall_mem_cons.2 ⟨.inr (.inr rfl), hbody⟩)
    · exact hparts _ hbody
  · exact fun x hx => hchar x ((stripBase?_eq_some hbase h).2.2.2 x hx)

theorem sameAs_iff : p.sameAs q ↔ p.start = q.start ∧ p.names = q.names := by
  simp [sameAs, components]

/-- **What remains of a path after a base, seen from the base, is the path.** -/
theorem sameAs_join_of_stripBase? (h : p.stripBase? base = some rest) :
    (base.join rest).sameAs p := by
  by_cases hbase : base.symbols = []
  · rw [stripBase?, if_pos ((components_eq_silent_iff base).2 hbase)] at h
    cases h
    have hjoin : base.join (ofBody p.start (trimEnd p.body)) = ofBody p.start (trimEnd p.body) := by
      unfold join
      simp [hbase]
    rw [hjoin, sameAs, components_trimEnd, beq_self_eq_true]
  · obtain ⟨hstart, hrelative, hnames, -⟩ := stripBase?_eq_some hbase h
    exact sameAs_iff.2 ⟨(start_join hbase hrelative).trans hstart.symm,
      (names_join base hrelative).trans hnames.symm⟩

end Path

open Path

variable {musicDir p q root : Path} {t : FileTree}

/-! ## Leading back -/

theorem keyOf_of_startsWith {rest : Path} (h : p.stripBase? musicDir = some rest) :
    keyOf musicDir p = rest.shown := by
  rw [keyOf, pathFrom, h]

theorem keyOf_of_outside (h : p.startsWith musicDir = false) : keyOf musicDir p = p.shown := by
  rw [keyOf, pathFrom, stripBase?_eq_none h]

/-- **The key of a file leads back to it** just if its path is absolute, or begins with that of
    the music directory. -/
theorem sameAs_resolve_keyOf_iff (hp : p.IsText) :
    (resolve musicDir (keyOf musicDir p)).sameAs p ↔ p.isAbsolute ∨ p.startsWith musicDir := by
  cases hinside : p.startsWith musicDir with
  | true =>
    rw [← isSome_stripBase?] at hinside
    obtain ⟨rest, hrest⟩ := Option.isSome_iff_exists.1 hinside
    have htext : ofString rest.shown = rest := hp.stripBase? hrest
    rw [keyOf_of_startsWith hrest, resolve, htext]
    simp [sameAs_join_of_stripBase? hrest]
  | false =>
    have htext : ofString p.shown = p := hp
    rw [keyOf_of_outside hinside, resolve, htext]
    cases habsolute : p.isAbsolute with
    | true => simp [join, habsolute, sameAs]
    | false =>
      simp only [Bool.false_eq_true, or_self, iff_false]
      intro hsame
      obtain ⟨hstart, hnames⟩ := sameAs_iff.1 hsame
      have hnone : musicDir.names = [] := by simpa [names_join musicDir habsolute] using hnames
      -- The path begins with a base that has no names and its own start.
      have hbegins : p.startsWith musicDir = true := by
        unfold startsWith
        by_cases hempty : musicDir.symbols = []
        · simp [(components_eq_silent_iff musicDir).2 hempty]
        · rw [start_join hempty habsolute] at hstart
          simp [hstart, hnone]
      rw [hbegins] at hinside
      cases hinside

/-! ## Sharing a key -/

/-- A path outside the music directory that is spelled as what remains of another after it. -/
def IsRemainderOf (musicDir q p : Path) : Prop :=
  q.startsWith musicDir = false ∧ p.stripBase? musicDir = some q

instance (musicDir q p : Path) : Decidable (IsRemainderOf musicDir q p) :=
  inferInstanceAs (Decidable (_ ∧ _))

theorem IsRemainderOf.isAbsolute (h : IsRemainderOf musicDir q p) : q.isAbsolute = false := by
  by_cases hempty : musicDir.symbols = []
  · have hbegins : q.startsWith musicDir = true := by
      simp [startsWith, (components_eq_silent_iff musicDir).2 hempty]
    rw [h.1] at hbegins
    cases hbegins
  · exact (stripBase?_eq_some hempty h.2).2.1

theorem shown_inj (hp : p.IsText) (hq : q.IsText) : p.shown = q.shown ↔ p = q :=
  ⟨fun h => hp.symm.trans ((congrArg ofString h).trans hq), fun h => h ▸ rfl⟩

/-- **Two files share a key** just if one is outside the music directory, and is called what
    remains of the other after it. -/
theorem keyOf_eq_iff (hp : p.IsText) (hq : q.IsText) (hne : ¬ p.sameAs q) :
    keyOf musicDir p = keyOf musicDir q ↔
      IsRemainderOf musicDir q p ∨ IsRemainderOf musicDir p q := by
  have hdiffers : p ≠ q := by
    rintro rfl
    exact hne (by simp [sameAs])
  have hrest : ∀ {p : Path}, p.startsWith musicDir = true → ∃ rest, p.stripBase? musicDir = some rest :=
    fun {p} h => Option.isSome_iff_exists.1 ((isSome_stripBase? p musicDir).trans h)
  unfold IsRemainderOf
  cases hinside : p.startsWith musicDir with
  | true =>
    obtain ⟨rest, hp'⟩ := hrest hinside
    cases hinside' : q.startsWith musicDir with
    | true =>
      refine ⟨fun heq => absurd ?_ hne, by simp⟩
      have hback := (sameAs_resolve_keyOf_iff hp).2 (.inr hinside)
      have hback' := (sameAs_resolve_keyOf_iff hq).2 (.inr hinside')
      rw [heq] at hback
      rw [sameAs_iff] at hback hback' ⊢
      exact ⟨hback.1.symm.trans hback'.1, hback.2.symm.trans hback'.2⟩
    | false =>
      rw [keyOf_of_startsWith hp', keyOf_of_outside hinside', shown_inj (hp.stripBase? hp') hq, hp']
      simp
  | false =>
    rw [keyOf_of_outside hinside]
    cases hinside' : q.startsWith musicDir with
    | true =>
      obtain ⟨rest, hq'⟩ := hrest hinside'
      rw [keyOf_of_startsWith hq', shown_inj hp (hq.stripBase? hq'), hq']
      simp [eq_comm]
    | false =>
      rw [keyOf_of_outside hinside', shown_inj hp hq, stripBase?_eq_none hinside,
        stripBase?_eq_none hinside']
      simp [hdiffers]

/-! ## Scans -/

/-- A scan comes to paths that begin as it does. -/
theorem components_of_mem_walk (hwf : t.WellFormed) (hlisted : t.Listed) (hroot : root.symbols ≠ [])
    (hp : p ∈ t.walk root) : p.start = root.start ∧ root.names <+: p.names := by
  rcases FileTree.mem_walk hlisted hp with ⟨_, _, -, rfl⟩ | ⟨_, names, _, -, rfl, hget⟩
  · exact ⟨rfl, List.prefix_rfl⟩
  · have hproper : ∀ name ∈ names, name.IsProper := fun name hname =>
      hwf.proper_of_get? hget name (by simp [hname])
    clear hp hget
    induction names generalizing root with
    | nil => exact ⟨rfl, List.prefix_rfl⟩
    | cons name names ih =>
      obtain ⟨hname, hrest⟩ := List.forall_mem_cons.1 hproper
      have hrelative : isAbsolute ⟨name⟩ = false := by
        rw [Bool.eq_false_iff]
        intro habsolute
        exact hname.no_slash (List.mem_of_mem_head? ((isAbsolute_iff ⟨name⟩).1 habsolute))
      have hsome : (root.child name).symbols ≠ [] := by
        rw [child, join, hrelative, if_neg Bool.false_ne_true]
        split <;> simp [hroot]
      obtain ⟨hstart, hnames⟩ := ih hsome hrest
      have hlonger : root.names <+: (root.child name).names :=
        names_join root hrelative ▸ List.prefix_append ..
      exact ⟨hstart.trans (start_join hroot hrelative), hlonger.trans hnames⟩

/-- A scan from an absolute path comes to absolute paths. -/
theorem isAbsolute_of_mem_walk (hlisted : t.Listed) (hroot : root.isAbsolute)
    (hp : p ∈ t.walk root) : p.isAbsolute := by
  rcases FileTree.mem_walk hlisted hp with ⟨_, _, -, rfl⟩ | ⟨_, names, _, -, rfl, -⟩
  · exact hroot
  · clear hp
    induction names generalizing root with
    | nil => exact hroot
    | cons name names ih => exact ih (isAbsolute_join hroot _)

/-- A scan that begins in a directory comes to paths that do. -/
theorem startsWith_of_mem_walk (hwf : t.WellFormed) (hlisted : t.Listed)
    (h : root.startsWith musicDir) (hp : p ∈ t.walk root) : p.startsWith musicDir := by
  unfold startsWith at h ⊢
  rw [Bool.or_eq_true] at h ⊢
  rcases h with hempty | hbegins
  · exact .inl hempty
  · obtain ⟨hstart, hnames⟩ : root.start = musicDir.start ∧ musicDir.names <+: root.names := by
      simpa using hbegins
    by_cases hroot : root.symbols = []
    · -- A base that the empty path begins with is empty.
      have hnone := (components_eq_silent_iff root).2 hroot
      obtain ⟨hsilent, hnil⟩ : root.start = .silent ∧ root.names = [] := by
        simpa [components] using hnone
      rw [hnil, List.prefix_nil] at hnames
      exact .inl (by simp [components, ← hstart, hsilent, hnames])
    · obtain ⟨hstart', hnames'⟩ := components_of_mem_walk hwf hlisted hroot hp
      exact .inr (by simpa using ⟨hstart'.trans hstart, hnames.trans hnames'⟩)

/-- The files that a scan comes to are different ones. -/
theorem not_sameAs_of_mem_walk (hwf : t.WellFormed) (hlisted : t.Listed) (hp : p ∈ t.walk root)
    (hq : q ∈ t.walk root) (hne : p ≠ q) : ¬ p.sameAs q := fun hsame =>
  hne (List.inj_on_of_nodup_map (FileTree.nodup_walk hwf hlisted root) hp hq
    (FileTree.destination_of_sameAs hsame))

/-- **The files of a scan have keys of their own** if it begins at an absolute path, or in the
    music directory. -/
theorem keyOf_ne_of_mem_walk (hwf : t.WellFormed) (hlisted : t.Listed)
    (hroot : root.isAbsolute ∨ root.startsWith musicDir) (hp : p ∈ t.walk root)
    (hq : q ∈ t.walk root) (htp : p.IsText) (htq : q.IsText) (hne : p ≠ q) :
    keyOf musicDir p ≠ keyOf musicDir q := by
  have hnone : ∀ p ∈ t.walk root, ∀ q, ¬ IsRemainderOf musicDir p q := by
    intro p hp q h
    rcases hroot with habsolute | hbegins
    · have hp' := isAbsolute_of_mem_walk hlisted habsolute hp
      rw [h.isAbsolute] at hp'
      cases hp'
    · have hp' := startsWith_of_mem_walk hwf hlisted hbegins hp
      rw [h.1] at hp'
      cases hp'
  rw [Ne, keyOf_eq_iff htp htq (not_sameAs_of_mem_walk hwf hlisted hp hq hne), not_or]
  exact ⟨hnone q hq p, hnone p hp q⟩

/-- **The key of a file leads back to it**, component by component, just if its path is absolute
    or begins with that of the music directory.  Of two files of a scan that share a key one is
    outside the music directory, and is called what remains of the other after it. -/
theorem keys_lead_back (musicDir : Path) :
    (∀ p : Path, p.IsText →
      ((resolve musicDir (keyOf musicDir p)).sameAs p ↔ p.isAbsolute ∨ p.startsWith musicDir)) ∧
    ∀ (t : FileTree) (root : Path), t.WellFormed → t.Listed →
      ∀ p ∈ t.walk root, ∀ q ∈ t.walk root, p.IsText → q.IsText → p ≠ q →
        (keyOf musicDir p = keyOf musicDir q ↔
          IsRemainderOf musicDir q p ∨ IsRemainderOf musicDir p q) ∧
        (root.isAbsolute ∨ root.startsWith musicDir → keyOf musicDir p ≠ keyOf musicDir q) := by
  refine ⟨fun p hp => sameAs_resolve_keyOf_iff hp, ?_⟩
  intro t root hwf hlisted p hp q hq htp htq hne
  exact ⟨keyOf_eq_iff htp htq (not_sameAs_of_mem_walk hwf hlisted hp hq hne),
    fun hroot => keyOf_ne_of_mem_walk hwf hlisted hroot hp hq htp htq hne⟩

/-- A library in a directory with other songs. -/
def nestedLibrary : FileTree where
  entries :=
    [([.ofString "d"], .directory),
      ([.ofString "d", .ofString "m"], .directory),
      ([.ofString "d", .ofString "m", .ofString "d"], .directory),
      ([.ofString "d", .ofString "m", .ofString "d", .ofString "y.mp3"], .file (.text "a song")),
      ([.ofString "d", .ofString "y.mp3"], .file (.text "another"))]

namespace nestedLibrary

theorem wellFormed : nestedLibrary.WellFormed :=
  .of_entries (by decide) (by decide)

theorem walk_all : nestedLibrary.walk (.ofString "d") =
    [.ofString "d/m/d/y.mp3", .ofString "d/y.mp3"] := by
  have hbelow : (nestedLibrary.entries.filter FileTree.isFile).filterMap
      (FileTree.namesBelow? [.ofString "d"]) =
      [[.ofString "m", .ofString "d", .ofString "y.mp3"], [.ofString "y.mp3"]] := by decide
  rw [FileTree.walk_of_pairwise (by decide) hbelow (by decide)]
  decide

end nestedLibrary

theorem keys_lead_back_nested :
    (resolve (.ofString "d/m") (keyOf (.ofString "d/m") (.ofString "d/m/d//y.mp3"))).sameAs
      (.ofString "d/m/d//y.mp3") ∧
    (keyOf (.ofString "d/m") (.ofString "d/m/d/y.mp3") =
        keyOf (.ofString "d/m") (.ofString "d/y.mp3") ↔
      IsRemainderOf (.ofString "d/m") (.ofString "d/y.mp3") (.ofString "d/m/d/y.mp3") ∨
        IsRemainderOf (.ofString "d/m") (.ofString "d/m/d/y.mp3") (.ofString "d/y.mp3")) ∧
    keyOf (.ofString "d") (.ofString "d/m/d/y.mp3") ≠ keyOf (.ofString "d") (.ofString "d/y.mp3") := by
  have hwalk := nestedLibrary.walk_all
  have hscan := fun musicDir => (keys_lead_back musicDir).2 nestedLibrary (.ofString "d")
    nestedLibrary.wellFormed (by decide) (.ofString "d/m/d/y.mp3")
    (by rw [hwalk]; decide) (.ofString "d/y.mp3") (by rw [hwalk]; decide)
    (by decide) (by decide) (by decide)
  exact ⟨((keys_lead_back _).1 _ (by decide)).2 (.inr (by decide)), (hscan _).1,
    (hscan _).2 (.inr (by decide))⟩

/-- **A key may lead astray**: a relative path outside the music directory is looked for below
    it, and two files of a scan may share a key. -/
theorem relative_key_leads_astray :
    (keyOf (.ofString "lib") (.ofString "other/a.mp3") = "other/a.mp3" ∧
      resolve (.ofString "lib") "other/a.mp3" = .ofString "lib/other/a.mp3" ∧
      ¬ (resolve (.ofString "lib") (keyOf (.ofString "lib") (.ofString "other/a.mp3"))).sameAs
        (.ofString "other/a.mp3")) ∧
    ∃ p ∈ nestedLibrary.walk (.ofString "d"), ∃ q ∈ nestedLibrary.walk (.ofString "d"), p ≠ q ∧
      keyOf (.ofString "d/m") p = keyOf (.ofString "d/m") q := by
  refine ⟨by decide, ?_⟩
  rw [nestedLibrary.walk_all]
  exact ⟨.ofString "d/m/d/y.mp3", by decide, .ofString "d/y.mp3", by decide,
    by decide, by decide⟩

end SongLibrary
