/-
  What stands before a path.

  A template is found anywhere in a path, so a path may have directories before those that
  the template describes.  They do not count: a match has as many slashes as the literal text
  of the template (`Pattern.ReadsWhole.count_slash`), if the groups that may be missing have
  none, so where a path is read from its first character on there are too many of them before
  it (`extract_behind`).
-/
import SongLibrary.Proofs.Template.Copied
import SongLibrary.Proofs.Template.Parsing
import SongLibrary.Proofs.Template.Preference

namespace SongLibrary.Template

variable {t : Template} {path : String} {captures : Captures} {text : List Char}

/-! ## Reading from the first character on -/

/-- A path that the template describes from its first character on, and what is captured in
    one of the ways to read it so. -/
def ReadsWhole (t : Template) (path : String) (captures : Captures) : Prop :=
  ∃ body extension, path.toList = body ++ extension ∧ InOrder Group.Reads t.groups body captures ∧
    IsExtension extension

/-- What a pattern reads from the first character of a text on. -/
def Pattern.ReadsWhole (pattern : Pattern) (text : List Char) (captures : Captures) : Prop :=
  ∃ body extension, text = body ++ extension ∧ InOrder Block.Reads pattern body captures ∧
    IsExtension extension

theorem pattern_readsWhole_iff :
    t.pattern.ReadsWhole path.toList captures ↔ t.ReadsWhole path captures := by
  have hblocks : ∀ {body}, InOrder Block.Reads t.pattern body captures ↔
      InOrder Group.Reads t.groups body captures :=
    InOrder.map_iff.trans (InOrder.congr Group.block_reads_iff)
  unfold Pattern.ReadsWhole ReadsWhole
  simp only [hblocks]

/-- **What is tried at the beginning of a text** is found if the text is read from there on. -/
theorem finds_attempt (pattern : Pattern) (text : List Char) :
    Finds (pattern.ReadsWhole text) (pattern.attempt text) := by
  have hrow : Holds (Before (InOrder Block.Reads pattern) _) text _ := holds_inOrder
    (fun block {_ _} h => holds_block block h) pattern (holds_extension text)
  rw [extensionRow_eq, row_foldr (fun block row => block.row text row)
    (fun block next => row_block block next text)] at hrow
  have hfirst := hrow.head
  rw [head?_tails] at hfirst
  refine hfirst.congr fun captures => ⟨?_, ?_⟩
  · rintro ⟨body, extension, captured, _, rfl, rfl, hreads, rfl, hextension⟩
    rw [List.append_nil]
    exact ⟨body, extension, rfl, hreads, hextension⟩
  · rintro ⟨body, extension, rfl, hreads, hextension⟩
    exact ⟨body, extension, captures, [], rfl, (List.append_nil _).symm, hreads, rfl, hextension⟩

/-! ## Slashes -/

theorem Segment.Reads.count_slash {segment : Segment} (h : segment.Reads text captures) :
    text.count '/' = segment.literalText.count '/' := by
  cases h with
  | literal text => rfl
  | name _ _ hslash => exact List.count_eq_zero.2 hslash
  | digits _ _ hdigits =>
    refine List.count_eq_zero.2 fun hmem => ?_
    have hslash := hdigits _ hmem
    revert hslash
    decide
  | noDigits _ => rfl

/-- Where what is read for each member of a list has the slashes of its literal text, so has
    what is read for the list. -/
theorem InOrder.count_slash {α : Type} {reads : α → List Char → Captures → Prop}
    {literal : α → List Char} {list : List α}
    (h : ∀ a ∈ list, ∀ text captures, reads a text captures → text.count '/' = (literal a).count '/')
    (hreads : InOrder reads list text captures) :
    text.count '/' = (list.flatMap literal).count '/' := by
  induction hreads with
  | nil => rfl
  | cons ha _ ih =>
    rw [List.count_append, List.flatMap_cons, List.count_append, h _ (List.mem_cons_self ..) _ _ ha,
      ih fun a ha => h a (List.mem_cons_of_mem _ ha)]

theorem Group.Reads.count_slash {g : Group} (hflat : g.optional → '/' ∉ g.literalText)
    (h : g.Reads text captures) : text.count '/' = g.literalText.count '/' := by
  cases h with
  | present h => exact h.count_slash fun _ _ _ _ hsegment => hsegment.count_slash
  | absent hoptional => rw [List.count_eq_zero.2 (hflat hoptional), List.count_nil]

theorem IsExtension.slash_not_mem (h : IsExtension text) : '/' ∉ text := by
  obtain ⟨letters, rfl, -, halphanum⟩ := h
  rw [List.mem_cons, not_or]
  refine ⟨by decide, fun hmem => ?_⟩
  have hslash := halphanum _ hmem
  revert hslash
  decide

/-- **A match has the slashes of the template**, unless a group that may be missing has one. -/
theorem Pattern.ReadsWhole.count_slash (hflat : ∀ g ∈ t.groups, g.optional → '/' ∉ g.literalText)
    (h : t.pattern.ReadsWhole text captures) :
    text.count '/' = (t.groups.flatMap Group.literalText).count '/' := by
  obtain ⟨body, extension, rfl, hreads, hextension⟩ := h
  have hgroups : InOrder Group.Reads t.groups body captures :=
    (InOrder.map_iff.trans (InOrder.congr Group.block_reads_iff)).1 hreads
  rw [List.count_append, List.count_eq_zero.2 hextension.slash_not_mem, Nat.add_zero]
  exact hgroups.count_slash fun g hg _ _ hg' => hg'.count_slash (hflat g hg)

/-! ## Behind other directories -/

/-- What is captured in a path that is read from its first character on is captured in it
    behind other directories, too. -/
theorem read?_behind (hflat : ∀ g ∈ t.groups, g.optional → '/' ∉ g.literalText)
    (h : t.ReadsWhole path captures) (front : String) :
    t.read? (front ++ "/" ++ path) = t.read? path := by
  have hslashes := (pattern_readsWhole_iff.2 h).count_slash hflat
  have htext : (front ++ "/" ++ path).toList = (front.toList ++ ['/']) ++ path.toList := by
    simp
  unfold read?
  rw [Pattern.captures?_eq_findSome?, Pattern.captures?_eq_findSome?, htext]
  refine findSome?_tails_append _ _ fun suffix hsuffix hne => ?_
  rw [Option.eq_none_iff_forall_ne_some]
  intro captures' hfound
  -- A match that begins before the path has all its slashes, and the one before it.
  have hcount := ((finds_attempt _ _).sound _ hfound).count_slash hflat
  have hmem : '/' ∈ suffix := by
    obtain ⟨before, hbefore⟩ := hsuffix
    obtain ⟨init, last, rfl⟩ := (List.eq_nil_or_concat suffix).resolve_left hne
    rw [List.concat_eq_append, ← List.append_assoc] at hbefore
    rw [List.concat_eq_append, (List.append_inj' hbefore rfl).2]
    simp
  have hpos := List.count_pos_iff.2 hmem
  rw [List.count_append, hslashes] at hcount
  omega

/-- **Directories before a path change nothing.**  If the groups that may be missing have no
    slash in their literal text, and a path is read from its first character on, then a path
    with anything and a slash before it gives the same tags and the same piece of path,
    whatever the readers were asked before. -/
theorem extract_behind (t : Template) (hflat : ∀ g ∈ t.groups, g.optional → '/' ∉ g.literalText)
    (path : String) (captures : Captures) (h : t.ReadsWhole path captures) (front : String)
    (earlier earlier' : List String) :
    (t.read? path).isSome ∧
    (∀ key, (((Reader.of t).asked earlier).extract? (front ++ "/" ++ path) key).1 =
      (((Reader.of t).asked earlier').extract? path key).1) ∧
    (((Reader.of t).asked earlier).extractBypass? (front ++ "/" ++ path)).1 =
      (((Reader.of t).asked earlier').extractBypass? path).1 := by
  have hsame := read?_behind hflat h front
  refine ⟨?_, fun key => ?_, ?_⟩
  · obtain ⟨body, extension, hpath, hreads, hextension⟩ := h
    exact read?_isSome_iff.2 ⟨captures, [], body, extension, by simpa using hpath, hreads, hextension⟩
  · rw [Reader.extract?_asked, Reader.extract?_asked, extract?, hsame, ← extract?]
  · rw [Reader.extractBypass?_asked, Reader.extractBypass?_asked, extractBypass?, hsame,
      ← extractBypass?]

/-- The directories before the artist are not taken for it. -/
theorem extract_behind_titled :
    let t := compile "%ARTIST%/\x7b%TRACKNUMBER0% - \x7d%TITLE%"
    (∀ g ∈ t.groups, g.optional → '/' ∉ g.literalText) ∧
      t.ReadsWhole "A/07 - t.mp3" [some ['A'], some ['0', '7'], some ['t']] ∧
      ((Reader.of t).extract? "B/02 - u.mp3/A/07 - t.mp3" .artist).1 = some "A" := by
  intro t
  have hflat : ∀ g ∈ t.groups, g.optional → '/' ∉ g.literalText := by decide +kernel
  have hattempt : t.pattern.attempt "A/07 - t.mp3".toList =
      some [some ['A'], some ['0', '7'], some ['t']] := by cbv
  have hreads := pattern_readsWhole_iff.1 ((finds_attempt _ _).sound _ hattempt)
  obtain ⟨-, hextract, -⟩ := extract_behind t hflat _ _ hreads "B/02 - u.mp3" [] []
  refine ⟨hflat, hreads, (hextract .artist).trans ?_⟩
  cbv

end SongLibrary.Template
