/-
  Templates read the paths that they write.

  Where no placeholder of a group has a value, the group is not written; where it may be
  missing, it is not looked for.  The two agree for groups in braces only
  (`Group.IsMarked.optional_iff_braced`): text outside of braces is always looked for, so the
  path of a song need not be read where such text is left out with a number.

  * `Group.IsMarked`: what is marked as optional in a template that was compiled;
  * `reads_renderGroup`: a group reads what is written for it;
  * `reads_rendered` is the main statement.
-/
import SongLibrary.Proofs.Template.RoundTrip

namespace SongLibrary.Template

/-! ## What is optional -/

/-- What is optional: a group in braces that may be missing, and the placeholders of such a
    group and those for numbers. -/
structure Group.IsMarked (first : Bool) (g : Group) : Prop where
  optional : g.optional = (g.braced && mayBeMissing first (g.placeholders.map (·.field)))
  placeholders : ∀ p ∈ g.placeholders, p.optional = (g.optional || p.field.isNumeric)

theorem fields_segmentsOf (optional : Bool) (next : Nat) (parts : List Token) :
    ((segmentsOf optional next parts).filterMap Segment.placeholder?).map (·.field) =
      parts.filterMap Token.field? := by
  induction parts generalizing next with
  | nil => rfl
  | cons part rest ih =>
    cases part with
    | literal text => exact ih next
    | field f => exact congrArg (f :: ·) (ih (next + 1))

theorem optional_of_mem_segmentsOf {optional : Bool} {next : Nat} {parts : List Token}
    {p : Placeholder} (h : p ∈ (segmentsOf optional next parts).filterMap Segment.placeholder?) :
    p.optional = (optional || p.field.isNumeric) := by
  induction parts generalizing next with
  | nil => cases h
  | cons part rest ih =>
    cases part with
    | literal text => exact ih h
    | field f =>
      rcases List.mem_cons.1 h with rfl | h
      · rfl
      · exact ih h

theorem isMarked_of_mem_groupsOf {next : Nat} {texts : List (List Char × Bool)} {g : Group}
    (h : g ∈ groupsOf false next texts) : g.IsMarked false := by
  induction texts generalizing next with
  | nil => cases h
  | cons text rest ih =>
    rcases List.mem_cons.1 h with rfl | h
    · refine ⟨?_, fun p hp => optional_of_mem_segmentsOf hp⟩
      rw [Group.placeholders, fields_segmentsOf]
    · exact ih h

/-- The first group of a template is marked as one, and the others are as others. -/
theorem isMarked_groups (template : String) :
    (∀ g ∈ (compile template).groups.head?, g.IsMarked true) ∧
      ∀ g ∈ (compile template).groups.tail, g.IsMarked false := by
  rw [compile]
  cases groupTexts template.toList with
  | nil => exact ⟨by simp [groupsOf], by simp [groupsOf]⟩
  | cons text rest =>
    refine ⟨?_, fun g hg => isMarked_of_mem_groupsOf hg⟩
    rintro _ ⟨⟩
    refine ⟨?_, fun p hp => optional_of_mem_segmentsOf hp⟩
    rw [Group.placeholders, fields_segmentsOf]

/-- A group other than the first is optional for its numbers only. -/
theorem Group.IsMarked.isNumeric {g : Group} (hg : g.IsMarked false) (h : g.optional = true)
    {p : Placeholder} (hp : p ∈ g.placeholders) : p.field.isNumeric = true := by
  have hmissing := hg.optional
  rw [h] at hmissing
  simp only [mayBeMissing, Bool.false_and, Bool.false_or] at hmissing
  have hall := (Bool.and_eq_true_iff.1 (Bool.and_eq_true_iff.1 hmissing.symm).2).2
  exact List.all_eq_true.1 hall _ (List.mem_map_of_mem hp)

/-! ## Reading what is written -/

/-- What each member of a list reads by itself, the list reads. -/
theorem InOrder.of_forall {α : Type} {reads : α → List Char → Captures → Prop}
    {write : α → List Char} {list : List α} (h : ∀ a ∈ list, ∃ captures, reads a (write a) captures) :
    ∃ captures, InOrder reads list (list.flatMap write) captures := by
  induction list with
  | nil => exact ⟨[], .nil⟩
  | cons a rest ih =>
    obtain ⟨captures, ha⟩ := h a (List.mem_cons_self ..)
    obtain ⟨captures', hrest⟩ := ih fun b hb => h b (List.mem_cons_of_mem _ hb)
    exact ⟨captures ++ captures', .cons ha hrest⟩

section

variable {t : Template} {refs : ReferenceData} {song : Song} {bypass : Option String} {s : Sanitizer}
  {g : Group} {first : Bool}

theorem isWritten_eq_false_iff : t.isWritten refs song bypass s g = false ↔
    g.placeholders ≠ [] ∧ ∀ p ∈ g.placeholders, t.rendered refs song bypass s p.field = [] := by
  simp [isWritten]

/-- **A group that is left out is optional if it stands in braces**, and only then. -/
theorem Group.IsMarked.optional_iff_braced (hg : g.IsMarked first)
    (hfilled : ∀ p ∈ g.placeholders, p.optional = false → t.rendered refs song bypass s p.field ≠ [])
    (h : t.isWritten refs song bypass s g = false) : g.optional = true ↔ g.braced = true := by
  obtain ⟨hne, hempty⟩ := isWritten_eq_false_iff.1 h
  constructor
  · intro hoptional
    rw [hg.optional] at hoptional
    exact (Bool.and_eq_true_iff.1 hoptional).1
  · intro hbraced
    by_contra hrequired
    have hnumeric : (g.placeholders.map (·.field)).all Field.isNumeric = true := by
      simp only [List.all_map, List.all_eq_true, Function.comp_apply]
      intro p hp
      by_contra hname
      refine hfilled p hp ?_ (hempty p hp)
      rw [hg.placeholders p hp, Bool.eq_false_iff.2 hrequired, Bool.eq_false_iff.2 hname]
      rfl
    refine hrequired ?_
    simp [hg.optional, hbraced, mayBeMissing, hne, hnumeric]

/-- A segment reads what is written for it, if anything has to be. -/
theorem reads_renderSegment {segment : Segment} (h : ∀ p ∈ segment.placeholder?,
    p.field ≠ .bypass ∧ (p.field.isNumeric = true ∨ t.rendered refs song bypass s p.field ≠ [])) :
    ∃ captures, segment.Reads (t.renderSegment refs song bypass s segment) captures := by
  cases segment with
  | literal text => exact ⟨_, .literal text⟩
  | placeholder p =>
    obtain ⟨hbypass, hvalue⟩ := h p rfl
    change ∃ captures, Segment.Reads (.placeholder p) (t.rendered refs song bypass s p.field) captures
    by_cases hempty : t.rendered refs song bypass s p.field = []
    · rw [hempty]
      exact ⟨_, .noDigits (hvalue.resolve_right (not_not_intro hempty))⟩
    · cases hnumeric : p.field.isNumeric with
      | true =>
        exact ⟨_, .digits hnumeric hempty fun c hc =>
          Text.isDecimalDigit_of_isDigit (isDigit_of_mem_rendered hnumeric hc)⟩
      | false => exact ⟨_, .name hnumeric hempty (slash_not_mem_rendered t refs song bypass s hbypass)⟩

/-- **A group reads what is written for it.** -/
theorem reads_renderGroup (h : ∀ p ∈ g.placeholders,
      p.field ≠ .bypass ∧ (p.field.isNumeric = true ∨ t.rendered refs song bypass s p.field ≠ []))
    (hmissing : t.isWritten refs song bypass s g = false →
      g.optional = true ∨ ∀ segment ∈ g.segments, ∃ p, segment = .placeholder p) :
    ∃ captures, g.Reads (t.renderGroup refs song bypass s g) captures := by
  have hsegments : ∃ captures, InOrder Segment.Reads g.segments
      (g.segments.flatMap (t.renderSegment refs song bypass s)) captures :=
    InOrder.of_forall fun segment hsegment => reads_renderSegment fun p hp =>
      h p (List.mem_filterMap.2 ⟨segment, hsegment, hp⟩)
  obtain ⟨captures, hpresent⟩ := hsegments
  cases hwritten : t.isWritten refs song bypass s g with
  | true => exact ⟨captures, by simpa [renderGroup, hwritten] using .present hpresent⟩
  | false =>
    rw [renderGroup, hwritten, if_neg Bool.false_ne_true]
    rcases hmissing hwritten with hoptional | hbare
    · exact ⟨_, .absent hoptional⟩
    · have hnothing : g.segments.flatMap (t.renderSegment refs song bypass s) = [] := by
        refine List.flatMap_eq_nil_iff.2 fun segment hsegment => ?_
        obtain ⟨p, rfl⟩ := hbare segment hsegment
        exact (isWritten_eq_false_iff.1 hwritten).2 p (List.mem_filterMap.2 ⟨_, hsegment, rfl⟩)
      exact ⟨captures, hnothing ▸ .present hpresent⟩

/-- What the groups of a template write ends in what they read. -/
theorem reads_renderGroups {groups : List Group} (hfirst : ∀ g ∈ groups.head?, g.IsMarked true)
    (hothers : ∀ g ∈ groups.tail, g.IsMarked false)
    (hbypass : ∀ p ∈ groups.flatMap Group.placeholders, p.field ≠ .bypass)
    (hfilled : ∀ p ∈ groups.flatMap Group.placeholders, p.optional = false →
      t.rendered refs song bypass s p.field ≠ [])
    (hmissing : ∀ g ∈ groups, t.isWritten refs song bypass s g = false →
      g.optional = true ∨ ∀ segment ∈ g.segments, ∃ p, segment = .placeholder p) :
    ∃ front body captures, groups.flatMap (t.renderGroup refs song bypass s) = front ++ body ∧
      InOrder Group.Reads groups body captures := by
  have hreads : ∀ g ∈ groups, (∀ p ∈ g.placeholders, p.optional = p.field.isNumeric) →
      ∃ captures, g.Reads (t.renderGroup refs song bypass s g) captures := by
    intro g hg hoptional
    refine reads_renderGroup (fun p hp => ?_) (hmissing g hg)
    have hmem : p ∈ groups.flatMap Group.placeholders := List.mem_flatMap.2 ⟨g, hg, hp⟩
    refine ⟨hbypass p hmem, ?_⟩
    cases hnumeric : p.field.isNumeric with
    | true => exact .inl rfl
    | false => exact .inr (hfilled p hmem ((hoptional p hp).trans hnumeric))
  cases groups with
  | nil => exact ⟨[], [], [], rfl, .nil⟩
  | cons g rest =>
    have hrest : ∀ g' ∈ rest, ∃ captures, g'.Reads (t.renderGroup refs song bypass s g') captures := by
      intro g' hg
      refine hreads g' (List.mem_cons_of_mem _ hg) fun p hp => ?_
      rw [(hothers g' hg).placeholders p hp]
      cases hoptional : g'.optional with
      | true => exact ((hothers g' hg).isNumeric hoptional hp).symm
      | false => rfl
    obtain ⟨captures, hrest⟩ := InOrder.of_forall hrest
    by_cases hoptional : g.optional = true
    · -- What the first group writes need not be read: it stands before what is found.
      exact ⟨_, _, _, List.flatMap_cons, .cons (.absent hoptional) hrest⟩
    · have hg : ∃ captures, g.Reads (t.renderGroup refs song bypass s g) captures := by
        refine hreads g (List.mem_cons_self ..) fun p hp => ?_
        rw [(hfirst g rfl).placeholders p hp, Bool.eq_false_iff.2 hoptional]
        rfl
      obtain ⟨captures', hg⟩ := hg
      exact ⟨[], _, _, List.flatMap_cons, .cons hg hrest⟩

end

/-- **A template reads the paths that it writes** for songs that fill the placeholders that are
    not optional: what is left out is optional just if it stands in braces, and if nothing
    but placeholders is left out elsewhere, the path is one that the template reads. -/
theorem reads_rendered (template : String) (hbypass : (compile template).mentions .bypass = false)
    (refs : ReferenceData) (song : Song) (bypass : Option String) (s : Sanitizer) (ext : String)
    (hext : song.extension? = some ext) (hne : ext ≠ "") (halphanum : ∀ c ∈ ext.toList, c.isAlphanum)
    (hfilled : ∀ p ∈ (compile template).placeholders, p.optional = false →
      (compile template).rendered refs song bypass s p.field ≠ []) :
    (∀ g ∈ (compile template).groups, (compile template).isWritten refs song bypass s g = false →
      (g.optional = true ↔ g.braced = true)) ∧
    ((∀ g ∈ (compile template).groups, (compile template).isWritten refs song bypass s g = false →
        g.braced = true ∨ ∀ segment ∈ g.segments, ∃ p, segment = .placeholder p) →
      ((compile template).read? ((compile template).render refs song bypass s)).isSome = true) := by
  obtain ⟨hfirst, hothers⟩ := isMarked_groups template
  have hmarked : ∀ g ∈ (compile template).groups, ∃ first, g.IsMarked first := by
    intro g hg
    cases hgroups : (compile template).groups with
    | nil => simp [hgroups] at hg
    | cons first rest =>
      rw [hgroups] at hg hfirst hothers
      rcases List.mem_cons.1 hg with rfl | hg
      · exact ⟨true, hfirst g rfl⟩
      · exact ⟨false, hothers g hg⟩
  have hagree : ∀ g ∈ (compile template).groups,
      (compile template).isWritten refs song bypass s g = false →
        (g.optional = true ↔ g.braced = true) := by
    intro g hg hwritten
    obtain ⟨first, hmarked⟩ := hmarked g hg
    exact hmarked.optional_iff_braced
      (fun p hp => hfilled p (List.mem_flatMap.2 ⟨g, hg, hp⟩)) hwritten
  refine ⟨hagree, fun hplain => ?_⟩
  have hextension := isExtension_renderExtension hext hne halphanum
  have hnone : ∀ p ∈ (compile template).placeholders, p.field ≠ .bypass := fun p hp heq => by
    have hmentions : (compile template).mentions .bypass = true :=
      List.any_eq_true.2 ⟨p, hp, by simp [heq]⟩
    rw [hbypass] at hmentions
    cases hmentions
  obtain ⟨front, body, captures, hpath, hread⟩ := reads_renderGroups hfirst hothers hnone hfilled
    fun g hg hwritten => (hplain g hg hwritten).imp_left (hagree g hg hwritten).2
  refine read?_isSome_iff.2 ⟨captures, front, body, renderExtension song, ?_, hread, hextension⟩
  rw [render, String.toList_ofList, renderGroups, hpath, List.append_assoc]

/-- The numbers of the disc and the track are left out, and neither is missed. -/
theorem reads_rendered_noNumbers :
    let t := compile "%DISC%\x7b%TRACKNUMBER% - \x7d\x7b%TITLE%\x7d"
    let song := (Song.new "a.mp3" "").set .title "t"
    t.render {} song none ⟨.linux, 255⟩ = "t.mp3" ∧
      (t.read? (t.render {} song none ⟨.linux, 255⟩)).isSome = true := by
  intro t song
  have hgroups : t = ⟨[⟨[.placeholder ⟨.disc, true, 1⟩], false, false⟩,
      ⟨[.placeholder ⟨.trackNumber, true, 2⟩, .literal [' ', '-', ' ']], true, true⟩,
      ⟨[.placeholder ⟨.title, false, 3⟩], true, false⟩]⟩ := by
    unfold t
    cbv
  have hfilled : ∀ p ∈ t.placeholders, p.optional = false →
      t.rendered {} song none ⟨.linux, 255⟩ p.field ≠ [] := by
    rw [hgroups]
    decide
  have hread := (reads_rendered "%DISC%\x7b%TRACKNUMBER% - \x7d\x7b%TITLE%\x7d" (by cbv) {} song none
    ⟨.linux, 255⟩ "mp3" (by decide) (by decide) (by simp) hfilled).2
  refine ⟨by unfold t song; cbv, hread fun g hg hwritten => ?_⟩
  change g ∈ t.groups at hg
  rw [hgroups] at hg
  simp only [List.mem_cons, List.not_mem_nil, or_false] at hg
  rcases hg with rfl | rfl | rfl
  · exact .inr (by simp)
  · exact .inl rfl
  · exact .inl rfl

/-- Outside of braces, the text around a number is looked for where it was left out. -/
theorem plain_number_unread :
    let t := compile "%TRACKNUMBER% - \x7b%TITLE%\x7d"
    let song := (Song.new "a.mp3" "").set .title "t"
    t.mentions .bypass = false ∧ song.extension? = some "mp3" ∧
      (∀ p ∈ t.placeholders, p.optional = false → t.rendered {} song none ⟨.linux, 255⟩ p.field ≠ []) ∧
      t.render {} song none ⟨.linux, 255⟩ = "t.mp3" ∧
      t.read? (t.render {} song none ⟨.linux, 255⟩) = none := by
  intro t song
  have hgroups : t = ⟨[⟨[.placeholder ⟨.trackNumber, true, 1⟩, .literal [' ', '-', ' ']], false, false⟩,
      ⟨[.placeholder ⟨.title, false, 2⟩], true, false⟩]⟩ := by
    unfold t
    cbv
  have hpath : t.render {} song none ⟨.linux, 255⟩ = "t.mp3" := by
    unfold t song
    cbv
  rw [hpath, hgroups]
  refine ⟨by decide, by decide, by decide, rfl, ?_⟩
  decide

end SongLibrary.Template
