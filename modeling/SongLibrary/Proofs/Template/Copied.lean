/-
  What is copied into the path of a song.

  The literal text of a template, the piece of path that `%BYPASS%` stands for and the
  extension of the file stand in a path as they are (`Group.copied`).  All else is cleaned or
  a number, so the characters that the platform forbids are those of what is copied, in their
  order, whatever the tags of the song (`forbidden_are_copied`).  A slash is one of them: a
  song has as many directories above it as its template says.
-/
import SongLibrary.Proofs.Template.Parts

namespace SongLibrary.Template

/-- The literal text of a segment. -/
def Segment.literalText : Segment → List Char
  | literal text => text
  | placeholder _ => []

/-- The literal text of a group. -/
def Group.literalText (g : Group) : List Char :=
  g.segments.flatMap Segment.literalText

/-- What a segment copies into a path. -/
def Segment.copied (bypass : Option String) : Segment → List Char
  | literal text => text
  | placeholder p => if p.field = .bypass then (bypass.getD "").toList else []

/-- What a group copies into a path. -/
def Group.copied (bypass : Option String) (g : Group) : List Char :=
  g.segments.flatMap (Segment.copied bypass)

variable {t : Template} {refs : ReferenceData} {song : Song} {bypass : Option String} {s : Sanitizer}

variable (t refs song bypass s) in
/-- The groups of a template that are written for a song. -/
def writtenGroups : List Group :=
  t.groups.filter (t.isWritten refs song bypass s)

/-- What is written for a segment has the forbidden characters of what it copies. -/
theorem filter_renderSegment (segment : Segment) :
    (t.renderSegment refs song bypass s segment).filter s.platform.forbids =
      (segment.copied bypass).filter s.platform.forbids := by
  cases segment with
  | literal text => rfl
  | placeholder p =>
    by_cases hbypass : p.field = .bypass
    · rw [renderSegment, hbypass, Segment.copied, if_pos hbypass]
      rfl
    · rw [Segment.copied, if_neg hbypass, List.filter_nil, List.filter_eq_nil_iff]
      intro c hc
      simp [forbids_of_mem_rendered hbypass hc]

/-- The forbidden characters of a path are those of what is copied into it. -/
theorem filter_render : (t.render refs song bypass s).toList.filter s.platform.forbids =
    ((t.writtenGroups refs song bypass s).flatMap (Group.copied bypass) ++
      renderExtension song).filter s.platform.forbids := by
  have hgroup : ∀ g : Group,
      (g.segments.flatMap (t.renderSegment refs song bypass s)).filter s.platform.forbids =
        (g.copied bypass).filter s.platform.forbids := by
    intro g
    simp only [Group.copied, List.filter_flatMap, filter_renderSegment]
  rw [render, String.toList_ofList, renderGroups_eq, List.filter_append, List.filter_append,
    List.filter_flatMap, List.filter_flatMap]
  simp only [hgroup]
  rfl

/-- A group that does not ask for a piece of path copies its literal text. -/
theorem copied_eq_literalText {g : Group} (h : ∀ p ∈ g.placeholders, p.field ≠ .bypass) :
    g.copied bypass = g.literalText := by
  have hsegment : ∀ segment ∈ g.segments, segment.copied bypass = segment.literalText := by
    intro segment hsegment
    cases segment with
    | literal text => rfl
    | placeholder p => exact if_neg (h p (List.mem_filterMap.2 ⟨_, hsegment, rfl⟩))
  rw [Group.copied, Group.literalText, List.flatMap_def, List.map_congr_left hsegment,
    ← List.flatMap_def]

theorem flatMap_copied (h : t.mentions .bypass = false) :
    (t.writtenGroups refs song bypass s).flatMap (Group.copied bypass) =
      (t.writtenGroups refs song bypass s).flatMap Group.literalText := by
  have hgroup : ∀ g ∈ t.writtenGroups refs song bypass s, g.copied bypass = g.literalText := by
    intro g hg
    refine copied_eq_literalText fun p hp => ne_bypass_of_mentions h ?_
    exact List.mem_flatMap.2 ⟨g, (List.mem_filter.1 hg).1, hp⟩
  rw [List.flatMap_def, List.map_congr_left hgroup, ← List.flatMap_def]

/-- A path has the slashes of the literal text that is written. -/
theorem count_slash_render (h : t.mentions .bypass = false) :
    (t.render refs song bypass s).toList.count '/' =
      ((t.writtenGroups refs song bypass s).flatMap Group.literalText).count '/' := by
  have hslash := s.platform.forbids_slash
  rw [← List.count_filter hslash, filter_render, List.count_filter hslash, List.count_append,
    flatMap_copied h, List.count_eq_zero.2 slash_not_mem_renderExtension, Nat.add_zero]

/-- **The forbidden characters of a path are copied into it.**  What is written for the tags of
    a song has none of them, so they are those of the literal text, of the piece of path that
    is written as it is and of the extension, in this order; and where no such piece is asked
    for, the slashes are those of the literal text. -/
theorem forbidden_are_copied (t : Template) (refs : ReferenceData) (song : Song)
    (bypass : Option String) (s : Sanitizer) :
    (∀ field ≠ .bypass, ∀ c ∈ t.rendered refs song bypass s field, s.platform.forbids c = false) ∧
    (t.render refs song bypass s).toList.filter s.platform.forbids =
      ((t.writtenGroups refs song bypass s).flatMap (Group.copied bypass) ++
        renderExtension song).filter s.platform.forbids ∧
    (t.mentions .bypass = false → (t.render refs song bypass s).toList.count '/' =
      ((t.writtenGroups refs song bypass s).flatMap Group.literalText).count '/') := by
  refine ⟨?_, filter_render, count_slash_render⟩
  intro field hfield c hc
  exact forbids_of_mem_rendered hfield hc

/-- A song whose tags would lead into other directories. -/
def slashed : Song :=
  ((Song.new "in/a.mp3" "").set .albumArtist "AC/DC").set .title "../a:b"

/-- The slash of the template is the only one of the path. -/
theorem forbidden_are_copied_slashed :
    let t := compile "%ALBUMARTIST%/%TITLE%"
    t.mentions .bypass = false ∧ t.render {} slashed none ⟨.linux, 255⟩ = "ACDC/..ab.mp3" ∧
      (t.render {} slashed none ⟨.linux, 255⟩).toList.count '/' = 1 := by
  intro t
  have hbypass : t.mentions .bypass = false := by decide +kernel
  obtain ⟨-, -, hcount⟩ := forbidden_are_copied t {} slashed none ⟨.linux, 255⟩
  refine ⟨hbypass, by decide +kernel, (hcount hbypass).trans ?_⟩
  decide +kernel

end SongLibrary.Template
