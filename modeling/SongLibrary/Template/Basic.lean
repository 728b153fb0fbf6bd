/-
  Path templates.

  A template is text with placeholders `%NAME%` and groups in braces.  Braces
  separate groups; text outside of them forms groups that are not braced.  A
  `%` that opens no placeholder of a known name is literal.

  * `Template.compile` reads a template.  Every text is one;
  * a braced group is optional if it may be missing from a path that the
    template describes: the first group when it names a dance or a genre, and
    any group whose placeholders are all numbers;
  * `Template.pattern` is the pattern that reads a path; capture `n` of it
    belongs to the placeholder with that number (`Placeholder.capture`).
-/
import SongLibrary.Template.Field
import SongLibrary.Template.Pattern

namespace SongLibrary

namespace Template

/-- A placeholder of a template. -/
structure Placeholder where
  field : Field
  /-- Whether it may be missing from a path. -/
  optional : Bool
  /-- The number of its capture, from one. -/
  capture : Nat
  deriving DecidableEq, Repr

/-- A part of a group. -/
inductive Segment where
  | literal (text : List Char)
  | placeholder (p : Placeholder)
  deriving DecidableEq, Repr

/-- A part of a template that a path has as a whole. -/
structure Group where
  segments : List Segment
  /-- Whether it stands in braces. -/
  braced : Bool
  /-- Whether it may be missing from a path. -/
  optional : Bool
  deriving DecidableEq, Repr

/-- The placeholder a segment is. -/
def Segment.placeholder? : Segment → Option Placeholder
  | literal _ => none
  | placeholder p => some p

/-- The piece of a pattern that a segment is read with. -/
def Segment.piece : Segment → Piece
  | literal text => .literal text
  | placeholder p => if p.field.isNumeric then .digits else .name

/-- The placeholders of a group, in order. -/
def Group.placeholders (g : Group) : List Placeholder :=
  g.segments.filterMap Segment.placeholder?

/-- The block of a pattern that a group is read with. -/
def Group.block (g : Group) : Block :=
  ⟨g.segments.map Segment.piece, g.optional⟩

end Template

/-- A path template. -/
structure Template where
  groups : List Template.Group
  deriving DecidableEq, Repr

namespace Template

/-- The placeholders of a template, in order. -/
def placeholders (t : Template) : List Placeholder :=
  t.groups.flatMap Group.placeholders

/-- Whether a template has a placeholder for a field. -/
def mentions (t : Template) (field : Field) : Bool :=
  t.placeholders.any (·.field == field)

/-- The tags a template has placeholders for, each once, in order. -/
def tagKeys (t : Template) : List TagKey :=
  (t.placeholders.filterMap (·.field.tagKey?)).eraseDups

/-- The pattern that reads the paths of a template. -/
def pattern (t : Template) : Pattern :=
  t.groups.map Group.block

/-! ## Reading a template -/

/-- A group to be, unless its text is empty. -/
def groupText (text : List Char) (braced : Bool) : List (List Char × Bool) :=
  if text.isEmpty then [] else [(text, braced)]

/-- The text before the first brace, and the groups after it with whether each
    stands after an opening brace. -/
def splitGroups : List Char → List Char × List (List Char × Bool)
  | [] => ([], [])
  | c :: rest =>
    let (text, groups) := splitGroups rest
    if c = '\x7b' ∨ c = '\x7d' then ([], groupText text (c = '\x7b') ++ groups)
    else (c :: text, groups)

/-- The texts of the groups of a template, with whether each stands in braces. -/
def groupTexts (template : List Char) : List (List Char × Bool) :=
  let (text, groups) := splitGroups template
  groupText text false ++ groups

/-- A part of the text of a group. -/
inductive Token where
  | literal (text : List Char)
  | field (f : Field)
  deriving DecidableEq, Repr

/-- The field a token names. -/
def Token.field? : Token → Option Field
  | literal _ => none
  | field f => some f

/-- Tokens with a literal character before them. -/
def consCharacter (c : Char) : List Token → List Token
  | .literal text :: tokens => .literal (c :: text) :: tokens
  | tokens => .literal [c] :: tokens

/-- The known field whose name ends at the next percent sign, and the text after
    that sign. -/
def fieldBefore? (text : List Char) : Option (Field × List Char) :=
  match text.dropWhile (· != '%') with
  | [] => none
  | _ :: rest => (Field.ofName? (String.ofList (text.takeWhile (· != '%')))).map (·, rest)

theorem length_of_fieldBefore? {text rest : List Char} {f : Field}
    (h : fieldBefore? text = some (f, rest)) : rest.length < text.length := by
  have hle : (text.dropWhile (· != '%')).length ≤ text.length :=
    (List.dropWhile_suffix _).sublist.length_le
  unfold fieldBefore? at h
  split at h
  · simp at h
  · next c r hd =>
    simp only [Option.map_eq_some_iff, Prod.mk.injEq] at h
    obtain ⟨_, _, _, rfl⟩ := h
    simp only [hd, List.length_cons] at hle
    omega

/-- The tokens of the text of a group. -/
def tokens : List Char → List Token
  | [] => []
  | c :: rest =>
    if c = '%' then
      match _h : fieldBefore? rest with
      | some (f, after) => .field f :: tokens after
      | none => consCharacter c (tokens rest)
    else consCharacter c (tokens rest)
termination_by text => text.length
decreasing_by
  · have := length_of_fieldBefore? _h; simp only [List.length_cons]; omega
  · simp
  · simp

/-- Whether a braced group with the given fields may be missing from a path. -/
def mayBeMissing (first : Bool) (fields : List Field) : Bool :=
  !fields.isEmpty &&
    ((first && (fields.contains .dance || fields.contains .genre)) || fields.all Field.isNumeric)

/-- The segments of tokens, their captures numbered from `next` on. -/
def segmentsOf (optional : Bool) : Nat → List Token → List Segment
  | _, [] => []
  | next, .literal text :: rest => .literal text :: segmentsOf optional next rest
  | next, .field f :: rest =>
    .placeholder ⟨f, optional || f.isNumeric, next⟩ :: segmentsOf optional (next + 1) rest

/-- The groups of group texts, their captures numbered from `next` on. -/
def groupsOf (first : Bool) : Nat → List (List Char × Bool) → List Group
  | _, [] => []
  | next, (text, braced) :: rest =>
    let parts := tokens text
    let fields := parts.filterMap Token.field?
    let optional := braced && mayBeMissing first fields
    ⟨segmentsOf optional next parts, braced, optional⟩ ::
      groupsOf false (next + fields.length) rest

/-- The template a text is. -/
def compile (template : String) : Template :=
  ⟨groupsOf true 1 (groupTexts template.toList)⟩

end Template

end SongLibrary
