/-
  The grammar of the paths that a template describes.

  * `Template.Reads` is the grammar: a path is read that ends in what the groups of the
    template read one after the other, and an extension;
  * `Pattern.Reads` is the same for patterns, and the pattern of a template reads what the
    template reads (`pattern_reads_iff`);
  * the captures of a template are numbered in order (`captures_eq`), so what a placeholder
    has captured stands at its place (`captured?_eq`).
-/
import Mathlib.Algebra.Ring.Nat
import SongLibrary.Template.Reading

namespace SongLibrary.Template

/-! ## The grammar -/

/-- What the members of a list read one after the other. -/
inductive InOrder {α : Type} (reads : α → List Char → Captures → Prop) :
    List α → List Char → Captures → Prop where
  | nil : InOrder reads [] [] []
  | cons {a : α} {rest : List α} {text text' : List Char} {captures captures' : Captures}
      (h : reads a text captures) (hrest : InOrder reads rest text' captures') :
      InOrder reads (a :: rest) (text ++ text') (captures ++ captures')

/-- What a segment reads: literal text itself, a number any decimal digits, another
    placeholder what is not empty and has no slash. -/
inductive Segment.Reads : Segment → List Char → Captures → Prop where
  | literal (text : List Char) : Reads (.literal text) text []
  | name {p : Placeholder} {text : List Char} (hfield : p.field.isNumeric = false)
      (hne : text ≠ []) (h : '/' ∉ text) : Reads (.placeholder p) text [some text]
  | digits {p : Placeholder} {text : List Char} (hfield : p.field.isNumeric = true)
      (hne : text ≠ []) (h : ∀ c ∈ text, Text.isDecimalDigit c) :
      Reads (.placeholder p) text [some text]
  | noDigits {p : Placeholder} (hfield : p.field.isNumeric = true) : Reads (.placeholder p) [] [none]

/-- What a group reads: what its segments read, or nothing if it may be missing. -/
inductive Group.Reads (g : Group) : List Char → Captures → Prop where
  | present {text : List Char} {captures : Captures}
      (h : InOrder Segment.Reads g.segments text captures) : Reads g text captures
  | absent (h : g.optional) : Reads g [] (List.replicate g.placeholders.length none)

/-- An extension: a dot, and letters and digits after it. -/
def IsExtension (text : List Char) : Prop :=
  ∃ extension, text = '.' :: extension ∧ extension ≠ [] ∧ ∀ c ∈ extension, c.isAlphanum

/-- **The paths that a template describes**, with what is captured in them. -/
def Reads (t : Template) (path : String) (captures : Captures) : Prop :=
  ∃ front body extension, path.toList = front ++ (body ++ extension) ∧
    InOrder Group.Reads t.groups body captures ∧ IsExtension extension

/-! ## The grammar of patterns -/

/-- What a piece of a pattern reads. -/
inductive Piece.Reads : Piece → List Char → Captures → Prop where
  | literal (text : List Char) : Reads (.literal text) text []
  | name {text : List Char} (hne : text ≠ []) (h : '/' ∉ text) : Reads .name text [some text]
  | digits {text : List Char} (hne : text ≠ []) (h : ∀ c ∈ text, Text.isDecimalDigit c) :
      Reads .digits text [some text]
  | noDigits : Reads .digits [] [none]

/-- What a block of a pattern reads. -/
inductive Block.Reads (b : Block) : List Char → Captures → Prop where
  | present {text : List Char} {captures : Captures}
      (h : InOrder Piece.Reads b.pieces text captures) : Reads b text captures
  | absent (h : b.optional) : Reads b [] (List.replicate b.captureCount none)

/-- What a pattern reads at the end of a text. -/
def Pattern.Reads (pattern : Pattern) (path : List Char) (captures : Captures) : Prop :=
  ∃ front body extension, path = front ++ (body ++ extension) ∧
    InOrder Block.Reads pattern body captures ∧ IsExtension extension

theorem InOrder.map_iff {α β : Type} {reads : β → List Char → Captures → Prop} {f : α → β}
    {list : List α} {text : List Char} {captures : Captures} :
    InOrder reads (list.map f) text captures ↔ InOrder (fun a => reads (f a)) list text captures := by
  constructor
  · intro h
    induction list generalizing text captures with
    | nil =>
      cases h
      exact .nil
    | cons a rest ih =>
      cases h with
      | cons h hrest => exact .cons h (ih hrest)
  · intro h
    induction h with
    | nil => exact .nil
    | cons h _ ih => exact .cons h ih

theorem InOrder.congr {α : Type} {reads reads' : α → List Char → Captures → Prop}
    (h : ∀ a text captures, reads a text captures ↔ reads' a text captures) {list : List α}
    {text : List Char} {captures : Captures} :
    InOrder reads list text captures ↔ InOrder reads' list text captures := by
  have hsame : reads = reads' := by
    funext a text captures
    exact propext (h a text captures)
  rw [hsame]

theorem Segment.piece_reads_iff (segment : Segment) (text : List Char) (captures : Captures) :
    segment.piece.Reads text captures ↔ segment.Reads text captures := by
  cases segment with
  | literal chars =>
    constructor <;> intro h <;> cases h <;> exact .literal _
  | placeholder p =>
    cases hfield : p.field.isNumeric with
    | true =>
      rw [show (Segment.placeholder p).piece = .digits from if_pos hfield]
      constructor
      · intro h
        cases h with
        | digits hne h => exact .digits hfield hne h
        | noDigits => exact .noDigits hfield
      · intro h
        cases h with
        | name hname _ _ =>
          rw [hname] at hfield
          cases hfield
        | digits _ hne h => exact .digits hne h
        | noDigits _ => exact .noDigits
    | false =>
      rw [show (Segment.placeholder p).piece = .name from if_neg (by simp [hfield])]
      constructor
      · intro h
        cases h with
        | name hne h => exact .name hfield hne h
      · intro h
        cases h with
        | name _ hne h => exact .name hne h
        | digits hnumber _ _ =>
          rw [hnumber] at hfield
          cases hfield
        | noDigits hnumber =>
          rw [hnumber] at hfield
          cases hfield

theorem Segment.captureCount_piece (segment : Segment) :
    segment.piece.captureCount = segment.placeholder?.toList.length := by
  cases segment with
  | literal _ => rfl
  | placeholder p =>
    change (if p.field.isNumeric then Piece.digits else .name).captureCount = 1
    split <;> rfl

/-- The placeholders of a group are those of its segments. -/
theorem Group.length_placeholders (g : Group) : g.placeholders.length =
    (g.segments.map fun segment => segment.placeholder?.toList.length).sum := by
  rw [placeholders]
  generalize g.segments = segments
  induction segments with
  | nil => rfl
  | cons segment rest ih =>
    rw [List.filterMap_cons, List.map_cons, List.sum_cons, ← ih]
    cases segment.placeholder? with
    | none => simp
    | some p => simp [Nat.add_comm]

/-- The captures of a block are those of its pieces. -/
theorem Block.captureCount_eq (b : Block) :
    b.captureCount = (b.pieces.map Piece.captureCount).sum := by
  have hsum : ∀ (pieces : List Piece) (n : Nat),
      pieces.foldl (fun count piece => count + piece.captureCount) n =
        n + (pieces.map Piece.captureCount).sum := by
    intro pieces
    induction pieces with
    | nil => simp
    | cons piece rest ih =>
      intro n
      rw [List.foldl_cons, ih, List.map_cons, List.sum_cons, Nat.add_assoc]
  rw [captureCount, hsum, Nat.zero_add]

/-- A block has a capture for each placeholder of its group. -/
theorem Group.captureCount_block (g : Group) : g.block.captureCount = g.placeholders.length := by
  rw [Block.captureCount_eq, Group.block, List.map_map, g.length_placeholders]
  exact congrArg List.sum (List.map_congr_left fun segment _ => segment.captureCount_piece)

/-- The captures of the pattern of a template are those of its placeholders. -/
theorem captureCount_pattern (t : Template) :
    (t.pattern.map Block.captureCount).sum = t.placeholders.length := by
  rw [pattern, List.map_map, placeholders, List.length_flatMap]
  exact congrArg List.sum (List.map_congr_left fun g _ => g.captureCount_block)

theorem Group.block_reads_iff (g : Group) (text : List Char) (captures : Captures) :
    g.block.Reads text captures ↔ g.Reads text captures := by
  have hpieces : ∀ {text captures}, InOrder Piece.Reads g.block.pieces text captures ↔
      InOrder Segment.Reads g.segments text captures :=
    InOrder.map_iff.trans (InOrder.congr Segment.piece_reads_iff)
  constructor
  · intro h
    cases h with
    | present h => exact .present (hpieces.1 h)
    | absent h =>
      rw [g.captureCount_block]
      exact .absent h
  · intro h
    cases h with
    | present h => exact .present (hpieces.2 h)
    | absent h =>
      rw [← g.captureCount_block]
      exact .absent h

/-- **The pattern of a template reads what the template reads.** -/
theorem pattern_reads_iff {t : Template} {path : String} {captures : Captures} :
    t.pattern.Reads path.toList captures ↔ t.Reads path captures := by
  have hblocks : ∀ {body}, InOrder Block.Reads t.pattern body captures ↔
      InOrder Group.Reads t.groups body captures :=
    InOrder.map_iff.trans (InOrder.congr Group.block_reads_iff)
  constructor
  · rintro ⟨front, body, extension, hpath, h, hextension⟩
    exact ⟨front, body, extension, hpath, hblocks.1 h, hextension⟩
  · rintro ⟨front, body, extension, hpath, h, hextension⟩
    exact ⟨front, body, extension, hpath, hblocks.2 h, hextension⟩

/-! ## The number of captures -/

theorem InOrder.length_captures {α : Type} {reads : α → List Char → Captures → Prop}
    {count : α → Nat} (h : ∀ a text captures, reads a text captures → captures.length = count a)
    {list : List α} {text : List Char} {captures : Captures}
    (hreads : InOrder reads list text captures) : captures.length = (list.map count).sum := by
  induction hreads with
  | nil => rfl
  | cons ha _ ih => rw [List.length_append, List.map_cons, List.sum_cons, h _ _ _ ha, ih]

theorem Piece.Reads.length_captures {piece : Piece} {text : List Char} {captures : Captures}
    (h : piece.Reads text captures) : captures.length = piece.captureCount := by
  cases h <;> rfl

theorem Block.Reads.length_captures {b : Block} {text : List Char} {captures : Captures}
    (h : b.Reads text captures) : captures.length = b.captureCount := by
  cases h with
  | present h =>
    rw [b.captureCount_eq]
    exact h.length_captures fun _ _ _ h => h.length_captures
  | absent _ => exact List.length_replicate

theorem Segment.Reads.length_captures {segment : Segment} {text : List Char} {captures : Captures}
    (h : segment.Reads text captures) :
    captures.length = segment.placeholder?.toList.length := by
  cases h <;> rfl

theorem Group.Reads.length_captures {g : Group} {text : List Char} {captures : Captures}
    (h : g.Reads text captures) : captures.length = g.placeholders.length := by
  cases h with
  | present h =>
    rw [g.length_placeholders]
    exact h.length_captures fun _ _ _ h => h.length_captures
  | absent _ => exact List.length_replicate

/-- There is a capture for each placeholder. -/
theorem Reads.length_captures {t : Template} {path : String} {captures : Captures}
    (h : t.Reads path captures) : captures.length = t.placeholders.length := by
  obtain ⟨_, _, _, -, h, -⟩ := h
  rw [placeholders, List.length_flatMap]
  exact h.length_captures fun _ _ _ h => h.length_captures

/-! ## The numbers of captures -/

theorem captures_segmentsOf (optional : Bool) (next : Nat) (parts : List Token) :
    ((segmentsOf optional next parts).filterMap Segment.placeholder?).map (·.capture) =
      List.range' next (parts.filterMap Token.field?).length := by
  induction parts generalizing next with
  | nil => rfl
  | cons part rest ih =>
    cases part with
    | literal text => exact ih next
    | field f =>
      simp only [segmentsOf, List.filterMap_cons, Segment.placeholder?, Token.field?, List.map_cons,
        List.length_cons, List.range'_succ, ih (next + 1)]

theorem captures_groupsOf (first : Bool) (next : Nat) (texts : List (List Char × Bool)) :
    ((groupsOf first next texts).flatMap Group.placeholders).map (·.capture) =
      List.range' next ((groupsOf first next texts).flatMap Group.placeholders).length := by
  induction texts generalizing first next with
  | nil => rfl
  | cons text rest ih =>
    obtain ⟨text, braced⟩ := text
    have hgroup := captures_segmentsOf (braced && mayBeMissing first ((tokens text).filterMap Token.field?))
      next (tokens text)
    have hlength := congrArg List.length hgroup
    rw [List.length_map, List.length_range'] at hlength
    simp only [groupsOf, List.flatMap_cons, Group.placeholders, List.map_append, List.length_append]
    rw [hgroup, hlength, ih, List.range'_append_1]

/-- **Captures are numbered from one on, in the order of the placeholders.** -/
theorem captures_eq (template : String) :
    (compile template).placeholders.map (·.capture) =
      List.range' 1 (compile template).placeholders.length :=
  captures_groupsOf true 1 _

/-- What a placeholder has captured stands at its place. -/
theorem captured?_eq {template : String} {i : Nat} (h : i < (compile template).placeholders.length)
    (captures : Captures) :
    ((compile template).placeholders[i]).captured? captures = captures[i]?.join := by
  have hcapture : ((compile template).placeholders[i]).capture = 1 + i := by
    have hget := congrArg (·[i]?) (captures_eq template)
    simpa [h] using hget
  rw [Placeholder.captured?, hcapture, Nat.add_sub_cancel_left]

end SongLibrary.Template
