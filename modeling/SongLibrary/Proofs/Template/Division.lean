/-
  The groups that a template is divided into.

  `IsDivision` says what groups a template has: they stand for its text without the braces, one
  ends and the next one begins just where a brace stands between texts, a group is braced just
  if the last brace before it opens, and its segments are those that come of reading its text
  (`AreRead`).

  * `textsBetween_append`: a brace separates the texts before it from those after it;
  * `isBoundary_groupTexts_iff` and `exists_place` say where the texts of the groups stand;
  * `eq_of_isBoundary_iff`: texts are determined by their boundaries;
  * `compile_divides` is the main statement: a template is compiled to a division of its text,
    and there is no other.
-/
import SongLibrary.Proofs.Template.Tokens

namespace SongLibrary.Template

/-! ## Braces -/

/-- Braces separate groups. -/
def isBrace (c : Char) : Bool :=
  c == '\x7b' || c == '\x7d'

/-- A text without its braces. -/
def withoutBraces (text : List Char) : List Char :=
  text.filter (!isBrace ·)

/-- The last brace of a text. -/
def lastBrace? (text : List Char) : Option Char :=
  text.reverse.find? isBrace

section

variable {c : Char}

theorem withoutBraces_append (text text' : List Char) :
    withoutBraces (text ++ text') = withoutBraces text ++ withoutBraces text' :=
  List.filter_append ..

theorem withoutBraces_cons_of_brace (hc : isBrace c) (text : List Char) :
    withoutBraces (c :: text) = withoutBraces text :=
  List.filter_cons_of_neg (by simp [hc])

theorem withoutBraces_cons_of_not (hc : isBrace c = false) (text : List Char) :
    withoutBraces (c :: text) = c :: withoutBraces text :=
  List.filter_cons_of_pos (by simp [hc])

theorem withoutBraces_concat (hc : isBrace c) (text : List Char) :
    withoutBraces (text ++ [c]) = withoutBraces text := by
  rw [withoutBraces_append, withoutBraces_cons_of_brace hc]
  exact List.append_nil _

theorem isBrace_of_mem_withoutBraces {text : List Char} (h : c ∈ withoutBraces text) :
    isBrace c = false := by
  simpa using (List.mem_filter.1 h).2

theorem lastBrace?_concat (hc : isBrace c) (text : List Char) :
    lastBrace? (text ++ [c]) = some c := by
  simp [lastBrace?, hc]

end

/-! ## The texts between braces -/

section

variable {c : Char} {text : List Char} {braced : Bool} {piece : List Char × Bool}
  {front back : List (List Char × Bool)}

/-- The texts between the braces of a text, with whether each stands after an opening brace.
    Of the first one this is given. -/
def textsBetween (braced : Bool) (text : List Char) : List (List Char × Bool) :=
  groupText (splitGroups text).1 braced ++ (splitGroups text).2

theorem groupTexts_eq (text : List Char) : groupTexts text = textsBetween false text :=
  rfl

theorem splitGroups_cons_of_brace (hc : isBrace c) (text : List Char) :
    splitGroups (c :: text) = ([], textsBetween (c = '\x7b') text) := by
  rw [splitGroups]
  exact if_pos (by simpa [isBrace] using hc)

theorem splitGroups_cons_of_not (hc : isBrace c = false) (text : List Char) :
    splitGroups (c :: text) = (c :: (splitGroups text).1, (splitGroups text).2) := by
  rw [splitGroups]
  exact if_neg (by simpa [isBrace] using hc)

theorem flatMap_groupText (text : List Char) (braced : Bool) :
    (groupText text braced).flatMap Prod.fst = text := by
  cases text <;> simp [groupText]

theorem flatMap_splitGroups (text : List Char) :
    (splitGroups text).1 ++ (splitGroups text).2.flatMap Prod.fst = withoutBraces text := by
  induction text with
  | nil => rfl
  | cons c text ih =>
    cases hc : isBrace c with
    | true =>
      rw [splitGroups_cons_of_brace hc, withoutBraces_cons_of_brace hc, ← ih, List.nil_append,
        textsBetween, List.flatMap_append, flatMap_groupText]
    | false =>
      rw [splitGroups_cons_of_not hc, withoutBraces_cons_of_not hc, ← ih, List.cons_append]

/-- **The texts are the whole text** but for its braces. -/
theorem flatMap_textsBetween (braced : Bool) (text : List Char) :
    (textsBetween braced text).flatMap Prod.fst = withoutBraces text := by
  rw [textsBetween, List.flatMap_append, flatMap_groupText, flatMap_splitGroups]

theorem ne_nil_of_mem_groupText (h : piece ∈ groupText text braced) : piece.1 ≠ [] := by
  cases text with
  | nil => cases h
  | cons c text =>
    obtain rfl := List.mem_singleton.1 h
    exact List.cons_ne_nil c text

theorem ne_nil_of_mem_splitGroups (h : piece ∈ (splitGroups text).2) : piece.1 ≠ [] := by
  induction text with
  | nil => cases h
  | cons c text ih =>
    cases hc : isBrace c with
    | true =>
      rw [splitGroups_cons_of_brace hc] at h
      exact (List.mem_append.1 h).elim ne_nil_of_mem_groupText ih
    | false =>
      rw [splitGroups_cons_of_not hc] at h
      exact ih h

/-- No text is empty. -/
theorem ne_nil_of_mem_groupTexts (h : piece ∈ groupTexts text) : piece.1 ≠ [] :=
  (List.mem_append.1 h).elim ne_nil_of_mem_groupText ne_nil_of_mem_splitGroups

theorem splitGroups_append (hc : isBrace c) (before after : List Char) :
    splitGroups (before ++ c :: after) =
      ((splitGroups before).1, (splitGroups before).2 ++ textsBetween (c = '\x7b') after) := by
  induction before with
  | nil =>
    rw [List.nil_append, splitGroups_cons_of_brace hc]
    rfl
  | cons d before ih =>
    rw [List.cons_append]
    cases hd : isBrace d with
    | true =>
      rw [splitGroups_cons_of_brace hd, splitGroups_cons_of_brace hd]
      simp only [textsBetween, ih, List.append_assoc]
    | false => rw [splitGroups_cons_of_not hd, splitGroups_cons_of_not hd, ih]

/-- **A brace separates texts**: those before it are the ones of the text before it, and those
    after it the ones of the text after it. -/
theorem textsBetween_append (hc : isBrace c) (braced : Bool) (before after : List Char) :
    textsBetween braced (before ++ c :: after) =
      textsBetween braced before ++ textsBetween (c = '\x7b') after := by
  simp only [textsBetween, splitGroups_append hc, List.append_assoc]

/-! ## Where they stand -/

theorem splitGroups_fst_prefix (text : List Char) : (splitGroups text).1 <+: text := by
  induction text with
  | nil => exact List.nil_prefix
  | cons c text ih =>
    cases hc : isBrace c with
    | true =>
      rw [splitGroups_cons_of_brace hc]
      exact List.nil_prefix
    | false =>
      rw [splitGroups_cons_of_not hc]
      exact List.cons_prefix_cons.2 ⟨rfl, ih⟩

/-- A text between braces is the first one, before any brace, or one of the others. -/
theorem textsBetween_eq_append (h : textsBetween braced text = front ++ piece :: back) :
    front = [] ∧ piece = ((splitGroups text).1, braced) ∨
      ∃ front', (splitGroups text).2 = front' ++ piece :: back ∧
        front.flatMap Prod.fst = (splitGroups text).1 ++ front'.flatMap Prod.fst := by
  unfold textsBetween at h
  cases htext : (splitGroups text).1 with
  | nil =>
    rw [htext] at h
    exact .inr ⟨front, h, rfl⟩
  | cons c run =>
    rw [htext] at h
    cases front with
    | nil => exact .inl ⟨rfl, (List.cons.inj h).1.symm⟩
    | cons first front =>
      obtain ⟨rfl, hrest⟩ := List.cons.inj h
      exact .inr ⟨front, hrest, rfl⟩

/-- A text stands behind a brace and what is before that, and is marked for this brace. -/
def StandsBehind (text front : List Char) (piece : List Char × Bool) : Prop :=
  ∃ before c after, isBrace c = true ∧ text = before ++ c :: (piece.1 ++ after) ∧
    withoutBraces before = front ∧ piece.2 = decide (c = '\x7b')

theorem StandsBehind.cons {front : List Char} (h : StandsBehind text front piece) (d : Char) :
    StandsBehind (d :: text) (withoutBraces [d] ++ front) piece := by
  obtain ⟨before, c, after, hc, rfl, rfl, hpiece⟩ := h
  exact ⟨d :: before, c, after, hc, rfl, withoutBraces_append [d] before, hpiece⟩

theorem standsBehind_of_splitGroups (h : (splitGroups text).2 = front ++ piece :: back) :
    StandsBehind text ((splitGroups text).1 ++ front.flatMap Prod.fst) piece := by
  induction text generalizing front with
  | nil => simp [splitGroups] at h
  | cons d text ih =>
    cases hd : isBrace d with
    | true =>
      rw [splitGroups_cons_of_brace hd] at h ⊢
      -- the text that this brace marks, or one behind a later brace
      rcases textsBetween_eq_append h with ⟨rfl, rfl⟩ | ⟨front', hrest, hfront⟩
      · obtain ⟨after, hafter⟩ := splitGroups_fst_prefix text
        exact ⟨[], d, after, hd, by rw [List.nil_append, hafter], rfl, rfl⟩
      · have hcons := (ih hrest).cons d
        rwa [withoutBraces_cons_of_brace hd, ← hfront] at hcons
    | false =>
      rw [splitGroups_cons_of_not hd] at h ⊢
      have hcons := (ih h).cons d
      rwa [withoutBraces_cons_of_not hd] at hcons

/-- **Each text stands behind the texts before it**, and is marked just if the last brace
    before it opens. -/
theorem exists_place (h : groupTexts text = front ++ piece :: back) :
    ∃ before after, text = before ++ (piece.1 ++ after) ∧
      withoutBraces before = front.flatMap Prod.fst ∧
      (piece.2 = true ↔ lastBrace? before = some '\x7b') ∧
      (before = [] ∨ ∃ text' c, isBrace c = true ∧ before = text' ++ [c]) := by
  rcases textsBetween_eq_append h with ⟨rfl, rfl⟩ | ⟨front', hrest, hfront⟩
  · obtain ⟨after, hafter⟩ := splitGroups_fst_prefix text
    exact ⟨[], after, hafter.symm, rfl, by simp [lastBrace?], .inl rfl⟩
  · obtain ⟨before, c, after, hc, htext, hbefore, hpiece⟩ := standsBehind_of_splitGroups hrest
    refine ⟨before ++ [c], after, by simp [htext], ?_, ?_, .inr ⟨before, c, hc, rfl⟩⟩
    · rw [withoutBraces_concat hc, hbefore, hfront]
    · rw [lastBrace?_concat hc, hpiece, decide_eq_true_iff, Option.some_inj]

end

/-! ## Boundaries -/

/-- A boundary of some texts: one of them ends with the text before it, and the next one begins
    the text after it. -/
def IsBoundary (texts : List (List Char)) (before after : List Char) : Prop :=
  ∃ front back, front ≠ [] ∧ back ≠ [] ∧ texts = front ++ back ∧
    before = front.flatten ∧ after = back.flatten

section

variable {text before after : List Char} {texts texts' : List (List Char)}

theorem flatten_ne_nil (h : [] ∉ texts) (hne : texts ≠ []) : texts.flatten ≠ [] := by
  cases texts with
  | nil => exact absurd rfl hne
  | cons text texts =>
    intro hflatten
    exact h (by simp [(List.append_eq_nil_iff.1 hflatten).1])

theorem IsBoundary.before_ne_nil (h : IsBoundary texts before after) (hnil : [] ∉ texts) :
    before ≠ [] := by
  obtain ⟨front, back, hfront, -, rfl, rfl, -⟩ := h
  exact flatten_ne_nil (fun hmem => hnil (List.mem_append_left _ hmem)) hfront

theorem IsBoundary.cons (h : IsBoundary texts before after) :
    IsBoundary (text :: texts) (text ++ before) after := by
  obtain ⟨front, back, -, hback, rfl, rfl, rfl⟩ := h
  exact ⟨text :: front, back, List.cons_ne_nil _ _, hback, rfl, rfl, rfl⟩

theorem IsBoundary.of_cons (h : IsBoundary (text :: texts) (text ++ before) after)
    (hne : before ≠ []) : IsBoundary texts before after := by
  obtain ⟨front, back, hfront, hback, htexts, hbefore, rfl⟩ := h
  cases front with
  | nil => exact absurd rfl hfront
  | cons first front =>
    obtain ⟨rfl, rfl⟩ := List.cons.inj htexts
    obtain rfl := List.append_cancel_left hbefore
    exact ⟨front, back, fun hnil => hne (by rw [hnil]; rfl), hback, rfl, rfl, rfl⟩

/-- Where the boundaries of some texts are boundaries of others too, the first of the others
    does not go on behind the first of them. -/
theorem head_prefix {text' : List Char}
    (hwhole : (text :: texts).flatten = (text' :: texts').flatten)
    (h : ∀ before after, IsBoundary (text :: texts) before after →
      IsBoundary (text' :: texts') before after) : text' <+: text := by
  by_cases hrest : texts = []
  · subst hrest
    rw [List.flatten_singleton] at hwhole
    exact ⟨_, hwhole.symm⟩
  · obtain ⟨front, back, hfront, -, htexts, htext, -⟩ := h text texts.flatten
      ⟨[text], texts, List.cons_ne_nil _ _, hrest, rfl, List.flatten_singleton.symm, rfl⟩
    cases front with
    | nil => exact absurd rfl hfront
    | cons first front =>
      obtain ⟨rfl, -⟩ := List.cons.inj htexts
      exact ⟨_, htext.symm⟩

/-- **Texts are determined by what they are together and by their boundaries**, where none of
    them is empty. -/
theorem eq_of_isBoundary_iff (hnil : [] ∉ texts) (hnil' : [] ∉ texts')
    (hwhole : texts.flatten = texts'.flatten)
    (h : ∀ before after, IsBoundary texts before after ↔ IsBoundary texts' before after) :
    texts = texts' := by
  induction texts generalizing texts' with
  | nil =>
    cases texts' with
    | nil => rfl
    | cons text' texts' =>
      exact absurd hwhole.symm (flatten_ne_nil hnil' (List.cons_ne_nil _ _))
  | cons text texts ih =>
    cases texts' with
    | nil => exact absurd hwhole (flatten_ne_nil hnil (List.cons_ne_nil _ _))
    | cons text' texts' =>
      have hbegins := head_prefix hwhole fun before after => (h before after).1
      have hbegins' := head_prefix hwhole.symm fun before after => (h before after).2
      obtain rfl : text = text' :=
        hbegins'.eq_of_length (Nat.le_antisymm hbegins'.length_le hbegins.length_le)
      have hrest : [] ∉ texts := fun hmem => hnil (List.mem_cons_of_mem _ hmem)
      have hrest' : [] ∉ texts' := fun hmem => hnil' (List.mem_cons_of_mem _ hmem)
      refine congrArg (text :: ·) (ih hrest hrest' (List.append_cancel_left hwhole) ?_)
      intro before after
      constructor
      · intro hb
        exact ((h _ _).1 hb.cons).of_cons (hb.before_ne_nil hrest)
      · intro hb
        exact ((h _ _).2 hb.cons).of_cons (hb.before_ne_nil hrest')

end

/-- A brace of a text, between the text before it and the text after it, neither of which is
    empty. -/
def IsBraceBetween (text before after : List Char) : Prop :=
  before ≠ [] ∧ after ≠ [] ∧ ∃ text' c text'', isBrace c = true ∧ text = text' ++ c :: text'' ∧
    before = withoutBraces text' ∧ after = withoutBraces text''

/-- **The boundaries are the braces between texts.** -/
theorem isBoundary_groupTexts_iff {text before after : List Char} :
    IsBoundary ((groupTexts text).map Prod.fst) before after ↔
      IsBraceBetween text before after := by
  constructor
  · rintro ⟨front, back, hfront, hback, htexts, rfl, rfl⟩
    have hnil : ∀ run ∈ front ++ back, run ≠ [] := by
      rw [← htexts]
      exact List.forall_mem_map.2 fun piece => ne_nil_of_mem_groupTexts
    have hbefore : front.flatten ≠ [] :=
      flatten_ne_nil (fun hmem => hnil _ (List.mem_append_left _ hmem) rfl) hfront
    have hafter : back.flatten ≠ [] :=
      flatten_ne_nil (fun hmem => hnil _ (List.mem_append_right _ hmem) rfl) hback
    refine ⟨hbefore, hafter, ?_⟩
    obtain ⟨pieces, pieces', hpieces, rfl, rfl⟩ := List.map_eq_append_iff.1 htexts
    simp only [← List.flatMap_def] at hbefore ⊢
    cases pieces' with
    | nil => exact absurd rfl hback
    | cons piece rest =>
      obtain ⟨before, after, htext, hplace, -, rfl | ⟨text', c, hc, rfl⟩⟩ := exists_place hpieces
      · rw [← hplace] at hbefore
        exact absurd rfl hbefore
      · rw [withoutBraces_concat hc] at hplace
        rw [List.append_assoc, List.singleton_append] at htext
        refine ⟨text', c, piece.1 ++ after, hc, htext, hplace.symm, ?_⟩
        have hwhole := flatMap_textsBetween false text
        rw [← groupTexts_eq, hpieces, htext, List.flatMap_append, withoutBraces_append,
          withoutBraces_cons_of_brace hc, hplace] at hwhole
        exact List.append_cancel_left hwhole
  · rintro ⟨hbefore, hafter, text', c, text'', hc, rfl, rfl, rfl⟩
    have hflatten : ∀ braced text, ((textsBetween braced text).map Prod.fst).flatten =
        withoutBraces text := by
      intro braced text
      rw [← List.flatMap_def, flatMap_textsBetween]
    refine ⟨(textsBetween false text').map Prod.fst,
      (textsBetween (c = '\x7b') text'').map Prod.fst, ?_, ?_, ?_, (hflatten _ _).symm,
      (hflatten _ _).symm⟩
    · intro hnil
      rw [← hflatten false, hnil] at hbefore
      exact hbefore rfl
    · intro hnil
      rw [← hflatten (c = '\x7b'), hnil] at hafter
      exact hafter rfl
    · rw [groupTexts_eq, textsBetween_append hc, List.map_append]

/-! ## The groups of a template -/

/-- The token a segment was read as. -/
def Segment.token : Segment → Token
  | literal text => .literal text
  | placeholder p => .field p.field

/-- The tokens of a group. -/
def Group.tokens (g : Group) : List Token :=
  g.segments.map Segment.token

/-- The text that a group stands for in a template. -/
def Group.source (g : Group) : List Char :=
  g.tokens.flatMap Token.source

/-- A group as it stands in a template: its tokens, and whether it is braced. -/
def Group.shape (g : Group) : List Token × Bool :=
  (g.tokens, g.braced)

theorem map_token_segmentsOf (optional : Bool) (next : Nat) (parts : List Token) :
    (segmentsOf optional next parts).map Segment.token = parts := by
  induction parts generalizing next with
  | nil => rfl
  | cons part rest ih =>
    cases part with
    | literal text => exact congrArg (Token.literal text :: ·) (ih next)
    | field f => exact congrArg (Token.field f :: ·) (ih (next + 1))

theorem map_shape_groupsOf (first : Bool) (next : Nat) (texts : List (List Char × Bool)) :
    (groupsOf first next texts).map Group.shape =
      texts.map fun text => (tokens text.1, text.2) := by
  induction texts generalizing first next with
  | nil => rfl
  | cons text rest ih =>
    rw [groupsOf, List.map_cons, List.map_cons, ih, Group.shape, Group.tokens, map_token_segmentsOf]

/-- The groups of a template are read from its texts. -/
theorem map_shape_groups (template : String) : (compile template).groups.map Group.shape =
    (groupTexts template.toList).map fun text => (tokens text.1, text.2) :=
  map_shape_groupsOf true 1 _

/-- They stand for these texts. -/
theorem map_source_groups (template : String) :
    ((compile template).groups.map fun g => (g.source, g.braced)) = groupTexts template.toList := by
  have hsource := congrArg (List.map fun shape => (shape.1.flatMap Token.source, shape.2))
    (map_shape_groups template)
  simpa [Function.comp_def, flatMap_source_tokens, Group.shape, Group.source] using hsource

theorem areRead_tokens_of_mem {template : String} {g : Group} (h : g ∈ (compile template).groups) :
    AreRead g.tokens := by
  have hshape : g.shape ∈ (compile template).groups.map Group.shape := List.mem_map_of_mem h
  rw [map_shape_groups] at hshape
  obtain ⟨text, -, heq⟩ := List.mem_map.1 hshape
  rw [← (Prod.mk.inj heq).1]
  exact areRead_tokens text.1

/-! ## Its division -/

/-- **The groups that a template is divided into.** -/
structure IsDivision (template : List Char) (groups : List Group) : Prop where
  /-- The groups stand for the template without its braces. -/
  lossless : groups.flatMap Group.source = withoutBraces template
  source_ne_nil : ∀ g ∈ groups, g.source ≠ []
  /-- One group ends and the next one begins just where a brace stands between texts. -/
  boundaries : ∀ before after,
    IsBoundary (groups.map Group.source) before after ↔ IsBraceBetween template before after
  /-- A group is braced just if the last brace before the place where it stands opens. -/
  braced : ∀ front g back, groups = front ++ g :: back → ∃ before after,
    template = before ++ (g.source ++ after) ∧
      withoutBraces before = front.flatMap Group.source ∧
      (g.braced = true ↔ lastBrace? before = some '\x7b')
  /-- The segments of a group are those that come of reading its text. -/
  segments : ∀ g ∈ groups, AreRead g.tokens

theorem isDivision_compile (template : String) :
    IsDivision template.toList (compile template).groups := by
  have hsource := map_source_groups template
  have htexts : (compile template).groups.map Group.source =
      (groupTexts template.toList).map Prod.fst := by
    rw [← hsource, List.map_map]
    rfl
  refine ⟨?_, fun g hg => ?_, fun before after => ?_, fun front g back hgroups => ?_,
    fun g => areRead_tokens_of_mem⟩
  · rw [List.flatMap_def, htexts, ← List.flatMap_def, groupTexts_eq, flatMap_textsBetween]
  · have hpiece : (g.source, g.braced) ∈ groupTexts template.toList :=
      hsource ▸ List.mem_map_of_mem hg
    exact ne_nil_of_mem_groupTexts hpiece
  · rw [htexts, isBoundary_groupTexts_iff]
  · rw [hgroups, List.map_append, List.map_cons] at hsource
    obtain ⟨before, after, htext, hbefore, hbraced, -⟩ := exists_place hsource.symm
    refine ⟨before, after, htext, ?_, hbraced⟩
    rw [hbefore, List.flatMap_map]

section

variable {template : List Char} {groups groups' : List Group}

theorem IsDivision.plain (h : IsDivision template groups) {g : Group} (hg : g ∈ groups) :
    ∀ c ∈ g.source, isBrace c = false := by
  intro c hc
  have hmem : c ∈ groups.flatMap Group.source := List.mem_flatMap.2 ⟨g, hg, hc⟩
  rw [h.lossless] at hmem
  exact isBrace_of_mem_withoutBraces hmem

theorem IsDivision.nil_not_mem (h : IsDivision template groups) :
    [] ∉ groups.map Group.source := by
  intro hmem
  obtain ⟨g, hg, hnil⟩ := List.mem_map.1 hmem
  exact h.source_ne_nil g hg hnil

/-- Two divisions of a template have the same texts. -/
theorem IsDivision.map_source_eq (h : IsDivision template groups)
    (h' : IsDivision template groups') : groups.map Group.source = groups'.map Group.source := by
  refine eq_of_isBoundary_iff h.nil_not_mem h'.nil_not_mem ?_ fun before after => ?_
  · rw [← List.flatMap_def, ← List.flatMap_def, h.lossless, h'.lossless]
  · rw [h.boundaries, h'.boundaries]

theorem IsDivision.place_getElem (h : IsDivision template groups) {i : Nat}
    (hi : i < groups.length) : ∃ before after, template = before ++ (groups[i].source ++ after) ∧
      withoutBraces before = ((groups.map Group.source).take i).flatten ∧
      (groups[i].braced = true ↔ lastBrace? before = some '\x7b') := by
  obtain ⟨before, after, htemplate, hbefore, hbraced⟩ :=
    h.braced (groups.take i) groups[i] (groups.drop (i + 1))
      (by rw [← List.drop_eq_getElem_cons hi, List.take_append_drop])
  refine ⟨before, after, htemplate, ?_, hbraced⟩
  rw [hbefore, List.flatMap_def, List.map_take]

/-- A text without braces that is moved on in a template is moved over other text, not over
    braces alone. -/
theorem eq_nil_of_moved {source moved after after' : List Char} (hne : source ≠ [])
    (hplain : ∀ c ∈ source, isBrace c = false) (h : source ++ after = moved ++ (source ++ after'))
    (hmoved : withoutBraces moved = []) : moved = [] := by
  cases moved with
  | nil => rfl
  | cons c moved =>
    cases source with
    | nil => exact absurd rfl hne
    | cons d source =>
      obtain ⟨rfl, -⟩ := List.cons.inj h
      rw [withoutBraces_cons_of_not (hplain d (List.mem_cons_self ..))] at hmoved
      cases hmoved

/-- So its place is determined by the text before it. -/
theorem eq_of_same_place {source before before' after after' : List Char} (hne : source ≠ [])
    (hplain : ∀ c ∈ source, isBrace c = false)
    (h : before ++ (source ++ after) = before' ++ (source ++ after'))
    (hbefore : withoutBraces before = withoutBraces before') : before = before' := by
  rcases List.append_eq_append_iff.1 h with ⟨moved, rfl, hmoved⟩ | ⟨moved, rfl, hmoved⟩
  · rw [withoutBraces_append, List.self_eq_append_right] at hbefore
    rw [eq_nil_of_moved hne hplain hmoved hbefore, List.append_nil]
  · rw [withoutBraces_append, List.append_right_eq_self] at hbefore
    rw [eq_nil_of_moved hne hplain hmoved hbefore, List.append_nil]

/-- **Two divisions of a template have the same groups**, up to what is decided later. -/
theorem IsDivision.map_shape_eq (h : IsDivision template groups)
    (h' : IsDivision template groups') : groups.map Group.shape = groups'.map Group.shape := by
  have hsources := h.map_source_eq h'
  refine List.ext_getElem (by simpa using congrArg List.length hsources) fun i hi hi' => ?_
  rw [List.length_map] at hi hi'
  rw [List.getElem_map, List.getElem_map]
  have hsource : groups[i].source = groups'[i].source := by
    have hget := congrArg (·[i]?) hsources
    simpa [hi, hi'] using hget
  have hmem := List.getElem_mem hi
  refine Prod.ext ?_ (Bool.eq_iff_iff.2 ?_)
  · have htokens : tokens groups'[i].source = groups[i].tokens :=
      tokens_eq_iff.2 ⟨h.segments _ hmem, hsource⟩
    exact htokens.symm.trans (tokens_eq_iff.2 ⟨h'.segments _ (List.getElem_mem hi'), rfl⟩)
  · obtain ⟨before, after, htemplate, hbefore, hbraced⟩ := h.place_getElem hi
    obtain ⟨before', after', htemplate', hbefore', hbraced'⟩ := h'.place_getElem hi'
    rw [← hsource, htemplate] at htemplate'
    rw [← hsources, ← hbefore] at hbefore'
    have hsame := eq_of_same_place (h.source_ne_nil _ hmem) (h.plain hmem) htemplate' hbefore'.symm
    rw [hsame] at hbraced
    exact hbraced.trans hbraced'.symm

end

/-- **A template is divided in one way.**  The groups that it is compiled to are a division of
    its text, and every division of it has these groups, up to what is decided later: which
    placeholders are optional, and the numbers of their captures. -/
theorem compile_divides (template : String) :
    IsDivision template.toList (compile template).groups ∧
    ∀ groups, IsDivision template.toList groups →
      groups.map Group.shape = (compile template).groups.map Group.shape :=
  ⟨isDivision_compile template, fun _ h => h.map_shape_eq (isDivision_compile template)⟩

/-- The sign behind an unknown name opens the next placeholder, and a group behind a closing
    brace is not braced. -/
theorem compile_divides_unknown :
    let groups : List Group :=
      [⟨[.literal "%FOO".toList, .placeholder ⟨.title, false, 1⟩], true, false⟩,
        ⟨[.literal " [".toList, .placeholder ⟨.disc, true, 2⟩, .literal "]".toList], false, false⟩]
    IsDivision "\x7b%FOO%TITLE%\x7d\x7d [%DISC%]".toList groups ∧
      groups.map Group.shape =
        (compile "\x7b%FOO%TITLE%\x7d\x7d [%DISC%]").groups.map Group.shape := by
  intro groups
  have hgroups : (compile "\x7b%FOO%TITLE%\x7d\x7d [%DISC%]").groups = groups := by cbv
  obtain ⟨hdivision, honly⟩ := compile_divides "\x7b%FOO%TITLE%\x7d\x7d [%DISC%]"
  rw [hgroups] at hdivision
  exact ⟨hdivision, honly groups hdivision⟩

end SongLibrary.Template
