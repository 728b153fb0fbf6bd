/-
  The parts of the text of a group.

  * `Token.source` is the text that a token stands for, and reading a text loses nothing of it
    (`flatMap_source_tokens`);
  * `AreRead` says what tokens come of reading: literal text is not empty, goes on as far as it
    can, and ends before the first placeholder;
  * `tokens_eq_iff`: these are the only tokens of this kind that stand for the text.
-/
import SongLibrary.Template.Basic

namespace SongLibrary.Template

/-! ## Placeholders -/

/-- A placeholder as it stands in a template. -/
def Field.placeholderText (f : Field) : List Char :=
  '%' :: (f.name.toList ++ ['%'])

theorem Field.ofName?_name (f : Field) : ofName? f.name = some f := by
  cases f <;> decide

theorem Field.name_of_ofName? {f : Field} {text : String} (h : ofName? text = some f) :
    f.name = text := by
  simpa using List.find?_some h

theorem Field.plain_of_mem_name {f : Field} {c : Char} (h : c ∈ f.name.toList) :
    c ≠ '%' ∧ c ≠ '\x7b' ∧ c ≠ '\x7d' := by
  have hplain : (f.name.toList.all fun c => c != '%' && c != '\x7b' && c != '\x7d') = true := by
    cases f <;> decide
  simpa [and_assoc] using List.all_eq_true.1 hplain c h

/-- **A field stands before the rest of a text just if its name and a percent sign do.** -/
theorem fieldBefore?_eq_some_iff {f : Field} {text rest : List Char} :
    fieldBefore? text = some (f, rest) ↔ text = f.name.toList ++ '%' :: rest := by
  constructor
  · intro h
    unfold fieldBefore? at h
    split at h
    · cases h
    · next c after hdrop =>
      obtain ⟨g, hname, heq⟩ := Option.map_eq_some_iff.1 h
      cases heq
      have hne : text.dropWhile (· != '%') ≠ [] := by simp [hdrop]
      have hsign : c = '%' := by simpa [hdrop] using List.head_dropWhile_not (· != '%') hne
      subst hsign
      rw [Field.name_of_ofName? hname, String.toList_ofList, ← hdrop,
        List.takeWhile_append_dropWhile]
  · rintro rfl
    have hname : ∀ c ∈ f.name.toList, (c != '%') = true := fun c hc => by
      simpa using (Field.plain_of_mem_name hc).1
    rw [fieldBefore?, List.dropWhile_append_of_pos hname, List.takeWhile_append_of_pos hname]
    simp [Field.ofName?_name]

theorem tokens_placeholderText (f : Field) (rest : List Char) :
    tokens (f.placeholderText ++ rest) = .field f :: tokens rest := by
  have htext : f.placeholderText ++ rest = '%' :: (f.name.toList ++ '%' :: rest) := by
    simp [Field.placeholderText]
  have hfield : fieldBefore? (f.name.toList ++ '%' :: rest) = some (f, rest) :=
    fieldBefore?_eq_some_iff.2 rfl
  rw [htext, tokens, if_pos rfl]
  split
  · next heq =>
    rw [hfield] at heq
    cases heq
    rfl
  · next heq =>
    rw [hfield] at heq
    cases heq

/-- A character that opens no placeholder is literal. -/
theorem tokens_cons {c : Char} {rest : List Char} (h : c = '%' → fieldBefore? rest = none) :
    tokens (c :: rest) = consCharacter c (tokens rest) := by
  rw [tokens]
  split
  · next hc =>
    split
    · next heq => cases (h hc).symm.trans heq
    · rfl
  · rfl

/-! ## What tokens stand for -/

/-- The text that a token stands for. -/
def Token.source : Token → List Char
  | literal text => text
  | field f => f.placeholderText

theorem flatMap_source_consCharacter (c : Char) (parts : List Token) :
    (consCharacter c parts).flatMap Token.source = c :: parts.flatMap Token.source := by
  cases parts with
  | nil => rfl
  | cons part rest => cases part <;> rfl

/-- **Reading a text loses nothing of it.** -/
theorem flatMap_source_tokens (text : List Char) : (tokens text).flatMap Token.source = text := by
  fun_induction tokens text with
  | case1 => rfl
  | case2 rest f after hfield ih =>
    rw [List.flatMap_cons, ih, fieldBefore?_eq_some_iff.1 hfield]
    simp [Token.source, Field.placeholderText]
  | case3 rest _ ih => rw [flatMap_source_consCharacter, ih]
  | case4 c rest _ ih => rw [flatMap_source_consCharacter, ih]

/-! ## Tokens as they are read -/

/-- No placeholder of a known name stands in a text. -/
def NamesNoField (text : List Char) : Prop :=
  ∀ f : Field, ¬ f.placeholderText <:+: text

/-- What tokens come of reading a text. -/
structure AreRead (parts : List Token) : Prop where
  literal_ne_nil : ∀ text, .literal text ∈ parts → text ≠ []
  /-- Literal text is not followed by other literal text. -/
  apart : ∀ text text', ¬ [.literal text, .literal text'] <:+: parts
  namesNoField : ∀ text, .literal text ∈ parts → NamesNoField text
  /-- No placeholder of a known name ends with the sign that opens the next one. -/
  leftmost : ∀ text f, [.literal text, .field f] <:+: parts → NamesNoField (text ++ ['%'])

/-- The character after literal text, if any: the sign that opens a placeholder. -/
def openingSign : List Token → List Char
  | .field _ :: _ => ['%']
  | _ => []

section

variable {c : Char} {text text' : List Char} {f : Field} {parts rest : List Token}

theorem openingSign_begins (parts : List Token) :
    openingSign parts <+: parts.flatMap Token.source := by
  cases parts with
  | nil => exact List.nil_prefix
  | cons part rest =>
    cases part with
    | literal text => exact List.nil_prefix
    | field f => exact ⟨f.name.toList ++ ['%'] ++ rest.flatMap Token.source, rfl⟩

theorem NamesNoField.mono (h : NamesNoField text) (hin : text' <:+: text) :
    NamesNoField text' :=
  fun f hf => h f (hf.trans hin)

/-- A placeholder has two percent signs, so it does not fit in the sign that opens one. -/
theorem namesNoField_openingSign (parts : List Token) : NamesNoField (openingSign parts) := by
  have hlength : (openingSign parts).length ≤ 1 := by
    unfold openingSign
    split <;> simp
  intro f hf
  have hle := hf.length_le
  simp only [Field.placeholderText, List.length_cons, List.length_append, List.length_nil] at hle
  omega

/-- A character that opens no placeholder before a text adds none to the beginning of the text. -/
theorem NamesNoField.cons (h : NamesNoField text) (hbegins : text <+: text')
    (hfield : c = '%' → fieldBefore? text' = none) : NamesNoField (c :: text) := by
  intro f hf
  rcases List.infix_cons_iff.1 hf with hf | hf
  · obtain ⟨hc, hname⟩ := List.cons_prefix_cons.1 hf
    obtain ⟨rest, rfl⟩ := hname.trans hbegins
    have hsome : fieldBefore? (f.name.toList ++ ['%'] ++ rest) = some (f, rest) :=
      fieldBefore?_eq_some_iff.2 (by simp)
    rw [hfield hc.symm] at hsome
    cases hsome
  · exact h f hf

theorem pair_infix_cons {a b part : Token} :
    [a, b] <:+: part :: rest ↔ a = part ∧ rest.head? = some b ∨ [a, b] <:+: rest := by
  have hhead : [b] <+: rest ↔ rest.head? = some b := by
    cases rest with
    | nil => simp
    | cons next rest => simp [List.cons_prefix_cons, eq_comm]
  rw [List.infix_cons_iff, List.cons_prefix_cons, hhead]

theorem areRead_nil : AreRead [] where
  literal_ne_nil _ h := by cases h
  apart _ _ h := by simpa using h.length_le
  namesNoField _ h := by cases h
  leftmost _ _ h := by simpa using h.length_le

theorem AreRead.tail {part : Token} (h : AreRead (part :: rest)) : AreRead rest where
  literal_ne_nil text htext := h.literal_ne_nil text (List.mem_cons_of_mem _ htext)
  apart text text' hpair := h.apart text text' (pair_infix_cons.2 (.inr hpair))
  namesNoField text htext := h.namesNoField text (List.mem_cons_of_mem _ htext)
  leftmost text g hpair := h.leftmost text g (pair_infix_cons.2 (.inr hpair))

theorem areRead_field_cons : AreRead (.field f :: rest) ↔ AreRead rest := by
  constructor
  · exact AreRead.tail
  · intro h
    refine ⟨fun text htext => ?_, fun text text' hpair => ?_, fun text htext => ?_,
      fun text g hpair => ?_⟩
    · exact h.literal_ne_nil text (by simpa using htext)
    · exact h.apart text text' (by simpa [pair_infix_cons] using hpair)
    · exact h.namesNoField text (by simpa using htext)
    · exact h.leftmost text g (by simpa [pair_infix_cons] using hpair)

theorem areRead_literal_cons : AreRead (.literal text :: rest) ↔
    text ≠ [] ∧ (∀ text', rest.head? ≠ some (.literal text')) ∧
      NamesNoField (text ++ openingSign rest) ∧ AreRead rest := by
  constructor
  · intro h
    refine ⟨h.literal_ne_nil text (List.mem_cons_self ..),
      fun text' hhead => h.apart text text' (pair_infix_cons.2 (.inl ⟨rfl, hhead⟩)), ?_, h.tail⟩
    unfold openingSign
    split
    · next g _ => exact h.leftmost text g (pair_infix_cons.2 (.inl ⟨rfl, rfl⟩))
    · simpa using h.namesNoField text (List.mem_cons_self ..)
  · rintro ⟨hne, hhead, hnames, h⟩
    refine ⟨fun text' htext => ?_, fun text' text'' hpair => ?_, fun text' htext => ?_,
      fun text' g hpair => ?_⟩
    · rcases List.mem_cons.1 htext with heq | htext
      · cases heq
        exact hne
      · exact h.literal_ne_nil text' htext
    · rcases pair_infix_cons.1 hpair with ⟨-, hpair⟩ | hpair
      · exact hhead text'' hpair
      · exact h.apart text' text'' hpair
    · rcases List.mem_cons.1 htext with heq | htext
      · cases heq
        exact hnames.mono (List.prefix_append _ _).isInfix
      · exact h.namesNoField text' htext
    · rcases pair_infix_cons.1 hpair with ⟨heq, hnext⟩ | hpair
      · cases heq
        obtain ⟨rest, rfl⟩ := List.head?_eq_some_iff.1 hnext
        exact hnames
      · exact h.leftmost text' g hpair

/-! ## Reading -/

/-- A character that opens no placeholder is read as literal text before the other tokens. -/
theorem AreRead.consCharacter (h : AreRead parts)
    (hfield : c = '%' → fieldBefore? (parts.flatMap Token.source) = none) :
    AreRead (consCharacter c parts) := by
  have halone : (∀ text', parts.head? ≠ some (.literal text')) →
      AreRead (.literal [c] :: parts) := fun hhead =>
    areRead_literal_cons.2 ⟨List.cons_ne_nil _ _, hhead,
      (namesNoField_openingSign parts).cons (openingSign_begins parts) hfield, h⟩
  cases parts with
  | nil => exact halone (by simp)
  | cons part rest =>
    cases part with
    | literal text =>
      obtain ⟨-, hhead, hnames, hrest⟩ := areRead_literal_cons.1 h
      refine areRead_literal_cons.2 ⟨List.cons_ne_nil _ _, hhead, ?_, hrest⟩
      exact hnames.cons ((List.prefix_append_right_inj text).2 (openingSign_begins rest)) hfield
    | field f => exact halone (by simp)

theorem areRead_tokens (text : List Char) : AreRead (tokens text) := by
  fun_induction tokens text with
  | case1 => exact areRead_nil
  | case2 rest f after hfield ih => exact areRead_field_cons.2 ih
  | case3 rest hnone ih => exact ih.consCharacter fun _ => by rwa [flatMap_source_tokens]
  | case4 c rest hc ih => exact ih.consCharacter fun heq => absurd heq hc

/-- A name and its percent sign do not go on behind the sign that opens the next placeholder. -/
theorem within_openingSign {name : List Char} (hname : '%' ∉ name)
    (hhead : ∀ text', rest.head? ≠ some (.literal text'))
    (h : name ++ ['%'] <+: text ++ rest.flatMap Token.source) :
    name ++ ['%'] <+: text ++ openingSign rest := by
  cases rest with
  | nil => exact h
  | cons part rest =>
    cases part with
    | literal text' => exact absurd rfl (hhead text')
    | field f =>
      have hopening := (List.prefix_append_right_inj text).2 (openingSign_begins (.field f :: rest))
      rcases List.prefix_or_prefix_of_prefix h hopening with hle | hle
      · exact hle
      · rcases List.prefix_concat_iff.1 hle with heq | hle
        · exact heq ▸ List.prefix_refl _
        · exact absurd (hle.subset (by simp [openingSign])) hname

/-- Literal text that names no field, before tokens that begin with none, is read as a whole. -/
theorem tokens_literal_append (hne : text ≠ [])
    (hhead : ∀ text', rest.head? ≠ some (.literal text'))
    (hnames : NamesNoField (text ++ openingSign rest))
    (hrest : tokens (rest.flatMap Token.source) = rest) :
    tokens (text ++ rest.flatMap Token.source) = .literal text :: rest := by
  induction text with
  | nil => exact absurd rfl hne
  | cons c text ih =>
    have hfield : c = '%' → fieldBefore? (text ++ rest.flatMap Token.source) = none := by
      -- a placeholder that begins here would end in the text, or with the sign after it
      rintro rfl
      refine Option.eq_none_iff_forall_ne_some.2 fun ⟨f, after⟩ hsome => hnames f ?_
      have hname : f.name.toList ++ ['%'] <+: text ++ rest.flatMap Token.source :=
        ⟨after, by rw [fieldBefore?_eq_some_iff.1 hsome]; simp⟩
      have hplain : '%' ∉ f.name.toList := fun hmem => (Field.plain_of_mem_name hmem).1 rfl
      exact (List.cons_prefix_cons.2 ⟨rfl, within_openingSign hplain hhead hname⟩).isInfix
    rw [List.cons_append, tokens_cons hfield]
    by_cases htext : text = []
    · subst htext
      rw [List.nil_append, hrest]
      cases rest with
      | nil => rfl
      | cons part rest =>
        cases part with
        | literal text' => exact absurd rfl (hhead text')
        | field f => rfl
    · rw [ih htext (hnames.mono (List.suffix_cons _ _).isInfix)]
      rfl

/-- **There is one way to read a text.** -/
theorem tokens_eq_iff {text : List Char} {parts : List Token} :
    tokens text = parts ↔ AreRead parts ∧ parts.flatMap Token.source = text := by
  constructor
  · rintro rfl
    exact ⟨areRead_tokens text, flatMap_source_tokens text⟩
  · rintro ⟨h, rfl⟩
    induction parts with
    | nil => rw [List.flatMap_nil, tokens]
    | cons part rest ih =>
      rw [List.flatMap_cons]
      cases part with
      | literal text =>
        obtain ⟨hne, hhead, hnames, hrest⟩ := areRead_literal_cons.1 h
        exact tokens_literal_append hne hhead hnames (ih hrest)
      | field f => rw [Token.source, tokens_placeholderText, ih (areRead_field_cons.1 h)]

end

end SongLibrary.Template
