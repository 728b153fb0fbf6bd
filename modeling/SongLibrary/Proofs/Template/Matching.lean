/-
  Patterns match what they read.

  * `Holds` is said of a row that has, for every suffix of a text, a value with a property,
    if there is one;
  * each step of the matcher leads from a row that holds what comes after a piece, or a
    block, to one that holds what comes from there on (`holds_piece`, `holds_block`);
  * `captures?_reads` and `captures?_isSome`: a text is matched just if the pattern reads
    it, and what is captured is one of its readings.
-/
import SongLibrary.Proofs.Template.Grammar

namespace SongLibrary.Template

/-! ## Rows -/

/-- A value with a property is found, if there is one. -/
structure Finds {α : Type} (P : α → Prop) (entry : Option α) : Prop where
  sound : ∀ a ∈ entry, P a
  complete : ∀ a, P a → entry.isSome

/-- A row has, for every suffix of a text, a value with a property, if there is one. -/
inductive Holds {α : Type} (P : List Char → α → Prop) : List Char → List (Option α) → Prop where
  | nil {entry : Option α} (h : Finds (P []) entry) : Holds P [] [entry]
  | cons {x : Char} {text : List Char} {entry : Option α} {row : List (Option α)}
      (h : Finds (P (x :: text)) entry) (hrest : Holds P text row) :
      Holds P (x :: text) (entry :: row)

namespace Finds

variable {α β : Type} {P Q : α → Prop} {entry entry' : Option α}

theorem none (h : ∀ a, ¬ P a) : Finds P none :=
  ⟨fun _ ha => (by cases ha), fun a ha => absurd ha (h a)⟩

theorem some {a : α} (h : P a) : Finds P (some a) :=
  ⟨fun _ hb => Option.some.inj hb ▸ h, fun _ _ => rfl⟩

theorem congr (h : Finds P entry) (hsame : ∀ a, P a ↔ Q a) : Finds Q entry :=
  ⟨fun a ha => (hsame a).1 (h.sound a ha), fun a ha => h.complete a ((hsame a).2 ha)⟩

theorem map (f : α → β) (h : Finds P entry) : Finds (fun b => ∃ a, b = f a ∧ P a) (entry.map f) := by
  constructor
  · intro b hb
    obtain ⟨a, ha, rfl⟩ := Option.map_eq_some_iff.1 hb
    exact ⟨a, rfl, h.sound a ha⟩
  · rintro _ ⟨a, rfl, ha⟩
    rw [Option.isSome_map]
    exact h.complete a ha

theorem orElse (h : Finds P entry) (h' : Finds Q entry') :
    Finds (fun a => P a ∨ Q a) (entry <|> entry') := by
  cases hentry : entry with
  | some a => exact .some (.inl (h.sound a hentry))
  | none =>
    refine ⟨fun a ha => .inr (h'.sound a ha), fun a ha => ?_⟩
    rcases ha with ha | ha
    · have hsome := h.complete a ha
      rw [hentry] at hsome
      cases hsome
    · exact h'.complete a ha

end Finds

namespace Holds

variable {α β : Type} {P Q : List Char → α → Prop} {text : List Char} {row row' : List (Option α)}

/-- The first value is that for the text itself. -/
theorem head (h : Holds P text row) : Finds (P text) row.head?.join := by
  cases h with
  | nil h => exact h
  | cons h _ => exact h

theorem congr (h : Holds P text row) (hsame : ∀ suffix a, P suffix a ↔ Q suffix a) :
    Holds Q text row := by
  induction h with
  | nil h => exact .nil (h.congr (hsame _))
  | cons h _ ih => exact .cons (h.congr (hsame _)) ih

/-- Values may be rewritten. -/
theorem map (f : α → β) (h : Holds P text row) :
    Holds (fun suffix b => ∃ a, b = f a ∧ P suffix a) text (row.map (Option.map f)) := by
  induction h with
  | nil h => exact .nil (h.map f)
  | cons h _ ih => exact .cons (h.map f) ih

/-- Of two rows, the second is asked where the first has no value. -/
theorem orElse (h : Holds P text row) (h' : Holds Q text row') :
    Holds (fun suffix a => P suffix a ∨ Q suffix a) text
      (List.zipWith (fun a b => a <|> b) row row') := by
  induction h generalizing row' with
  | nil h =>
    cases h' with
    | nil h' => exact .nil (h.orElse h')
  | cons h _ ih =>
    cases h' with
    | cons h' hrest' => exact .cons (h.orElse h') (ih hrest')

/-- A value of the row is one for a suffix of the text. -/
theorem findSome? (h : Holds P text row) :
    Finds (fun a => ∃ front suffix, text = front ++ suffix ∧ P suffix a) (row.findSome? id) := by
  induction h with
  | @nil entry h =>
    have hsame : [entry].findSome? id = entry := by cases entry <;> rfl
    rw [hsame]
    refine h.congr fun a => ⟨fun ha => ⟨[], [], rfl, ha⟩, ?_⟩
    rintro ⟨front, suffix, hnil, ha⟩
    obtain ⟨-, rfl⟩ := List.append_eq_nil_iff.1 hnil.symm
    exact ha
  | @cons x text entry row h _ ih =>
    have hsame : (entry :: row).findSome? id = (entry <|> row.findSome? id) := by
      cases entry <;> rfl
    rw [hsame]
    refine (h.orElse ih).congr fun a => ⟨?_, ?_⟩
    · rintro (ha | ⟨front, suffix, rfl, ha⟩)
      · exact ⟨[], _, rfl, ha⟩
      · exact ⟨x :: front, suffix, rfl, ha⟩
    · rintro ⟨front, suffix, htext, ha⟩
      cases front with
      | nil => exact .inl (htext ▸ ha)
      | cons y front =>
        obtain ⟨-, htext⟩ := List.cons.inj htext
        exact .inr ⟨front, suffix, htext, ha⟩

end Holds

/-! ## The steps of the matcher -/

/-- What is read at the beginning of a text, before what has a property. -/
def Before (reads : List Char → Captures → Prop) (P : List Char → Captures → Prop)
    (text : List Char) (captures : Captures) : Prop :=
  ∃ front rest captured later, text = front ++ rest ∧ captures = captured ++ later ∧
    reads front captured ∧ P rest later

variable {P : List Char → Captures → Prop} {text : List Char} {row : Row}

theorem holds_extension (text : List Char) :
    Holds (fun suffix captures => captures = [] ∧ IsExtension suffix) text (extensionRow text) := by
  induction text with
  | nil =>
    refine .nil (.none ?_)
    rintro captures ⟨-, extension, heq, -⟩
    cases heq
  | cons c rest ih =>
    refine .cons ?_ ih
    split
    · next h =>
      simp only [Bool.and_eq_true, beq_iff_eq, Bool.not_eq_true', List.isEmpty_eq_false_iff,
        List.all_eq_true] at h
      exact .some ⟨rfl, rest, by rw [h.1.1], h.1.2, h.2⟩
    · next h =>
      refine .none ?_
      rintro captures ⟨-, extension, heq, hne, hall⟩
      cases heq
      refine h ?_
      simp only [Bool.and_eq_true, beq_iff_eq, Bool.not_eq_true', List.isEmpty_eq_false_iff,
        List.all_eq_true]
      exact ⟨⟨trivial, hne⟩, hall⟩

theorem holds_character (c : Char) (h : Holds P text row) :
    Holds (fun suffix captures => ∃ rest, suffix = c :: rest ∧ P rest captures) text
      (characterRow c text row) := by
  induction h with
  | nil _ => exact .nil (.none (by rintro captures ⟨rest, heq, -⟩; cases heq))
  | @cons x text entry later _ hrest ih =>
    refine .cons ?_ ih
    split
    · next hx =>
      refine hrest.head.congr fun captures => ⟨fun hp => ⟨text, by rw [hx], hp⟩, ?_⟩
      rintro ⟨rest, heq, hp⟩
      cases heq
      exact hp
    · next hx =>
      refine .none ?_
      rintro captures ⟨rest, heq, -⟩
      cases heq
      exact hx rfl

/-- Literal text is read character by character. -/
theorem holds_literal (chars : List Char) (h : Holds P text row) :
    Holds (fun suffix captures => ∃ rest, suffix = chars ++ rest ∧ P rest captures) text
      (chars.foldr (fun c row => characterRow c text row) row) := by
  induction chars with
  | nil =>
    refine h.congr fun suffix captures => ⟨fun hp => ⟨suffix, rfl, hp⟩, ?_⟩
    rintro ⟨rest, rfl, hp⟩
    exact hp
  | cons c chars ih =>
    refine (holds_character c ih).congr fun suffix captures => ⟨?_, ?_⟩
    · rintro ⟨_, rfl, rest, rfl, hp⟩
      exact ⟨rest, rfl, hp⟩
    · rintro ⟨rest, rfl, hp⟩
      exact ⟨chars ++ rest, rfl, rest, rfl, hp⟩

/-- What a run of characters reads, with what is captured after it. -/
def RunBefore (p : Char → Bool) (P : List Char → Captures → Prop) (text : List Char)
    (run : List Char × Captures) : Prop :=
  run.1 ≠ [] ∧ (∀ c ∈ run.1, p c) ∧ ∃ rest, text = run.1 ++ rest ∧ P rest run.2

theorem holds_runs (p : Char → Bool) (h : Holds P text row) :
    Holds (RunBefore p P) text (runs p text row) := by
  -- By induction on the text: a run goes on with the run after its first character, if any.
  induction h with
  | nil _ =>
    refine .nil (.none ?_)
    rintro ⟨run, captures⟩ ⟨hne, -, rest, heq, -⟩
    exact hne (List.append_eq_nil_iff.1 heq.symm).1
  | @cons x text entry later _ hrest ih =>
    refine .cons ?_ ih
    split
    · next hx =>
      split
      · next run captures hlonger =>
        obtain ⟨-, hall, rest, htext, hp⟩ := ih.head.sound _ hlonger
        exact .some ⟨by simp, by simpa [hx] using hall, rest, by rw [htext]; rfl, hp⟩
      · next hlonger =>
        constructor
        · intro run hrun
          obtain ⟨captures, hcaptures, rfl⟩ := Option.map_eq_some_iff.1 hrun
          exact ⟨by simp, by simpa using hx, text, rfl, hrest.head.sound _ hcaptures⟩
        · rintro ⟨run, captures⟩ ⟨hne, hall, rest, htext, hp⟩
          rw [Option.isSome_map]
          cases run with
          | nil => exact absurd rfl hne
          | cons y run =>
            obtain ⟨rfl, rfl⟩ := List.cons.inj htext
            cases run with
            | nil => exact hrest.head.complete captures hp
            | cons z run =>
              have hsome := ih.head.complete (z :: run, captures)
                ⟨by simp, fun c hc => hall c (List.mem_cons_of_mem _ hc), rest, rfl, hp⟩
              rw [hlonger] at hsome
              cases hsome
    · next hx =>
      refine .none ?_
      rintro ⟨run, captures⟩ ⟨hne, hall, rest, htext, -⟩
      cases run with
      | nil => exact hne rfl
      | cons y run =>
        obtain ⟨rfl, -⟩ := List.cons.inj htext
        exact hx (hall x (List.mem_cons_self ..))

theorem holds_piece (piece : Piece) (h : Holds P text row) :
    Holds (Before piece.Reads P) text (piece.row text row) := by
  cases piece with
  | literal chars =>
    refine (holds_literal chars h).congr fun suffix captures => ⟨?_, ?_⟩
    · rintro ⟨rest, rfl, hp⟩
      exact ⟨chars, rest, [], captures, rfl, rfl, .literal chars, hp⟩
    · rintro ⟨_, rest, _, later, rfl, rfl, ⟨⟩, hp⟩
      exact ⟨rest, rfl, hp⟩
  | name =>
    refine ((holds_runs _ h).map fun r => some r.1 :: r.2).congr fun suffix captures => ⟨?_, ?_⟩
    · rintro ⟨⟨run, later⟩, rfl, hne, hall, rest, rfl, hp⟩
      refine ⟨run, rest, [some run], later, rfl, rfl, .name hne fun hslash => ?_, hp⟩
      simpa using hall _ hslash
    · rintro ⟨run, rest, captured, later, rfl, rfl, hreads, hp⟩
      cases hreads with
      | name hne hslash =>
        refine ⟨(run, later), rfl, hne, fun c hc => ?_, rest, rfl, hp⟩
        simp only [bne_iff_ne, ne_eq]
        rintro rfl
        exact hslash hc
  | digits =>
    have hrow : Piece.digits.row text row = List.zipWith (fun a b => a <|> b)
        ((runs Text.isDecimalDigit text row).map (Option.map fun r => some r.1 :: r.2))
        (row.map (Option.map (none :: ·))) := by
      rw [List.zipWith_map]
      rfl
    rw [hrow]
    refine (((holds_runs _ h).map fun r => some r.1 :: r.2).orElse (h.map (none :: ·))).congr
      fun suffix captures => ⟨?_, ?_⟩
    · rintro (⟨⟨run, later⟩, rfl, hne, hall, rest, rfl, hp⟩ | ⟨later, rfl, hp⟩)
      · exact ⟨run, rest, [some run], later, rfl, rfl, .digits hne hall, hp⟩
      · exact ⟨[], suffix, [none], later, rfl, rfl, .noDigits, hp⟩
    · rintro ⟨run, rest, captured, later, rfl, rfl, hreads, hp⟩
      cases hreads with
      | digits hne hall => exact .inl ⟨(run, later), rfl, hne, hall, rest, rfl, hp⟩
      | noDigits => exact .inr ⟨later, rfl, hp⟩

/-- Where a row is led past each member of a list, it is led past the list. -/
theorem holds_inOrder {α : Type} {reads : α → List Char → Captures → Prop} {step : α → Row → Row}
    (hstep : ∀ (a : α) {P : List Char → Captures → Prop} {row : Row}, Holds P text row →
      Holds (Before (reads a) P) text (step a row))
    (list : List α) (h : Holds P text row) :
    Holds (Before (InOrder reads list) P) text (list.foldr step row) := by
  induction list with
  | nil =>
    refine h.congr fun suffix captures => ⟨fun hp => ⟨[], suffix, [], captures, rfl, rfl, .nil, hp⟩, ?_⟩
    rintro ⟨_, rest, _, later, rfl, rfl, ⟨⟩, hp⟩
    exact hp
  | cons a list ih =>
    refine (hstep a ih).congr fun suffix captures => ⟨?_, ?_⟩
    · rintro ⟨front, _, captured, _, rfl, rfl, ha, front', rest, captured', later, rfl, rfl, hlist, hp⟩
      exact ⟨front ++ front', rest, captured ++ captured', later, by simp, by simp,
        .cons ha hlist, hp⟩
    · rintro ⟨_, rest, _, later, rfl, rfl, hlist, hp⟩
      cases hlist with
      | cons ha hlist =>
        exact ⟨_, _, _, _, List.append_assoc .., List.append_assoc .., ha, _, _, _, _, rfl, rfl,
          hlist, hp⟩

theorem holds_block (b : Block) (h : Holds P text row) :
    Holds (Before b.Reads P) text (b.row text row) := by
  have hinside : Holds (Before (InOrder Piece.Reads b.pieces) P) text
      (b.pieces.foldr (fun piece row => piece.row text row) row) :=
    holds_inOrder (fun piece {_ _} h => holds_piece piece h) b.pieces h
  cases hoptional : b.optional with
  | false =>
    rw [show b.row text row = b.pieces.foldr (fun piece row => piece.row text row) row from
      if_neg (by simp [hoptional])]
    refine hinside.congr fun suffix captures => ⟨?_, ?_⟩
    · rintro ⟨front, rest, captured, later, htext, hcaptures, hreads, hp⟩
      exact ⟨front, rest, captured, later, htext, hcaptures, .present hreads, hp⟩
    · rintro ⟨front, rest, captured, later, htext, hcaptures, hreads, hp⟩
      cases hreads with
      | present hreads => exact ⟨front, rest, captured, later, htext, hcaptures, hreads, hp⟩
      | absent hmissing =>
        rw [hoptional] at hmissing
        cases hmissing
  | true =>
    have hrow : b.row text row = List.zipWith (fun a b => a <|> b)
        (b.pieces.foldr (fun piece row => piece.row text row) row)
        (row.map (Option.map (List.replicate b.captureCount none ++ ·))) := by
      rw [List.zipWith_map_right]
      exact if_pos hoptional
    rw [hrow]
    refine (hinside.orElse (h.map _)).congr fun suffix captures => ⟨?_, ?_⟩
    · rintro (⟨front, rest, captured, later, htext, hcaptures, hreads, hp⟩ | ⟨later, rfl, hp⟩)
      · exact ⟨front, rest, captured, later, htext, hcaptures, .present hreads, hp⟩
      · exact ⟨[], suffix, _, later, rfl, rfl, .absent hoptional, hp⟩
    · rintro ⟨front, rest, captured, later, rfl, rfl, hreads, hp⟩
      cases hreads with
      | present hreads => exact .inl ⟨front, rest, captured, later, rfl, rfl, hreads, hp⟩
      | absent _ => exact .inr ⟨later, rfl, hp⟩

/-! ## Matches -/

/-- **A text is matched if the pattern reads it, and as the pattern reads it.** -/
theorem finds_captures (pattern : Pattern) (path : List Char) :
    Finds (pattern.Reads path) (pattern.captures? path) := by
  have hrow : Holds (Before (InOrder Block.Reads pattern) _) path _ := holds_inOrder
    (fun block {_ _} h => holds_block block h) pattern (holds_extension path)
  refine hrow.findSome?.congr fun captures => ⟨?_, ?_⟩
  · rintro ⟨front, _, rfl, body, extension, _, _, rfl, rfl, hreads, rfl, hextension⟩
    rw [List.append_nil]
    exact ⟨front, body, extension, rfl, hreads, hextension⟩
  · rintro ⟨front, body, extension, rfl, hreads, hextension⟩
    exact ⟨front, _, rfl, body, extension, captures, [], rfl, (List.append_nil _).symm, hreads, rfl,
      hextension⟩

variable {t : Template} {path : String} {captures : Captures}

/-- What a path gives is one of the ways to read it. -/
theorem reads_of_read? (h : t.read? path = some captures) : t.Reads path captures :=
  pattern_reads_iff.1 ((finds_captures t.pattern path.toList).sound captures h)

/-- **A path gives something just if the template reads it.** -/
theorem read?_isSome_iff : (t.read? path).isSome ↔ ∃ captures, t.Reads path captures := by
  constructor
  · intro h
    obtain ⟨captures, hcaptures⟩ := Option.isSome_iff_exists.1 h
    exact ⟨captures, reads_of_read? hcaptures⟩
  · rintro ⟨captures, h⟩
    exact (finds_captures t.pattern path.toList).complete captures (pattern_reads_iff.2 h)

end SongLibrary.Template
