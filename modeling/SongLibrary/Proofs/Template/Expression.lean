/-
  Patterns as regular expressions.

  * `Expression` are the regular expressions that patterns are written as, `Expression.read?`
    reads the text of one, and numbers its groups in the order in which they open;
  * `Expression.Matches` is what an expression matches, with what its groups have captured;
  * the text of every pattern is that of an expression (`read?_regex`), whose groups are the
    captures of the pattern (`numbers_expression`), and which matches what the pattern reads
    (`search_expression_iff`).
-/
import SongLibrary.Proofs.Template.Grammar

namespace SongLibrary

/-! ## Expressions -/

/-- A set of characters that an expression names. -/
inductive CharacterSet where
  | one (c : Char)
  | notSlash
  | digits
  | lettersAndDigits
  deriving DecidableEq, Repr

/-- Whether a character is in a set. -/
def CharacterSet.contains : CharacterSet → Char → Bool
  | one x, c => c == x
  | notSlash, c => c != '/'
  | digits, c => Text.isDecimalDigit c
  | lettersAndDigits, c => c.isAlphanum

/-- A regular expression, of the kind that patterns are written as. -/
inductive Expression where
  | empty
  | set (k : CharacterSet)
  /-- The end of the text. -/
  | atEnd
  | sequence (first rest : Expression)
  /-- Once or more often. -/
  | repeated (e : Expression)
  | optional (e : Expression)
  /-- A group, with its number if it captures. -/
  | group (number : Option Nat) (e : Expression)
  deriving DecidableEq, Repr

namespace Expression

open Template

/-- Expressions one after the other. -/
def ofList (expressions : List Expression) : Expression :=
  expressions.foldr sequence empty

/-- The numbers of the groups that capture, in the order in which they open. -/
def numbers : Expression → List Nat
  | empty | set _ | atEnd => []
  | sequence first rest => first.numbers ++ rest.numbers
  | repeated e | optional e => e.numbers
  | group number e => number.toList ++ e.numbers

/-- Whether a repetition may follow.  One after another would ask for as little as possible. -/
def isRepeatable : Expression → Bool
  | set _ | group _ _ => true
  | empty | atEnd | sequence _ _ | repeated _ | optional _ => false

/-! ## Reading an expression -/

/-- A part of the text of an expression. -/
inductive Token where
  | set (k : CharacterSet)
  | atEnd
  | plus
  | question
  | opening (captures : Bool)
  | closing
  deriving DecidableEq, Repr

/-- The token of a character after a backslash. -/
def escaped? : List Char → Option (Token × List Char)
  | [] => none
  | c :: rest =>
    if c = 'd' then some (.set .digits, rest)
    else if metaCharacters.contains c then some (.set (.one c), rest)
    else none

/-- The token that a text begins with, and the text after it. -/
def token? : List Char → Option (Token × List Char)
  | [] => none
  | c :: rest =>
    if c = '\\' then escaped? rest
    else if c = '(' then
      if ['?', ':'].isPrefixOf rest then some (.opening false, rest.drop 2)
      else if rest.head? = some '?' then none
      else some (.opening true, rest)
    else if c = '[' then
      if ['^', '/', ']'].isPrefixOf rest then some (.set .notSlash, rest.drop 3)
      else if ['[', ':', 'a', 'l', 'n', 'u', 'm', ':', ']', ']'].isPrefixOf rest then
        some (.set .lettersAndDigits, rest.drop 10)
      else none
    else if c = ')' then some (.closing, rest)
    else if c = '+' then some (.plus, rest)
    else if c = '?' then some (.question, rest)
    else if c = '$' then some (.atEnd, rest)
    else if metaCharacters.contains c then none
    else some (.set (.one c), rest)

theorem length_of_token? {text rest : List Char} {token : Token}
    (h : token? text = some (token, rest)) : rest.length < text.length := by
  have hescaped : ∀ {text : List Char}, escaped? text = some (token, rest) →
      rest.length ≤ text.length := by
    intro text h
    unfold escaped? at h
    split at h
    · cases h
    · split at h
      · cases h
        exact Nat.le_succ _
      · split at h
        · cases h
          exact Nat.le_succ _
        · cases h
  cases text with
  | nil => cases h
  | cons c later =>
    rw [List.length_cons, Nat.lt_succ_iff]
    unfold token? at h
    dsimp only at h
    repeat' split at h
    all_goals first
      | exact hescaped h
      | (cases h; done)
      | (cases h; simp)

/-- The tokens of a text. -/
def tokens (text : List Char) : Option (List Token) :=
  if text = [] then some []
  else
    match _h : token? text with
    | none => none
    | some (token, rest) => (tokens rest).map (token :: ·)
termination_by text.length
decreasing_by exact length_of_token? _h

/-- An expression from its tokens, where groups are numbered from `next` on.  Groups that are
    open have their numbers and what stands before them with them, and `done` is what has
    been read since, the last first. -/
def build : Nat → List (Option Nat × List Expression) → List Expression → List Token →
    Option Expression
  | _, [], done, [] => some (ofList done.reverse)
  | _, _ :: _, _, [] => none
  | next, frames, done, .set k :: rest => build next frames (set k :: done) rest
  | next, frames, done, .atEnd :: rest => build next frames (atEnd :: done) rest
  | next, frames, done, .opening true :: rest => build (next + 1) ((some next, done) :: frames) [] rest
  | next, frames, done, .opening false :: rest => build next ((none, done) :: frames) [] rest
  | _, [], _, .closing :: _ => none
  | next, (number, before) :: frames, done, .closing :: rest =>
    build next frames (group number (ofList done.reverse) :: before) rest
  | _, _, [], .plus :: _ => none
  | next, frames, e :: done, .plus :: rest =>
    if e.isRepeatable then build next frames (repeated e :: done) rest else none
  | _, _, [], .question :: _ => none
  | next, frames, e :: done, .question :: rest =>
    if e.isRepeatable then build next frames (optional e :: done) rest else none

/-- The expression that a text is, if it is one of the kind that patterns are written as. -/
def read? (text : List Char) : Option Expression :=
  (tokens text).bind (build 1 [] [])

/-! ## What an expression matches -/

/-- What the groups of an expression have captured, by their numbers. -/
abbrev Slots := Nat → Option (List Char)

/-- An expression matches what a text begins with, up to another text, with what its groups
    have captured before and after. -/
inductive Matches : Expression → List Char → List Char → Slots → Slots → Prop where
  | empty (text : List Char) (σ : Slots) : Matches empty text text σ σ
  | set {k : CharacterSet} {c : Char} (h : k.contains c) (text : List Char) (σ : Slots) :
      Matches (set k) (c :: text) text σ σ
  | atEnd (σ : Slots) : Matches atEnd [] [] σ σ
  | sequence {first rest : Expression} {t₁ t₂ t₃ : List Char} {σ₁ σ₂ σ₃ : Slots}
      (h₁ : Matches first t₁ t₂ σ₁ σ₂) (h₂ : Matches rest t₂ t₃ σ₂ σ₃) :
      Matches (sequence first rest) t₁ t₃ σ₁ σ₃
  | once {e : Expression} {t₁ t₂ : List Char} {σ₁ σ₂ : Slots} (h : Matches e t₁ t₂ σ₁ σ₂) :
      Matches (repeated e) t₁ t₂ σ₁ σ₂
  | again {e : Expression} {t₁ t₂ t₃ : List Char} {σ₁ σ₂ σ₃ : Slots}
      (h₁ : Matches e t₁ t₂ σ₁ σ₂) (h₂ : Matches (repeated e) t₂ t₃ σ₂ σ₃) :
      Matches (repeated e) t₁ t₃ σ₁ σ₃
  | present {e : Expression} {t₁ t₂ : List Char} {σ₁ σ₂ : Slots} (h : Matches e t₁ t₂ σ₁ σ₂) :
      Matches (optional e) t₁ t₂ σ₁ σ₂
  | absent (e : Expression) (text : List Char) (σ : Slots) : Matches (optional e) text text σ σ
  | group {e : Expression} {t₁ t₂ : List Char} {σ₁ σ₂ : Slots} (h : Matches e t₁ t₂ σ₁ σ₂) :
      Matches (group none e) t₁ t₂ σ₁ σ₂
  | capture {e : Expression} {text t₂ : List Char} {σ₁ σ₂ : Slots} (n : Nat)
      (h : Matches e (text ++ t₂) t₂ σ₁ σ₂) :
      Matches (group (some n) e) (text ++ t₂) t₂ σ₁ fun m => if m = n then some text else σ₂ m

/-- An expression is found somewhere in a text. -/
def Search (e : Expression) (text : List Char) (σ : Slots) : Prop :=
  ∃ front here rest, text = front ++ here ∧ e.Matches here rest (fun _ => none) σ

/-! ## The expressions of patterns -/

end Expression

namespace Template

open Expression (ofList)

/-- The expressions that a piece is written as, where its capture has a number. -/
def Piece.expressions (next : Nat) : Piece → List Expression
  | literal text => text.map fun c => .set (.one c)
  | name => [.group (some next) (ofList [.repeated (.set .notSlash)])]
  | digits => [.optional (.group (some next) (ofList [.repeated (.set .digits)]))]

/-- The expressions of the members of a list, whose captures are numbered from `next` on. -/
def expressionsOf {α : Type} (expressions : Nat → α → List Expression) (count : α → Nat) :
    Nat → List α → List Expression
  | _, [] => []
  | next, a :: rest => expressions next a ++ expressionsOf expressions count (next + count a) rest

/-- The expressions that a block is written as. -/
def Block.expressions (next : Nat) (b : Block) : List Expression :=
  let inner := expressionsOf Piece.expressions Piece.captureCount next b.pieces
  if b.optional then [.optional (.group none (ofList inner))] else inner

/-- The expression that a pattern is written as. -/
def Pattern.expression (pattern : Pattern) : Expression :=
  ofList (expressionsOf Block.expressions Block.captureCount 1 pattern ++
    [.set (.one '.'), .repeated (.set .lettersAndDigits), .atEnd])

/-! ## The text of a pattern -/

/-- The tokens of the text of a piece. -/
def Piece.tokens : Piece → List Expression.Token
  | literal text => text.map fun c => .set (.one c)
  | name => [.opening true, .set .notSlash, .plus, .closing]
  | digits => [.opening true, .set .digits, .plus, .closing, .question]

/-- The tokens of the text of a block. -/
def Block.tokens (b : Block) : List Expression.Token :=
  let inner := b.pieces.flatMap Piece.tokens
  if b.optional then [.opening false] ++ inner ++ [.closing, .question] else inner

end Template

namespace Expression

open Template

theorem tokens_cons {text rest : List Char} {token : Token} (h : token? text = some (token, rest)) :
    tokens text = (tokens rest).map (token :: ·) := by
  have hne : text ≠ [] := by
    rintro rfl
    cases h
  rw [tokens, if_neg hne]
  split
  · next hnone =>
    rw [h] at hnone
    cases hnone
  · next hsome =>
    rw [h] at hsome
    cases hsome
    rfl

/-- The tokens of two texts one after the other, if those of the first end with it. -/
def Reads (text : List Char) (read : List Token) : Prop :=
  ∀ rest, tokens (text ++ rest) = (tokens rest).map (read ++ ·)

namespace Reads

theorem nil : Reads [] [] := by
  intro rest
  cases h : tokens rest <;> simp [h]

theorem append {text text' : List Char} {read read' : List Token} (h : Reads text read)
    (h' : Reads text' read') : Reads (text ++ text') (read ++ read') := by
  intro rest
  rw [List.append_assoc, h, h', Option.map_map]
  simp [Function.comp_def]

theorem cons (text : List Char) {text' : List Char} {token : Token} {read : List Token}
    (htoken : ∀ rest, token? (text ++ rest) = some (token, rest)) (h : Reads text' read) :
    Reads (text ++ text') (token :: read) := by
  intro rest
  rw [List.append_assoc, tokens_cons (htoken _), h, Option.map_map]
  simp [Function.comp_def]

/-- A group captures if no question mark follows the parenthesis. -/
theorem opening {c : Char} (text : List Char) {read : List Token} (hc : c ≠ '?')
    (h : Reads (c :: text) read) : Reads ('(' :: c :: text) (.opening true :: read) := by
  intro rest
  have htoken : token? ('(' :: c :: (text ++ rest)) = some (.opening true, c :: (text ++ rest)) := by
    simp [token?, List.isPrefixOf, Ne.symm hc, hc]
  rw [List.cons_append, List.cons_append, tokens_cons htoken, ← List.cons_append, h, Option.map_map]
  simp [Function.comp_def]

theorem flatMap {α : Type} {text : α → List Char} {read : α → List Token}
    (h : ∀ a, Reads (text a) (read a)) (list : List α) :
    Reads (list.flatMap text) (list.flatMap read) := by
  induction list with
  | nil => exact nil
  | cons a rest ih => exact (h a).append ih

end Reads

/-- A character that has a meaning is written with a backslash before it. -/
theorem token?_escaped {c : Char} (h : metaCharacters.contains c) (rest : List Char) :
    token? ('\\' :: c :: rest) = some (.set (.one c), rest) := by
  have hd : c ≠ 'd' := by
    rintro rfl
    revert h
    decide
  simp only [token?, escaped?, if_true, if_neg hd, h]

/-- A character without a meaning stands for itself. -/
theorem token?_plain {c : Char} (h : metaCharacters.contains c = false) (rest : List Char) :
    token? (c :: rest) = some (.set (.one c), rest) := by
  have hne : ∀ x ∈ metaCharacters, c ≠ x := by
    rintro x hx rfl
    rw [List.contains_iff_mem.2 hx] at h
    cases h
  simp only [token?, h, if_neg (hne '\\' (by decide)), if_neg (hne '(' (by decide)),
    if_neg (hne '[' (by decide)), if_neg (hne ')' (by decide)), if_neg (hne '+' (by decide)),
    if_neg (hne '?' (by decide)), if_neg (hne '$' (by decide)), Bool.false_eq_true, if_false]

theorem reads_escape (text : List Char) :
    Reads (escape text) (text.map fun c => .set (.one c)) := by
  induction text with
  | nil => exact .nil
  | cons c rest ih =>
    rw [escape, List.flatMap_cons, List.map_cons]
    split
    · next h => exact .cons ['\\', c] (token?_escaped h) ih
    · next h => exact .cons [c] (token?_plain (by simpa using h)) ih

theorem reads_piece (piece : Piece) : Reads piece.regex piece.tokens := by
  cases piece with
  | literal text => exact reads_escape text
  | name =>
    refine .opening ['^', '/', ']', '+', ')'] (by decide) ?_
    exact .cons ['[', '^', '/', ']'] (fun _ => rfl) <|
      .cons ['+'] (fun _ => rfl) <| .cons [')'] (fun _ => rfl) .nil
  | digits =>
    refine .opening ['d', '+', ')', '?'] (by decide) ?_
    exact .cons ['\\', 'd'] (fun _ => rfl) <| .cons ['+'] (fun _ => rfl) <|
      .cons [')'] (fun _ => rfl) <| .cons ['?'] (fun _ => rfl) .nil

theorem reads_block (b : Block) : Reads b.regex b.tokens := by
  have hinner := Reads.flatMap reads_piece b.pieces
  unfold Block.regex Block.tokens
  dsimp only
  split
  · refine .append (.append ?_ hinner) ?_
    · exact .cons ['(', '?', ':'] (fun _ => rfl) .nil
    · exact .cons [')'] (fun _ => rfl) <| .cons ['?'] (fun _ => rfl) .nil
  · exact hinner

/-- The tokens of the text of a pattern. -/
theorem tokens_regex (pattern : Pattern) : tokens pattern.regex =
    some (pattern.flatMap Block.tokens ++
      [.set (.one '.'), .set .lettersAndDigits, .plus, .atEnd]) := by
  have hextension : Reads "\\.[[:alnum:]]+$".toList
      [.set (.one '.'), .set .lettersAndDigits, .plus, .atEnd] :=
    .cons ['\\', '.'] (fun _ => rfl) <|
      .cons "[[:alnum:]]".toList (fun _ => rfl) <|
      .cons ['+'] (fun _ => rfl) <| .cons ['$'] (fun _ => rfl) .nil
  have h := ((Reads.flatMap reads_block pattern).append hextension) []
  rwa [List.append_nil, show tokens [] = some [] by rw [tokens, if_pos rfl], Option.map_some,
    List.append_nil] at h

/-! ## The expression of a pattern -/

/-- Tokens that stand for some expressions, wherever they are, and have as many groups that
    capture. -/
def Builds (read : List Token) (expressions : Nat → List Expression) (count : Nat) : Prop :=
  ∀ next frames done rest, build next frames done (read ++ rest) =
    build (next + count) frames ((expressions next).reverse ++ done) rest

theorem builds_piece (piece : Piece) :
    Builds piece.tokens (fun next => piece.expressions next) piece.captureCount := by
  intro next frames done rest
  cases piece with
  | literal text =>
    simp only [Piece.tokens, Piece.expressions, Piece.captureCount, Nat.add_zero]
    induction text generalizing done with
    | nil => rfl
    | cons c text ih =>
      rw [List.map_cons, List.cons_append, build, ih, List.map_cons, List.reverse_cons,
        List.append_assoc, List.singleton_append]
  | name => simp [Piece.tokens, Piece.expressions, Piece.captureCount, build, isRepeatable]
  | digits => simp [Piece.tokens, Piece.expressions, Piece.captureCount, build, isRepeatable]

theorem builds_list {α : Type} {read : α → List Token} {expressions : Nat → α → List Expression}
    {count : α → Nat} (h : ∀ a, Builds (read a) (fun next => expressions next a) (count a))
    (list : List α) : Builds (list.flatMap read)
      (fun next => expressionsOf expressions count next list) (list.map count).sum := by
  induction list with
  | nil => intro next frames done rest; rfl
  | cons a list ih =>
    intro next frames done rest
    rw [List.flatMap_cons, List.append_assoc, h, ih, List.map_cons, List.sum_cons, ← Nat.add_assoc]
    simp only [expressionsOf, List.reverse_append, List.append_assoc]

theorem builds_block (b : Block) :
    Builds b.tokens (fun next => b.expressions next) b.captureCount := by
  have hinner := builds_list builds_piece b.pieces
  rw [b.captureCount_eq]
  unfold Block.tokens Block.expressions
  dsimp only
  split
  · intro next frames done rest
    rw [List.append_assoc, List.append_assoc, List.singleton_append, build, hinner]
    simp [build, isRepeatable]
  · exact hinner

/-- **The text of a pattern is that of its expression.** -/
theorem read?_regex (pattern : Pattern) : read? pattern.regex = some pattern.expression := by
  rw [read?, tokens_regex, Option.bind_some, builds_list builds_block]
  simp [build, isRepeatable, Pattern.expression]

/-! ## The groups of a pattern -/

theorem numbers_ofList (expressions : List Expression) :
    (ofList expressions).numbers = expressions.flatMap numbers := by
  induction expressions with
  | nil => rfl
  | cons e rest ih => rw [List.flatMap_cons, ← ih]; rfl

theorem numbers_piece (next : Nat) (piece : Piece) :
    (piece.expressions next).flatMap numbers = List.range' next piece.captureCount := by
  cases piece with
  | literal text =>
    simp only [Piece.expressions, Piece.captureCount, List.range'_zero, List.flatMap_map, numbers]
    simp
  | name => rfl
  | digits => rfl

theorem numbers_list {α : Type} {expressions : Nat → α → List Expression} {count : α → Nat}
    (h : ∀ next a, (expressions next a).flatMap numbers = List.range' next (count a)) (next : Nat)
    (list : List α) : (expressionsOf expressions count next list).flatMap numbers =
      List.range' next (list.map count).sum := by
  induction list generalizing next with
  | nil => rfl
  | cons a list ih =>
    simp only [expressionsOf, List.flatMap_append, h, ih, List.map_cons, List.sum_cons,
      List.range'_append_1]

theorem numbers_block (next : Nat) (b : Block) :
    (b.expressions next).flatMap numbers = List.range' next b.captureCount := by
  have hinner := numbers_list numbers_piece next b.pieces
  rw [b.captureCount_eq, ← hinner]
  unfold Block.expressions
  dsimp only
  split
  · simp [numbers, numbers_ofList]
  · rfl

/-- **The groups of a pattern that capture are its captures**, numbered in order. -/
theorem numbers_expression (pattern : Pattern) :
    pattern.expression.numbers = List.range' 1 (pattern.map Block.captureCount).sum := by
  rw [Pattern.expression, numbers_ofList, List.flatMap_append, numbers_list numbers_block]
  simp [numbers]

/-! ## What a pattern matches -/

/-- What is captured from a number on. -/
def assign (σ : Slots) (next : Nat) (captures : Captures) : Slots := fun n =>
  if n < next then σ n else captures[n - next]?.join

/-- Nothing is captured from a number on. -/
def Fresh (σ : Slots) (next : Nat) : Prop :=
  ∀ n, next ≤ n → σ n = none

theorem assign_nil {σ : Slots} {next : Nat} (h : Fresh σ next) : assign σ next [] = σ := by
  funext n
  unfold assign
  split
  · rfl
  · next hn => rw [h n (by omega)]; rfl

theorem assign_append (σ : Slots) (next : Nat) (captures captures' : Captures) :
    assign (assign σ next captures) (next + captures.length) captures' =
      assign σ next (captures ++ captures') := by
  funext n
  unfold assign
  by_cases hn : n < next
  · simp [hn, show n < next + captures.length by omega]
  · by_cases hlt : n < next + captures.length
    · rw [if_pos hlt, if_neg hn, if_neg hn, List.getElem?_append_left (by omega)]
    · rw [if_neg hlt, if_neg hn, List.getElem?_append_right (by omega)]
      congr 2
      omega

theorem assign_fresh {σ : Slots} (next : Nat) (captures : Captures) :
    Fresh (assign σ next captures) (next + captures.length) := by
  intro n hn
  unfold assign
  rw [if_neg (by omega), List.getElem?_eq_none (by omega)]
  rfl

theorem assign_replicate {σ : Slots} {next : Nat} (h : Fresh σ next) (count : Nat) :
    assign σ next (List.replicate count none) = σ := by
  funext n
  unfold assign
  split
  · rfl
  · next hn =>
    rw [h n (by omega), List.getElem?_replicate]
    split <;> rfl

theorem matches_append {expressions expressions' : List Expression} {t₁ t₃ : List Char}
    {σ₁ σ₃ : Slots} : (ofList (expressions ++ expressions')).Matches t₁ t₃ σ₁ σ₃ ↔
      ∃ t₂ σ₂, (ofList expressions).Matches t₁ t₂ σ₁ σ₂ ∧ (ofList expressions').Matches t₂ t₃ σ₂ σ₃ := by
  induction expressions generalizing t₁ σ₁ with
  | nil =>
    constructor
    · intro h
      exact ⟨t₁, σ₁, .empty t₁ σ₁, h⟩
    · rintro ⟨_, _, ⟨⟩, h⟩
      exact h
  | cons e rest ih =>
    constructor
    · intro h
      cases h with
      | sequence he hrest =>
        obtain ⟨t₂, σ₂, hrest, h'⟩ := ih.1 hrest
        exact ⟨t₂, σ₂, .sequence he hrest, h'⟩
    · rintro ⟨t₂, σ₂, h, h'⟩
      cases h with
      | sequence he hrest => exact .sequence he (ih.2 ⟨t₂, σ₂, hrest, h'⟩)

theorem matches_singleton {e : Expression} {t₁ t₂ : List Char} {σ₁ σ₂ : Slots} :
    (ofList [e]).Matches t₁ t₂ σ₁ σ₂ ↔ e.Matches t₁ t₂ σ₁ σ₂ := by
  constructor
  · intro h
    cases h with
    | sequence he hempty =>
      cases hempty
      exact he
  · exact fun h => .sequence h (.empty t₂ σ₂)

/-- A set that is repeated matches a run of its characters. -/
theorem matches_run {k : CharacterSet} {t₁ t₂ : List Char} {σ₁ σ₂ : Slots} :
    (repeated (set k)).Matches t₁ t₂ σ₁ σ₂ ↔
      σ₂ = σ₁ ∧ ∃ run, t₁ = run ++ t₂ ∧ run ≠ [] ∧ ∀ c ∈ run, k.contains c := by
  constructor
  · intro h
    generalize he : repeated (set k) = e at h
    induction h with
    | once h _ =>
      cases he
      cases h with
      | @set _ c hc _ _ => exact ⟨rfl, [c], rfl, by simp, by simpa using hc⟩
    | again h₁ _ _ ih =>
      cases he
      obtain ⟨rfl, run, rfl, -, hall⟩ := ih rfl
      cases h₁ with
      | @set _ c hc _ _ => exact ⟨rfl, c :: run, rfl, by simp, by simpa [hc] using hall⟩
    | _ => cases he
  · rintro ⟨rfl, run, rfl, hne, hall⟩
    induction run with
    | nil => exact absurd rfl hne
    | cons c run ih =>
      have hc : k.contains c := hall c (List.mem_cons_self ..)
      cases run with
      | nil => exact .once (.set hc _ _)
      | cons d run =>
        exact .again (.set hc _ _) (ih (by simp) fun x hx => hall x (List.mem_cons_of_mem _ hx))

/-- A group of a run captures it. -/
theorem matches_capture {k : CharacterSet} {next : Nat} {t₁ t₂ : List Char} {σ₁ σ₂ : Slots}
    (hfresh : Fresh σ₁ next) :
    (group (some next) (ofList [repeated (set k)])).Matches t₁ t₂ σ₁ σ₂ ↔
      ∃ run, t₁ = run ++ t₂ ∧ run ≠ [] ∧ (∀ c ∈ run, k.contains c) ∧
        σ₂ = assign σ₁ next [some run] := by
  have hassign : ∀ run : List Char, (fun m => if m = next then some run else σ₁ m) =
      assign σ₁ next [some run] := by
    intro run
    funext m
    unfold assign
    by_cases hlt : m < next
    · rw [if_pos hlt, if_neg (by omega)]
    · rw [if_neg hlt]
      by_cases hm : m = next
      · subst hm
        simp
      · rw [if_neg hm, hfresh m (by omega), List.getElem?_eq_none (by simp; omega)]
        rfl
  constructor
  · intro h
    cases h with
    | capture _ h =>
      obtain ⟨rfl, run, hrun, hne, hall⟩ := matches_run.1 (matches_singleton.1 h)
      obtain rfl := List.append_cancel_right hrun
      exact ⟨_, rfl, hne, hall, hassign _⟩
  · rintro ⟨run, rfl, hne, hall, rfl⟩
    rw [← hassign]
    exact .capture next (matches_singleton.2 (matches_run.2 ⟨rfl, run, rfl, hne, hall⟩))

/-- Expressions match what is read, and capture what is captured. -/
def Renders (expressions : Nat → List Expression) (reads : List Char → Captures → Prop) : Prop :=
  ∀ next t₁ t₂ σ₁ σ₂, Fresh σ₁ next → ((ofList (expressions next)).Matches t₁ t₂ σ₁ σ₂ ↔
    ∃ text captures, t₁ = text ++ t₂ ∧ reads text captures ∧ σ₂ = assign σ₁ next captures)

theorem matches_literal (text : List Char) {t₁ t₂ : List Char} {σ₁ σ₂ : Slots} :
    (ofList (text.map fun c => set (.one c))).Matches t₁ t₂ σ₁ σ₂ ↔ t₁ = text ++ t₂ ∧ σ₂ = σ₁ := by
  induction text generalizing t₁ with
  | nil =>
    constructor
    · rintro ⟨⟩
      exact ⟨rfl, rfl⟩
    · rintro ⟨rfl, rfl⟩
      exact .empty _ _
  | cons c text ih =>
    constructor
    · intro h
      cases h with
      | sequence hc hrest =>
        cases hc with
        | set hc _ _ =>
          obtain ⟨rfl, rfl⟩ := ih.1 hrest
          rw [eq_of_beq hc]
          exact ⟨rfl, rfl⟩
    · rintro ⟨rfl, rfl⟩
      exact .sequence (.set (k := .one c) (beq_self_eq_true c) _ _) (ih.2 ⟨rfl, rfl⟩)

theorem renders_piece (piece : Piece) :
    Renders (fun next => piece.expressions next) piece.Reads := by
  intro next t₁ t₂ σ₁ σ₂ hfresh
  cases piece with
  | literal text =>
    refine (matches_literal text).trans ⟨?_, ?_⟩
    · rintro ⟨rfl, rfl⟩
      exact ⟨text, [], rfl, .literal text, (assign_nil hfresh).symm⟩
    · rintro ⟨_, _, rfl, ⟨⟩, rfl⟩
      exact ⟨rfl, assign_nil hfresh⟩
  | name =>
    refine (matches_singleton.trans (matches_capture hfresh)).trans ⟨?_, ?_⟩
    · rintro ⟨run, rfl, hne, hall, rfl⟩
      refine ⟨run, [some run], rfl, .name hne fun hslash => ?_, rfl⟩
      have hother := hall _ hslash
      simp [CharacterSet.contains] at hother
    · rintro ⟨text, captures, rfl, hreads, rfl⟩
      cases hreads with
      | name hne hslash =>
        refine ⟨text, rfl, hne, fun c hc => ?_, rfl⟩
        simp only [CharacterSet.contains, bne_iff_ne, ne_eq]
        rintro rfl
        exact hslash hc
  | digits =>
    refine matches_singleton.trans ⟨?_, ?_⟩
    · intro h
      cases h with
      | present h =>
        obtain ⟨run, rfl, hne, hall, rfl⟩ := (matches_capture hfresh).1 h
        exact ⟨run, _, rfl, .digits hne hall, rfl⟩
      | absent _ _ _ => exact ⟨[], _, rfl, .noDigits, (assign_replicate hfresh 1).symm⟩
    · rintro ⟨text, captures, rfl, h, rfl⟩
      cases h with
      | digits hne hall => exact .present ((matches_capture hfresh).2 ⟨text, rfl, hne, hall, rfl⟩)
      | noDigits =>
        rw [show assign σ₁ next [none] = σ₁ from assign_replicate hfresh 1]
        exact .absent _ _ _

theorem renders_list {α : Type} {expressions : Nat → α → List Expression} {count : α → Nat}
    {reads : α → List Char → Captures → Prop}
    (h : ∀ a, Renders (fun next => expressions next a) (reads a))
    (hcount : ∀ a text captures, reads a text captures → captures.length = count a)
    (list : List α) :
    Renders (fun next => expressionsOf expressions count next list) (InOrder reads list) := by
  -- By induction on the parts: the groups of a part are fresh when it is matched.
  induction list with
  | nil =>
    intro next t₁ t₂ σ₁ σ₂ hfresh
    constructor
    · rintro ⟨⟩
      exact ⟨[], [], rfl, .nil, (assign_nil hfresh).symm⟩
    · rintro ⟨_, _, rfl, ⟨⟩, rfl⟩
      rw [assign_nil hfresh]
      exact .empty _ _
  | cons a list ih =>
    intro next t₁ t₃ σ₁ σ₃ hfresh
    have hlater : ∀ {captures}, captures.length = count a →
        Fresh (assign σ₁ next captures) (next + count a) :=
      fun hlength => hlength ▸ assign_fresh next _
    refine matches_append.trans ⟨?_, ?_⟩
    · rintro ⟨t₂, σ₂, ha, hlist⟩
      obtain ⟨text, captures, rfl, hreads, rfl⟩ := (h a next _ _ _ _ hfresh).1 ha
      have hlength := hcount a _ _ hreads
      obtain ⟨text', captures', rfl, hreads', rfl⟩ := (ih _ _ _ _ _ (hlater hlength)).1 hlist
      refine ⟨text ++ text', captures ++ captures', (List.append_assoc ..).symm,
        .cons hreads hreads', ?_⟩
      rw [← hlength, assign_append]
    · rintro ⟨_, _, rfl, hreads, rfl⟩
      cases hreads with
      | @cons _ _ text text' captures captures' hreads hreads' =>
        have hlength := hcount a _ _ hreads
        refine ⟨text' ++ t₃, assign σ₁ next captures, (h a next _ _ _ _ hfresh).2
          ⟨text, captures, List.append_assoc .., hreads, rfl⟩,
          (ih _ _ _ _ _ (hlater hlength)).2 ⟨text', captures', rfl, hreads', ?_⟩⟩
        rw [← hlength, assign_append]

theorem renders_block (b : Block) : Renders (fun next => b.expressions next) b.Reads := by
  intro next t₁ t₂ σ₁ σ₂ hfresh
  have hinner := renders_list renders_piece (fun _ _ _ h => h.length_captures) b.pieces next t₁ t₂
    σ₁ σ₂ hfresh
  unfold Block.expressions
  dsimp only at hinner ⊢
  cases hoptional : b.optional with
  | false =>
    rw [if_neg Bool.false_ne_true]
    refine hinner.trans ⟨?_, ?_⟩
    · rintro ⟨text, captures, rfl, hreads, rfl⟩
      exact ⟨text, captures, rfl, .present hreads, rfl⟩
    · rintro ⟨text, captures, rfl, hreads, rfl⟩
      cases hreads with
      | present hreads => exact ⟨text, captures, rfl, hreads, rfl⟩
      | absent hmissing =>
        rw [hoptional] at hmissing
        cases hmissing
  | true =>
    rw [if_pos rfl]
    refine matches_singleton.trans ⟨?_, ?_⟩
    · intro h
      cases h with
      | present h =>
        cases h with
        | group h =>
          obtain ⟨text, captures, rfl, hreads, rfl⟩ := hinner.1 h
          exact ⟨text, captures, rfl, .present hreads, rfl⟩
      | absent _ _ _ => exact ⟨[], _, rfl, .absent hoptional, (assign_replicate hfresh _).symm⟩
    · rintro ⟨text, captures, rfl, hreads, rfl⟩
      cases hreads with
      | present hreads => exact .present (.group (hinner.2 ⟨text, captures, rfl, hreads, rfl⟩))
      | absent _ =>
        rw [assign_replicate hfresh]
        exact .absent _ _ _

/-- A dot, and letters and digits up to the end of a text. -/
theorem matches_extension {t₁ t₂ : List Char} {σ₁ σ₂ : Slots} :
    (ofList [set (.one '.'), repeated (set .lettersAndDigits), atEnd]).Matches t₁ t₂ σ₁ σ₂ ↔
      t₂ = [] ∧ σ₂ = σ₁ ∧ IsExtension t₁ := by
  constructor
  · intro h
    cases h with
    | sequence hdot hrest =>
      cases hdot with
      | set hdot _ _ =>
        cases hrest with
        | sequence hrun hend =>
          obtain ⟨rfl, run, rfl, hne, hall⟩ := matches_run.1 hrun
          cases matches_singleton.1 hend
          rw [List.append_nil, eq_of_beq hdot]
          exact ⟨rfl, rfl, run, rfl, hne, hall⟩
  · rintro ⟨rfl, rfl, run, rfl, hne, hall⟩
    refine .sequence (.set (k := .one '.') (beq_self_eq_true '.') _ _)
      (.sequence (matches_run.2 ⟨rfl, run, ?_, hne, hall⟩) (matches_singleton.2 (.atEnd _)))
    rw [List.append_nil]

/-- **The expression of a pattern is found where the pattern reads a text**, and its groups
    capture what the pattern captures. -/
theorem search_expression_iff {pattern : Pattern} {path : List Char} {σ : Slots} :
    pattern.expression.Search path σ ↔
      ∃ captures, pattern.Reads path captures ∧ σ = assign (fun _ => none) 1 captures := by
  have hblocks := renders_list renders_block (fun _ _ _ h => h.length_captures) pattern 1
  have hfresh : Fresh (fun _ => none) 1 := fun _ _ => rfl
  constructor
  · rintro ⟨front, here, rest, rfl, h⟩
    obtain ⟨_, _, hbody, hextension⟩ := matches_append.1 h
    obtain ⟨body, captures, rfl, hreads, rfl⟩ := (hblocks _ _ _ _ hfresh).1 hbody
    obtain ⟨rfl, rfl, hsuffix⟩ := matches_extension.1 hextension
    exact ⟨captures, ⟨front, body, _, rfl, hreads, hsuffix⟩, rfl⟩
  · rintro ⟨captures, ⟨front, body, extension, rfl, hreads, hextension⟩, rfl⟩
    exact ⟨front, _, [], rfl, matches_append.2 ⟨extension, _,
      (hblocks _ _ _ _ hfresh).2 ⟨body, captures, rfl, hreads, rfl⟩,
      matches_extension.2 ⟨rfl, rfl, hextension⟩⟩⟩

end Expression

end SongLibrary
