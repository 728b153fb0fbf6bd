/-
  What a pattern prefers to match.

  * `Pattern.attempt` tries a pattern at the beginning of a text the way that it is read: runs
    of characters are tried the longest first, and an optional block is tried before it is left
    out;
  * `Pattern.captures?_eq_findSome?`: a pattern captures what it finds so at the first place
    where it finds anything;
  * `longestRun_stop` and `longestRun_of_last` tell how far a run goes.
-/
import Mathlib.Data.List.Infix
import SongLibrary.Template.Pattern

namespace SongLibrary.Template

/-- What is captured at the beginning of a text, if anything is found there. -/
abbrev Finder := List Char → Option Captures

/-! ## Trying -/

/-- The longest run of characters satisfying `p` at the beginning of a text after which
    something is found, with what is found there. -/
def longestRun (p : Char → Bool) (next : Finder) : List Char → Option (List Char × Captures)
  | [] => none
  | x :: text =>
    if p x then
      match longestRun p next text with
      | some (run, captures) => some (x :: run, captures)
      | none => (next text).map ([x], ·)
    else none

/-- Literal text, and something after it. -/
def literalThen : List Char → Finder → Finder
  | [], next, text => next text
  | _ :: _, _, [] => none
  | c :: chars, next, x :: text => if x = c then literalThen chars next text else none

/-- A piece, and something after it. -/
def Piece.attempt (piece : Piece) (next : Finder) : Finder :=
  match piece with
  | literal chars => literalThen chars next
  | name => fun text => (longestRun (· != '/') next text).map fun r => some r.1 :: r.2
  | digits => fun text =>
    ((longestRun Text.isDecimalDigit next text).map fun r => some r.1 :: r.2) <|>
      (next text).map (none :: ·)

/-- A block, and something after it. -/
def Block.attempt (b : Block) (next : Finder) : Finder :=
  let inside := b.pieces.foldr Piece.attempt next
  if b.optional then fun text =>
    inside text <|> (next text).map (List.replicate b.captureCount none ++ ·)
  else inside

/-- An extension, and nothing after it. -/
def findExtension : Finder
  | [] => none
  | c :: rest =>
    if c == '.' && !rest.isEmpty && rest.all Char.isAlphanum then some [] else none

/-- The blocks of a pattern, and an extension after them. -/
def Pattern.attempt (pattern : Pattern) : Finder :=
  pattern.foldr Block.attempt findExtension

/-! ## Rows of what is found -/

theorem extensionRow_eq (text : List Char) : extensionRow text = text.tails.map findExtension := by
  induction text with
  | nil => rfl
  | cons c rest ih => rw [extensionRow, ih]; rfl

/-- The first value of a row is that for the text itself. -/
theorem head?_tails {α : Type} (find : List Char → Option α) (text : List Char) :
    (text.tails.map find).head?.join = find text := by
  cases text <;> rfl

theorem characterRow_eq (c : Char) (next : Finder) (text : List Char) :
    characterRow c text (text.tails.map next) = text.tails.map (literalThen [c] next) := by
  induction text with
  | nil => rfl
  | cons x text ih =>
    rw [List.tails, List.map_cons, characterRow, ih, head?_tails]
    rfl

theorem literalThen_cons (c : Char) (chars : List Char) (next : Finder) :
    literalThen (c :: chars) next = literalThen [c] (literalThen chars next) := by
  funext text
  cases text <;> rfl

theorem runs_eq (p : Char → Bool) (next : Finder) (text : List Char) :
    runs p text (text.tails.map next) = text.tails.map (longestRun p next) := by
  induction text with
  | nil => rfl
  | cons x text ih =>
    rw [List.tails, List.map_cons, runs, ih, head?_tails, head?_tails]
    rfl

theorem row_piece (piece : Piece) (next : Finder) (text : List Char) :
    piece.row text (text.tails.map next) = text.tails.map (piece.attempt next) := by
  cases piece with
  | literal chars =>
    change chars.foldr (fun c row => characterRow c text row) _ = text.tails.map (literalThen chars next)
    induction chars with
    | nil => rfl
    | cons c chars ih => rw [List.foldr_cons, ih, characterRow_eq, ← literalThen_cons]
  | name =>
    change (runs _ text _).map _ = _
    rw [runs_eq, List.map_map]
    rfl
  | digits =>
    change List.zipWith _ (runs _ text _) _ = _
    rw [runs_eq, List.zipWith_map, List.zipWith_self]
    rfl

/-- Where each member of a list leads from one row to another, so does the list. -/
theorem row_foldr {α : Type} (row : α → Row → Row) {attempt : α → Finder → Finder}
    {text : List Char}
    (h : ∀ a next, row a (text.tails.map next) = text.tails.map (attempt a next)) (list : List α)
    (next : Finder) :
    list.foldr row (text.tails.map next) = text.tails.map (list.foldr attempt next) := by
  induction list with
  | nil => rfl
  | cons a list ih => rw [List.foldr_cons, ih, h, List.foldr_cons]

theorem row_block (b : Block) (next : Finder) (text : List Char) :
    b.row text (text.tails.map next) = text.tails.map (b.attempt next) := by
  have hinside := row_foldr (fun piece row => piece.row text row)
    (fun piece next => row_piece piece next text) b.pieces next
  unfold Block.row Block.attempt
  dsimp only
  rw [hinside]
  split
  · rw [List.zipWith_map, List.zipWith_self]
  · rfl

/-- **A pattern captures what it finds at the first place** where it finds anything. -/
theorem Pattern.captures?_eq_findSome? (pattern : Pattern) (text : List Char) :
    pattern.captures? text = text.tails.findSome? pattern.attempt := by
  have hrow := row_foldr (fun block row => block.row text row)
    (fun block next => row_block block next text) pattern findExtension
  rw [captures?, extensionRow_eq, hrow, List.findSome?_map]
  rfl

/-- What is found at the beginning of a text is what a pattern captures. -/
theorem Pattern.captures?_of_attempt {pattern : Pattern} {text : List Char} {captures : Captures}
    (h : pattern.attempt text = some captures) : pattern.captures? text = some captures := by
  rw [captures?_eq_findSome?]
  cases text <;> simp [List.tails, h]

/-- Where nothing is found at the places before a text, what is found first is found in it. -/
theorem findSome?_tails_append {α : Type} {find : List Char → Option α} (front text : List Char)
    (h : ∀ suffix, suffix <:+ front → suffix ≠ [] → find (suffix ++ text) = none) :
    (front ++ text).tails.findSome? find = text.tails.findSome? find := by
  induction front with
  | nil => rfl
  | cons x front ih =>
    have hfirst : find (x :: front ++ text) = none := h _ (List.suffix_refl _) (by simp)
    have hrest := ih fun suffix hsuffix => h suffix (hsuffix.trans (List.suffix_cons ..))
    rw [List.cons_append] at hfirst
    rw [List.cons_append, List.tails, List.findSome?_cons, hfirst, hrest]

/-! ## How far a run goes -/

section

variable {p : Char → Bool} {next : Finder} {run rest : List Char}

theorem longestRun_cons_of_neg {x : Char} (hx : p x = false) (text : List Char) :
    longestRun p next (x :: text) = none := by
  simp [longestRun, hx]

/-- A run is one, and something is found after it. -/
theorem longestRun_sound {text : List Char} {captures : Captures}
    (h : longestRun p next text = some (run, captures)) :
    (∀ x ∈ run, p x) ∧ ∃ rest, text = run ++ rest ∧ next rest = some captures := by
  induction text generalizing run with
  | nil => cases h
  | cons x text ih =>
    rw [longestRun] at h
    split at h
    · next hx =>
      split at h
      · next longer later hlonger =>
        cases h
        obtain ⟨hrun, rest, rfl, hrest⟩ := ih hlonger
        exact ⟨by simpa [hx] using hrun, rest, rfl, hrest⟩
      · next hshort =>
        obtain ⟨later, hlater, heq⟩ := Option.map_eq_some_iff.1 h
        cases heq
        exact ⟨by simpa using hx, text, rfl, hlater⟩
    · cases h

theorem longestRun_eq_none {text : List Char} (h : ∀ rest, rest <:+ text → next rest = none) :
    longestRun p next text = none := by
  induction text with
  | nil => rfl
  | cons x text ih =>
    have hrest := ih fun rest hrest => h rest (hrest.trans (List.suffix_cons ..))
    have hnext : next text = none := h text (List.suffix_cons ..)
    simp [longestRun, hrest, hnext]

/-- A run goes as far as to a place where something is found, if it does not go on there. -/
theorem longestRun_of_last {captures : Captures} (hne : run ≠ []) (hrun : ∀ x ∈ run, p x)
    (hnext : next rest = some captures) (hlast : longestRun p next rest = none) :
    longestRun p next (run ++ rest) = some (run, captures) := by
  induction run with
  | nil => exact absurd rfl hne
  | cons x run ih =>
    have hx : p x := hrun x (List.mem_cons_self ..)
    cases run with
    | nil => simp [longestRun, hx, hlast, hnext]
    | cons y run =>
      have hlonger := ih (by simp) fun z hz => hrun z (List.mem_cons_of_mem _ hz)
      rw [List.cons_append, longestRun, if_pos hx, hlonger]

/-- **A run goes as far as it can** where what comes after it cannot begin inside of it. -/
theorem longestRun_stop {c : Char} (hne : run ≠ []) (hrun : ∀ x ∈ run, p x) (hc : p c = false)
    (hnext : ∀ x text, p x → next (x :: text) = none) :
    longestRun p next (run ++ c :: rest) = (next (c :: rest)).map (run, ·) := by
  induction run with
  | nil => exact absurd rfl hne
  | cons x run ih =>
    have hx : p x := hrun x (List.mem_cons_self ..)
    cases run with
    | nil => rw [List.singleton_append, longestRun, if_pos hx, longestRun_cons_of_neg hc]
    | cons y run =>
      have hy : p y := hrun y (by simp)
      have hlonger := ih (by simp) fun z hz => hrun z (List.mem_cons_of_mem _ hz)
      rw [List.cons_append, longestRun, if_pos hx, hlonger, List.cons_append, hnext y _ hy]
      cases next (c :: rest) <;> rfl

end

/-! ## What is found after literal text, and at an extension -/

theorem literalThen_isSome {chars text : List Char} {next : Finder}
    (h : (literalThen chars next text).isSome) : ∃ rest, text = chars ++ rest := by
  induction chars generalizing text with
  | nil => exact ⟨text, rfl⟩
  | cons c chars ih =>
    cases text with
    | nil => cases h
    | cons x text =>
      rw [literalThen] at h
      split at h
      · next hx =>
        obtain ⟨rest, rfl⟩ := ih h
        exact ⟨rest, by rw [hx]; rfl⟩
      · cases h

theorem literalThen_of_ne {c x : Char} (h : x ≠ c) (chars text : List Char) (next : Finder) :
    literalThen (c :: chars) next (x :: text) = none := by
  rw [literalThen, if_neg h]

theorem findExtension_of_not_mem {text : List Char} (h : '.' ∉ text) : findExtension text = none := by
  cases text with
  | nil => rfl
  | cons c text =>
    have hc : c ≠ '.' := fun heq => h (heq ▸ List.mem_cons_self ..)
    simp [findExtension, hc]

end SongLibrary.Template
