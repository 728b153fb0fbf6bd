/-
  White space and trimming.

  * `isBlank` is membership in the Unicode property `White_Space`;
  * `dropEndWhile p` removes the longest suffix whose characters satisfy `p`:
    it leaves a prefix (`dropEndWhile_prefix`) whose last character, if any,
    does not satisfy `p` (`dropEndWhile_getLast?`);
  * `trim` removes blanks at both ends, and leaves text without them as it is (`trim_eq_self`).
-/

namespace SongLibrary.Text

/-! ## Dropping at the end -/

/-- The list without its longest suffix of elements satisfying `p`. -/
def dropEndWhile {α : Type} (p : α → Bool) : List α → List α
  | [] => []
  | a :: rest => match dropEndWhile p rest with
    | [] => if p a then [] else [a]
    | kept => a :: kept

variable {α : Type} (p : α → Bool)

theorem dropEndWhile_cons (a : α) (l : List α) : dropEndWhile p (a :: l) =
    if dropEndWhile p l = [] then (if p a then [] else [a]) else a :: dropEndWhile p l := by
  simp only [dropEndWhile]
  split <;> simp_all

/-- What is kept is a prefix. -/
theorem dropEndWhile_prefix (l : List α) : dropEndWhile p l <+: l := by
  induction l with
  | nil => simp [dropEndWhile]
  | cons a l ih =>
    rw [dropEndWhile_cons]
    split
    · split <;> simp
    · simpa using ih

/-- **What is kept does not end in an element satisfying `p`.** -/
theorem dropEndWhile_getLast? (l : List α) : ∀ a ∈ (dropEndWhile p l).getLast?, p a = false := by
  induction l with
  | nil => simp [dropEndWhile]
  | cons a l ih =>
    rw [dropEndWhile_cons]
    split
    · split <;> simp_all
    · rename_i h
      obtain ⟨b, r, hb⟩ := List.exists_cons_of_ne_nil h
      simpa [hb] using ih

/-- A list that does not end in an element satisfying `p` is kept whole. -/
theorem dropEndWhile_eq_self {l : List α} (h : ∀ a ∈ l.getLast?, p a = false) :
    dropEndWhile p l = l := by
  induction l with
  | nil => rfl
  | cons a l ih =>
    cases l with
    | nil => simpa [dropEndWhile] using h
    | cons b r =>
      rw [dropEndWhile_cons, ih (by simpa using h)]
      simp

/-! ## Blanks -/

/-- Whether a character has the Unicode property `White_Space`. -/
def isBlank (c : Char) : Bool :=
  let n := c.toNat
  (0x09 ≤ n && n ≤ 0x0D) || n == 0x20 || n == 0x85 || n == 0xA0 || n == 0x1680 ||
    (0x2000 ≤ n && n ≤ 0x200A) || n == 0x2028 || n == 0x2029 || n == 0x202F || n == 0x205F ||
    n == 0x3000

/-- Every blank of the core library is one of Unicode's. -/
theorem isBlank_of_isWhitespace {c : Char} (h : c.isWhitespace) : isBlank c := by
  simp only [Char.isWhitespace, Bool.or_eq_true, decide_eq_true_eq] at h
  rcases h with ((rfl | rfl) | rfl) | rfl <;> decide

/-- The text without the blanks at its ends. -/
def trim (text : List Char) : List Char :=
  dropEndWhile isBlank (text.dropWhile isBlank)

theorem not_isBlank_of_isDigit {c : Char} (h : c.isDigit) : isBlank c = false := by
  simp only [Char.isDigit, Bool.and_eq_true, decide_eq_true_eq, UInt32.le_iff_toNat_le] at h
  obtain ⟨hlow, hhigh⟩ := h
  have hlow' : 48 ≤ c.toNat := hlow
  have hhigh' : c.toNat ≤ 57 := hhigh
  simp only [isBlank, Bool.or_eq_false_iff, Bool.and_eq_false_iff, decide_eq_false_iff_not,
    beq_eq_false_iff_ne]
  omega

/-- Text without blanks is left as it is. -/
theorem trim_eq_self {text : List Char} (h : ∀ c ∈ text, isBlank c = false) : trim text = text := by
  have hstart : text.dropWhile isBlank = text := by
    cases text with
    | nil => rfl
    | cons c rest =>
      rw [List.dropWhile_cons_of_neg]
      simp [h c (List.mem_cons_self ..)]
  rw [trim, hstart]
  exact dropEndWhile_eq_self _ fun c hc => h c (List.mem_of_getLast? hc)

theorem trim_of_digits {text : List Char} (h : ∀ c ∈ text, c.isDigit) : trim text = text :=
  trim_eq_self fun c hc => not_isBlank_of_isDigit (h c hc)

end SongLibrary.Text
