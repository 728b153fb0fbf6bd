/-
  The numbers that decimal digits denote.

  * `digitsValue_append`: digits denote a number by their places, whatever their script;
  * `leadingNumber?_eq`: of text without blanks, the ASCII digits at the beginning are read;
  * `leadingNumber?_eq_digitsValue_iff`: what is read of decimal digits is the number that they
    denote just if there is no other digit and the number is a 64-bit word, or it is zero.
-/
import Mathlib.Data.List.Basic
import Mathlib.Data.List.TakeWhile
import Mathlib.Tactic.Ring
import SongLibrary.Text.DecimalDigit

namespace SongLibrary.Text

/-! ## Digits -/

theorem isDecimalDigit_of_isDigit {c : Char} (h : c.isDigit) : isDecimalDigit c := by
  simp [isDecimalDigit, h]

theorem toNat_of_isDigit {c : Char} (h : c.isDigit) : 0x30 ≤ c.toNat ∧ c.toNat ≤ 0x39 := by
  simp only [Char.isDigit, Bool.and_eq_true, decide_eq_true_eq, UInt32.le_iff_toNat_le] at h
  exact h

/-- The value of an ASCII digit. -/
theorem digitValue_of_isDigit {c : Char} (h : c.isDigit) :
    digitValue c = c.toNat - '0'.toNat := by
  obtain ⟨hlow, hhigh⟩ := toNat_of_isDigit h
  have hrange : decimalDigitRange? c = some (0x30, 0x39) := by
    rw [decimalDigitRange?, decimalDigitRanges, List.find?_cons_of_pos]
    simp [hlow, hhigh]
  rw [digitValue, hrange]
  change (c.toNat - 0x30) % 10 = c.toNat - 0x30
  omega

/-- No decimal digit is a blank. -/
theorem not_isBlank_of_isDecimalDigit {c : Char} (h : isDecimalDigit c) : isBlank c = false := by
  rw [isDecimalDigit, Bool.or_eq_true] at h
  rcases h with hdigit | hrange
  · exact not_isBlank_of_isDigit hdigit
  obtain ⟨r, hr⟩ := Option.isSome_iff_exists.1 hrange
  have hbetween := List.find?_some hr
  -- Every range lies in a gap between the blanks.
  have hgap : ∀ r ∈ decimalDigitRanges, (0x20 < r.1 ∧ r.2 < 0x85) ∨ (0xA0 < r.1 ∧ r.2 < 0x1680) ∨
      (0x1680 < r.1 ∧ r.2 < 0x2000) ∨ 0x3000 < r.1 := by decide
  have hplace := hgap r (List.mem_of_find?_eq_some hr)
  simp only [Bool.and_eq_true, decide_eq_true_eq] at hbetween
  simp only [isBlank, Bool.or_eq_false_iff, Bool.and_eq_false_iff, decide_eq_false_iff_not,
    beq_eq_false_iff_ne]
  omega

/-! ## Numbers -/

theorem foldl_digitValue (digits : List Char) (n : Nat) :
    digits.foldl (fun n c => n * 10 + digitValue c) n =
      n * 10 ^ digits.length + digitsValue digits := by
  induction digits generalizing n with
  | nil => simp [digitsValue]
  | cons c digits ih =>
    rw [digitsValue, List.foldl_cons, List.foldl_cons, ih, ih (0 * 10 + digitValue c),
      List.length_cons]
    ring

/-- Digits denote a number by their places. -/
theorem digitsValue_append (front back : List Char) :
    digitsValue (front ++ back) = digitsValue front * 10 ^ back.length + digitsValue back := by
  rw [digitsValue, List.foldl_append]
  exact foldl_digitValue back _

/-- ASCII digits denote what they write in base ten. -/
theorem digitsValue_of_digits {digits : List Char} (h : ∀ c ∈ digits, c.isDigit) :
    digits.foldl (fun n c => n * 10 + (c.toNat - '0'.toNat)) 0 = digitsValue digits :=
  List.foldl_ext _ _ 0 fun n c hc => by rw [digitValue_of_isDigit (h c hc)]

theorem digitsValue_eq_ofDigitChars {digits : List Char} (h : ∀ c ∈ digits, c.isDigit) :
    digitsValue digits = Nat.ofDigitChars 10 digits 0 := by
  rw [← digitsValue_of_digits h, Nat.ofDigitChars_eq_foldl]
  congr 1
  funext n c
  rw [Nat.mul_comm]

/-- **The ASCII digits at the beginning are read**, where they denote a 64-bit word. -/
theorem leadingNumber?_eq {text : List Char} (h : ∀ c ∈ text, isBlank c = false) :
    leadingNumber? text =
      if text.takeWhile Char.isDigit = [] ∨ 2 ^ 63 ≤ digitsValue (text.takeWhile Char.isDigit)
      then none else some (digitsValue (text.takeWhile Char.isDigit)) := by
  have hdigits : ∀ c ∈ text.takeWhile Char.isDigit, c.isDigit := fun c hc =>
    List.mem_takeWhile_imp hc
  rw [leadingNumber?, trim_eq_self h, digitsValue_of_digits hdigits]
  simp only [Bool.or_eq_true, List.isEmpty_iff, decide_eq_true_eq, ge_iff_le]
  rfl

/-- Digits are read as the number that they write. -/
theorem leadingNumber?_of_digits {text : List Char} (hne : text ≠ []) (h : ∀ c ∈ text, c.isDigit)
    (hlt : Nat.ofDigitChars 10 text 0 < 2 ^ 63) :
    leadingNumber? text = some (Nat.ofDigitChars 10 text 0) := by
  have htake : text.takeWhile Char.isDigit = text :=
    List.takeWhile_eq_self_iff.2 h
  rw [leadingNumber?_eq fun c hc => not_isBlank_of_isDigit (h c hc), htake,
    digitsValue_eq_ofDigitChars h, if_neg]
  exact not_or.2 ⟨hne, Nat.not_le.2 hlt⟩

/-- What is read of decimal digits, zero where nothing is. -/
theorem leadingNumber?_getD {text : List Char} (h : ∀ c ∈ text, isDecimalDigit c) :
    (leadingNumber? text).getD 0 =
      if digitsValue (text.takeWhile Char.isDigit) < 2 ^ 63
      then digitsValue (text.takeWhile Char.isDigit) else 0 := by
  rw [leadingNumber?_eq fun c hc => not_isBlank_of_isDecimalDigit (h c hc)]
  by_cases hempty : text.takeWhile Char.isDigit = []
  · rw [if_pos (.inl hempty), hempty]
    rfl
  by_cases hlt : digitsValue (text.takeWhile Char.isDigit) < 2 ^ 63
  · rw [if_neg (not_or.2 ⟨hempty, Nat.not_le.2 hlt⟩), if_pos hlt]
    rfl
  · rw [if_pos (.inr (Nat.not_lt.1 hlt)), if_neg hlt]
    rfl

/-- A digit after the beginning makes the number greater by a factor of ten at least. -/
theorem le_digitsValue (front : List Char) {back : List Char} (h : back ≠ []) :
    10 * digitsValue front ≤ digitsValue (front ++ back) := by
  obtain ⟨n, hn⟩ := Nat.exists_eq_succ_of_ne_zero fun hzero => h (List.length_eq_zero_iff.1 hzero)
  have hpow : 10 ≤ 10 ^ back.length := by
    rw [hn, Nat.pow_succ']
    exact Nat.le_mul_of_pos_right _ (Nat.pow_pos (by decide))
  rw [digitsValue_append, Nat.mul_comm]
  exact Nat.le_add_right_of_le (Nat.mul_le_mul_left _ hpow)

/-- **What is read of decimal digits is the number that they denote** just if it is zero, or
    there are only ASCII digits and they denote a 64-bit word. -/
theorem leadingNumber?_eq_digitsValue_iff {text : List Char} (h : ∀ c ∈ text, isDecimalDigit c) :
    (leadingNumber? text).getD 0 = digitsValue text ↔
      digitsValue text = 0 ∨ (∀ c ∈ text, c.isDigit) ∧ digitsValue text < 2 ^ 63 := by
  rw [leadingNumber?_getD h]
  have hsplit := List.takeWhile_append_dropWhile (p := Char.isDigit) (l := text)
  by_cases hrest : text.dropWhile Char.isDigit = []
  · have hdigits : ∀ c ∈ text, c.isDigit := List.dropWhile_eq_nil_iff.1 hrest
    rw [hrest, List.append_nil] at hsplit
    rw [hsplit]
    split
    · next hlt => exact iff_of_true rfl (.inr ⟨hdigits, hlt⟩)
    · next hge =>
      constructor
      · exact fun hzero => .inl hzero.symm
      · rintro (hzero | ⟨-, hlt⟩)
        · exact hzero.symm
        · exact absurd hlt hge
  · have hless := le_digitsValue (text.takeWhile Char.isDigit) hrest
    rw [hsplit] at hless
    have hother : ¬ ∀ c ∈ text, c.isDigit := mt List.dropWhile_eq_nil_iff.2 hrest
    constructor
    · intro hread
      left
      split at hread <;> omega
    · rintro (hzero | ⟨hall, -⟩)
      · split <;> omega
      · exact absurd hall hother

end SongLibrary.Text
