/-
  Numbers with two decimals.

  A binary fraction is written with the hundredths nearest to its exact value;
  of two equally near, the even number of hundredths is taken.

  * `roundDiv` rounds a quotient of natural numbers that way (`roundDiv_near`);
  * `hundredths` applies it to a floating-point number, and `writeHundredths`
    is its text.
-/

namespace SongLibrary.Text

/-- The natural number nearest to `n / d`; of two equally near, the even one. -/
def roundDiv (n d : Nat) : Nat :=
  let q := n / d
  let r := n % d
  if 2 * r < d then q
  else if d < 2 * r then q + 1
  else q + q % 2

/-- **The rounded quotient is within a half of the quotient.** -/
theorem roundDiv_near (n d : Nat) (h : 0 < d) :
    2 * n ≤ 2 * (roundDiv n d * d) + d ∧ 2 * (roundDiv n d * d) ≤ 2 * n + d := by
  have hn : d * (n / d) + n % d = n := Nat.div_add_mod n d
  have hr : n % d < d := Nat.mod_lt n h
  have hq : n / d % 2 = 0 ∨ n / d % 2 = 1 := by omega
  rw [Nat.mul_comm] at hn
  simp only [roundDiv]
  split
  · omega
  · split
    · rw [Nat.add_mul]; omega
    · rcases hq with hq | hq <;> rw [hq]
      · rw [Nat.add_zero]; omega
      · rw [Nat.add_mul]; omega

/-- The hundredths nearest to the magnitude of a finite number. -/
def hundredths (x : Float) : Nat :=
  let bits := x.toBits.toNat
  let exponent := bits / Nat.pow 2 52 % Nat.pow 2 11
  let fraction := bits % Nat.pow 2 52
  let mantissa := if exponent = 0 then fraction else fraction + Nat.pow 2 52
  roundDiv (mantissa * Nat.pow 2 (max exponent 1) * 100) (Nat.pow 2 1075)

/-- Whether a number has the sign bit. -/
def hasSign (x : Float) : Bool :=
  x.toBits.toNat / Nat.pow 2 63 == 1

/-- A number with two decimals.  Zero keeps its sign. -/
def writeHundredths (x : Float) : String :=
  if x.isNaN then "NaN"
  else
    let n := hundredths x
    let decimals := toString (n % 100)
    (if hasSign x then "-" else "") ++ toString (n / 100) ++ "." ++
      (if n % 100 < 10 then "0" ++ decimals else decimals)

end SongLibrary.Text
