/-
  The range of JSON numbers.

  A number counts as a double.  Of its literal the digits that fit into 64 bits
  are the significand, and each digit of the whole part after them is a power of
  ten (`Json.numberParts`); the double is the product of both, each of them
  rounded.  `Json.isInRange` tells whether that is finite.
-/
import SongLibrary.Text.Hundredths

namespace SongLibrary.Json

/-- The number that digits continue, as far as it stays below `2 ^ 64`, and the
    digits after that. -/
def significand (n : Nat) : List Char → Nat × List Char
  | [] => (n, [])
  | c :: rest =>
    let next := n * 10 + (c.toNat - '0'.toNat)
    if next < Nat.pow 2 64 then significand next rest else (n, c :: rest)

/-- The number that digits denote. -/
def digitsNumber (digits : List Char) : Nat :=
  digits.foldl (fun n c => n * 10 + (c.toNat - '0'.toNat)) 0

/-- The exponent that a text such as `e-7` denotes, `0` for no text. -/
def exponentOf : List Char → Int
  | _ :: '-' :: digits => -digitsNumber digits
  | _ :: '+' :: digits | _ :: digits => digitsNumber digits
  | [] => 0

/-- The number with 53 binary digits that is nearest to a number. -/
def nearestDouble (n : Nat) : Nat :=
  let unit := Nat.pow 2 (n.log2 - 52)
  Text.roundDiv n unit * unit

/-- Whether the nearest double of `m * 10 ^ e` is finite. -/
def fitsDouble (m : Nat) (e : Int) : Bool :=
  m = 0 || (e ≤ 308 &&
    nearestDouble (nearestDouble m * nearestDouble (Nat.pow 10 e.toNat)) < Nat.pow 2 1024)

/-- The significand of a literal, and its power of ten. -/
def numberParts (literal : String) : Nat × Int :=
  let text := literal.toList.dropWhile (· == '-')
  let (whole, text) := text.span Char.isDigit
  let (fraction, text) := match text with
    | '.' :: text => text.span Char.isDigit
    | text => ([], text)
  let (m, wholeRest) := significand 0 whole
  let (m, fractionRest) := significand m fraction
  let places : Int := fraction.length - fractionRest.length
  (m, wholeRest.length - places + exponentOf text)

/-- Whether the number that a literal denotes is a finite double. -/
def isInRange (literal : String) : Bool :=
  let (m, e) := numberParts literal
  fitsDouble m e

example : isInRange "1.7976931348623157e308" && !isInRange "1.8e308" && !isInRange "1e999" &&
    isInRange "0e999" && isInRange "1e-999" && !isInRange "123456789e305" := by decide +kernel

end SongLibrary.Json
