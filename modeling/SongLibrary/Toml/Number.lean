/-
  Numbers and dates of TOML.

  `Toml.numberFrom?` reads an integer or another number, `Toml.dateFrom?` a date,
  a time or both.  An integer has 64 bits and a sign; a number that is no integer
  must not be greater than the greatest double.
-/
import SongLibrary.Text.Hexadecimal
import SongLibrary.Toml.Basic

namespace SongLibrary.Toml

/-! ## Digits -/

/-- Read digits after the first one, where an underscore may stand before a
    digit: the digits alone. -/
def moreDigits? (isDigit : Char → Bool) : List Char → Option (List Char × List Char)
  | '_' :: c :: rest =>
    if isDigit c then (moreDigits? isDigit rest).map fun (digits, rest) => (c :: digits, rest)
    else none
  | c :: rest =>
    if c = '_' then none
    else if isDigit c then
      (moreDigits? isDigit rest).map fun (digits, rest) => (c :: digits, rest)
    else some ([], c :: rest)
  | [] => some ([], [])

/-- Read digits, one at least. -/
def digitsFrom? (isDigit : Char → Bool) : List Char → Option (List Char × List Char)
  | c :: rest =>
    if isDigit c then (moreDigits? isDigit rest).map fun (digits, rest) => (c :: digits, rest)
    else none
  | [] => none

/-- Read the digits of a whole number: a zero, or digits that begin with
    another. -/
def wholeFrom? : List Char → Option (List Char × List Char)
  | '0' :: rest => some (['0'], rest)
  | text => digitsFrom? Char.isDigit text

/-- The number that digits of a base are. -/
def digitsValue (base : Nat) (digits : List Char) : Nat :=
  digits.foldl (fun n c => base * n + (Text.hexValue? c).getD 0) 0

/-- Split off a sign: whether it is a minus. -/
def signFrom : List Char → Bool × List Char
  | '-' :: rest => (true, rest)
  | '+' :: rest => (false, rest)
  | text => (false, text)

/-- A number with a sign. -/
def signed (negative : Bool) (n : Nat) : Int :=
  if negative then -(n : Int) else n

/-! ## Integers -/

/-- The integer with a value, if 64 bits are enough for it. -/
def integer? (n : Int) : Option Toml :=
  if Int64.minValue.toInt ≤ n ∧ n ≤ Int64.maxValue.toInt then some (.integer n) else none

/-- Read an integer of a base other than ten, after the letter of the base. -/
def basedFrom? (base : Nat) (text : List Char) : Option (Toml × List Char) := do
  let isDigit := fun c => ((Text.hexValue? c).filter (· < base)).isSome
  let (digits, rest) ← digitsFrom? isDigit text
  return (← integer? (digitsValue base digits), rest)

/-! ## Other numbers -/

/-- Whether `m · 10 ^ e` is rounded to infinity by a double: it is at least the
    greatest double and half of the last step. -/
def overflows (m : Nat) (e : Int) : Bool :=
  let limit := Nat.pow 2 1024 - Nat.pow 2 970
  let size := (Nat.toDigits 10 m).length + e
  if m = 0 ∨ size < 300 then false
  else if 320 < size then true
  else limit * Nat.pow 10 (-e).toNat ≤ m * Nat.pow 10 e.toNat

/-- Read the digits after a point, if there is one. -/
def fractionFrom? : List Char → Option (List Char × List Char)
  | '.' :: rest => digitsFrom? Char.isDigit rest
  | text => some ([], text)

/-- Read an exponent, if there is one. -/
def exponentFrom? (text : List Char) : Option (Int × List Char) :=
  match text with
  | [] => some (0, [])
  | c :: rest =>
    if c = 'e' ∨ c = 'E' then
      let (negative, rest) := signFrom rest
      (digitsFrom? Char.isDigit rest).map fun (digits, rest) =>
        (signed negative (digitsValue 10 digits), rest)
    else some (0, text)

/-- The text before what follows it. -/
def before (text rest : List Char) : String :=
  String.ofList (text.take (text.length - rest.length))

/-- What follows a word at the beginning of a text. -/
def wordFrom? (word : String) (text : List Char) : Option (List Char) :=
  let word := word.toList
  if word.isPrefixOf text then some (text.drop word.length) else none

/-- Read a number in base ten, which is an integer unless it has a point or an
    exponent. -/
def decimalFrom? (text : List Char) : Option (Toml × List Char) := do
  let (negative, body) := signFrom text
  let (whole, afterWhole) ← wholeFrom? body
  let (fraction, afterFraction) ← fractionFrom? afterWhole
  let (exponent, rest) ← exponentFrom? afterFraction
  if rest.length = afterWhole.length then
    return (← integer? (signed negative (digitsValue 10 whole)), rest)
  else if !negative && overflows (digitsValue 10 (whole ++ fraction)) (exponent - fraction.length)
    then none
  else return (.float (before text rest), rest)

/-- Read a number. -/
def numberFrom? (text : List Char) : Option (Toml × List Char) :=
  let body := (signFrom text).2
  match wordFrom? "inf" body, wordFrom? "nan" body, text with
  | some rest, _, _ | none, some rest, _ => some (.float (before text rest), rest)
  | none, none, '0' :: 'x' :: rest => basedFrom? 16 rest
  | none, none, '0' :: 'o' :: rest => basedFrom? 8 rest
  | none, none, '0' :: 'b' :: rest => basedFrom? 2 rest
  | none, none, text => decimalFrom? text

/-! ## Dates and times -/

/-- Read a number of `n` digits that is at least `low` and at most `high`. -/
def fixedFrom? (n low high : Nat) (text : List Char) : Option (Nat × List Char) :=
  let digits := text.take n
  let value := digitsValue 10 digits
  if digits.length = n ∧ digits.all Char.isDigit ∧ low ≤ value ∧ value ≤ high then
    some (value, text.drop n)
  else none

/-- What follows a given character. -/
def charFrom? (c : Char) : List Char → Option (List Char)
  | d :: rest => if d = c then some rest else none
  | [] => none

/-- The number of days of a month. -/
def daysIn (year month : Nat) : Nat :=
  let isLeap := year % 4 = 0 ∧ (year % 100 ≠ 0 ∨ year % 400 = 0)
  if month = 2 then (if isLeap then 29 else 28)
  else if month = 4 ∨ month = 6 ∨ month = 9 ∨ month = 11 then 30
  else 31

/-- What follows a day: year, month and day. -/
def dayFrom? (text : List Char) : Option (List Char) := do
  let (year, text) ← fixedFrom? 4 0 9999 text
  let (month, text) ← fixedFrom? 2 1 12 (← charFrom? '-' text)
  let (_, text) ← fixedFrom? 2 1 (daysIn year month) (← charFrom? '-' text)
  return text

/-- What follows hours and minutes. -/
def minuteFrom? (text : List Char) : Option (List Char) := do
  let (_, text) ← fixedFrom? 2 0 23 text
  let (_, text) ← fixedFrom? 2 0 59 (← charFrom? ':' text)
  return text

/-- What follows a time: hours, minutes, seconds and parts of a second. -/
def timeFrom? (text : List Char) : Option (List Char) := do
  let (_, text) ← fixedFrom? 2 0 60 (← charFrom? ':' (← minuteFrom? text))
  match text with
  | '.' :: rest =>
    let digits := rest.takeWhile Char.isDigit
    if digits.isEmpty then none else some (rest.drop digits.length)
  | text => some text

/-- What follows the distance of a time from the universal one, if it is
    given. -/
def offsetFrom? : List Char → Option (List Char)
  | c :: rest =>
    if c = 'Z' ∨ c = 'z' then some rest
    else if c = '+' ∨ c = '-' then minuteFrom? rest
    else some (c :: rest)
  | [] => some []

/-- What follows the time of a day, if it is given. -/
def timeOfDayFrom? (text : List Char) : Option (List Char) :=
  match text with
  | c :: rest =>
    if c = 'T' ∨ c = 't' then (timeFrom? rest).bind offsetFrom?
    else if c = ' ' then
      match timeFrom? rest with
      | some rest => offsetFrom? rest
      | none => some text
    else some text
  | [] => some []

/-- Read a date, a time or both. -/
def dateFrom? (text : List Char) : Option (Toml × List Char) := do
  let rest ← ((dayFrom? text).bind timeOfDayFrom?).or (timeFrom? text)
  return (.date (before text rest), rest)

end SongLibrary.Toml
