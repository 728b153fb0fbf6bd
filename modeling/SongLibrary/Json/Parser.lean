/-
  Reading JSON.

  * `Json.stringFrom?` reads a string after its opening quote;
  * `Json.valueFrom?` reads a value from the beginning of a text;
  * `Json.read?` reads a text that is one value, with blanks around it, and
    `Json.parse?` asks in addition that the value be plain.
-/
import SongLibrary.Json.Basic
import SongLibrary.Text.Hexadecimal

namespace SongLibrary.Json

/-- Whether a character may stand between tokens. -/
def isSpace (c : Char) : Bool :=
  c == ' ' || c == '\n' || c == '\t' || c == '\r'

/-- The text after the blanks at its beginning. -/
def skipSpace (text : List Char) : List Char :=
  text.dropWhile isSpace

/-! ## Strings -/

/-- The value of four hexadecimal digits. -/
def hexCode? (a b c d : Char) : Option Nat :=
  match Text.hexValue? a, Text.hexValue? b, Text.hexValue? c, Text.hexValue? d with
  | some a, some b, some c, some d => some (((a * 16 + b) * 16 + c) * 16 + d)
  | _, _, _, _ => none

/-- The character a letter after a backslash stands for. -/
def escaped? : Char → Option Char
  | '"' => some '"'
  | '\\' => some '\\'
  | '/' => some '/'
  | 'b' => some '\x08'
  | 'f' => some '\x0c'
  | 'n' => some '\n'
  | 'r' => some '\r'
  | 't' => some '\t'
  | _ => none

/-- A character before the text of a string, if that has one. -/
def consText (c : Char) :
    Option (Option (List Char) × List Char) → Option (Option (List Char) × List Char)
  | some (text, rest) => some (text.map (c :: ·), rest)
  | none => none

/-- What `consText` gives for half a surrogate pair. -/
def loseText :
    Option (Option (List Char) × List Char) → Option (Option (List Char) × List Char)
  | some (_, rest) => some (none, rest)
  | none => none

/-- Read a string after its opening quote: its text, if it has one, and what
    follows the closing quote.  `high` is the first half of a surrogate pair
    that has just been read. -/
def stringFrom? (high : Option Nat) : List Char → Option (Option (List Char) × List Char)
  | [] => none
  | '"' :: rest => if high.isSome then some (none, rest) else some (some [], rest)
  | '\\' :: 'u' :: a :: b :: c :: d :: rest =>
    match hexCode? a b c d with
    | none => none
    | some code =>
      if 0xDC00 ≤ code ∧ code ≤ 0xDFFF then
        match high with
        | some h =>
          consText (Char.ofNat (0x10000 + (h - 0xD800) * 0x400 + (code - 0xDC00)))
            (stringFrom? none rest)
        | none => loseText (stringFrom? none rest)
      else
        let read := if 0xD800 ≤ code ∧ code ≤ 0xDBFF then stringFrom? (some code) rest
          else consText (Char.ofNat code) (stringFrom? none rest)
        if high.isSome then loseText read else read
  | '\\' :: e :: rest =>
    match escaped? e with
    | none => none
    | some c =>
      let read := consText c (stringFrom? none rest)
      if high.isSome then loseText read else read
  | c :: rest =>
    if c = '\\' ∨ c.toNat < 0x20 then none
    else
      let read := consText c (stringFrom? none rest)
      if high.isSome then loseText read else read

/-! ## Numbers -/

/-- Split off the digits at the beginning of a text. -/
def digitsFrom (text : List Char) : List Char × List Char :=
  text.span Char.isDigit

/-- Read the digits before the point: a zero, or digits that begin with
    another. -/
def wholeFrom? (text : List Char) : Option (List Char × List Char) :=
  match digitsFrom text with
  | ([], _) => none
  | ('0' :: _ :: _, _) => none
  | read => some read

/-- Read the point and the digits after it, if there is a point. -/
def fractionFrom? : List Char → Option (List Char × List Char)
  | '.' :: text => match digitsFrom text with
    | ([], _) => none
    | (digits, rest) => some ('.' :: digits, rest)
  | text => some ([], text)

/-- Read the sign of an exponent. -/
def signFrom : List Char → List Char × List Char
  | '+' :: text => (['+'], text)
  | '-' :: text => (['-'], text)
  | text => ([], text)

/-- Read an exponent, if there is one. -/
def exponentFrom? (text : List Char) : Option (List Char × List Char) :=
  match text with
  | e :: rest =>
    if e = 'e' ∨ e = 'E' then
      let (sign, rest) := signFrom rest
      match digitsFrom rest with
      | ([], _) => none
      | (digits, rest) => some (e :: sign ++ digits, rest)
    else some ([], text)
  | [] => some ([], [])

/-- Read a number: its text and what follows. -/
def numberFrom? (text : List Char) : Option (List Char × List Char) := do
  let (sign, text) := match text with
    | '-' :: rest => (['-'], rest)
    | text => ([], text)
  let (whole, text) ← wholeFrom? text
  let (fraction, text) ← fractionFrom? text
  let (exponent, text) ← exponentFrom? text
  return (sign ++ whole ++ fraction ++ exponent, text)

/-! ## Values -/

/-- What follows a word at the beginning of a text. -/
def wordFrom? (word : String) (text : List Char) : Option (List Char) :=
  let word := word.toList
  if word.isPrefixOf text then some (text.drop word.length) else none

mutual

/-- Read a value; values are nested at most `fuel` deep and long. -/
def valueFrom? : Nat → List Char → Option (Json × List Char)
  | 0, _ => none
  | fuel + 1, text =>
    match skipSpace text with
    | '"' :: rest => (stringFrom? none rest).map fun (s, rest) =>
      (.string (s.map String.ofList), rest)
    | '\x7b' :: rest =>
      match skipSpace rest with
      | '\x7d' :: rest => some (.object [], rest)
      | rest => (membersFrom? fuel rest).map fun (members, rest) => (.object members, rest)
    | '[' :: rest =>
      match skipSpace rest with
      | ']' :: rest => some (.array [], rest)
      | rest => (itemsFrom? fuel rest).map fun (items, rest) => (.array items, rest)
    | 'n' :: rest => (wordFrom? "ull" rest).map (.null, ·)
    | 't' :: rest => (wordFrom? "rue" rest).map (.bool true, ·)
    | 'f' :: rest => (wordFrom? "alse" rest).map (.bool false, ·)
    | rest => (numberFrom? rest).map fun (digits, rest) =>
      (.number (String.ofList digits), rest)

/-- Read the items of an array and its closing bracket. -/
def itemsFrom? : Nat → List Char → Option (List Json × List Char)
  | 0, _ => none
  | fuel + 1, text =>
    match valueFrom? fuel text with
    | none => none
    | some (item, rest) =>
      match skipSpace rest with
      | ']' :: rest => some ([item], rest)
      | ',' :: rest => (itemsFrom? fuel rest).map fun (items, rest) => (item :: items, rest)
      | _ => none

/-- Read the members of an object and its closing brace. -/
def membersFrom? : Nat → List Char → Option (List (Option String × Json) × List Char)
  | 0, _ => none
  | fuel + 1, text =>
    match skipSpace text with
    | '"' :: rest =>
      match stringFrom? none rest with
      | none => none
      | some (name, rest) =>
        match skipSpace rest with
        | ':' :: rest =>
          match valueFrom? fuel rest with
          | none => none
          | some (value, rest) =>
            let member := (name.map String.ofList, value)
            match skipSpace rest with
            | '\x7d' :: rest => some ([member], rest)
            | ',' :: rest =>
              (membersFrom? fuel rest).map fun (members, rest) => (member :: members, rest)
            | _ => none
        | _ => none
    | _ => none

end

/-- Read a text that is one value. -/
def read? (text : List Char) : Option Json :=
  match valueFrom? (2 * text.length + 2) text with
  | some (j, rest) => if (skipSpace rest).isEmpty then some j else none
  | none => none

/-- Read a text that is one plain value. -/
def parse? (text : String) : Option Json :=
  (read? text.toList).filter isPlain

end SongLibrary.Json
