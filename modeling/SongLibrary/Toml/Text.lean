/-
  The strings of TOML.

  * `Toml.basicFrom?` and `Toml.literalFrom?` read a string on one line, after
    its opening quote; `Toml.longBasicFrom?` and `Toml.longLiteralFrom?` read one
    that may have several lines, after its three opening quotes;
  * `Toml.quote` writes a text in the plainest of these forms that it fits.
-/
import SongLibrary.Text.Hexadecimal

namespace SongLibrary.Toml

/-! ## Characters -/

/-- Whether a character is a blank within a line. -/
def isSpace (c : Char) : Bool :=
  c == ' ' || c == '\t'

/-- Whether a character may stand in a comment or a string: it is a tab, or no
    control character. -/
def isPlain (c : Char) : Bool :=
  c == '\t' || (0x20 ≤ c.toNat && c.toNat != 0x7F)

/-- What follows a line break at the beginning of a text. -/
def lineBreak? : List Char → Option (List Char)
  | '\n' :: rest => some rest
  | '\r' :: '\n' :: rest => some rest
  | _ => none

/-- A character before a text that is read. -/
def consText (c : Char) (read : Option (List Char × List Char)) :
    Option (List Char × List Char) :=
  read.map fun (text, rest) => (c :: text, rest)

/-! ## Escapes -/

/-- The character with a code, given by hexadecimal digits. -/
def hexChar? (digits : List Char) : Option Char := do
  let values ← digits.mapM Text.hexValue?
  let code := values.foldl (16 * · + ·) 0
  if code.isValidChar then some (Char.ofNat code) else none

/-- Read the character of a code with a given number of digits. -/
def hexFrom? (digits : Nat) (text : List Char) : Option (Char × List Char) :=
  if text.length < digits then none
  else (hexChar? (text.take digits)).map (·, text.drop digits)

/-- Read what follows a backslash: the character it stands for. -/
def escapeFrom? : List Char → Option (Char × List Char)
  | '"' :: rest => some ('"', rest)
  | '\\' :: rest => some ('\\', rest)
  | 'b' :: rest => some ('\x08', rest)
  | 't' :: rest => some ('\t', rest)
  | 'n' :: rest => some ('\n', rest)
  | 'f' :: rest => some ('\x0c', rest)
  | 'r' :: rest => some ('\r', rest)
  | 'u' :: rest => hexFrom? 4 rest
  | 'U' :: rest => hexFrom? 8 rest
  | _ => none

/-! ## Strings on one line -/

/-- Read a string with escapes, of at most `fuel` characters. -/
def basicFrom? : Nat → List Char → Option (List Char × List Char)
  | 0, _ => none
  | fuel + 1, text =>
    match text with
    | '"' :: rest => some ([], rest)
    | '\\' :: rest => match escapeFrom? rest with
      | some (c, rest) => consText c (basicFrom? fuel rest)
      | none => none
    | c :: rest => if isPlain c then consText c (basicFrom? fuel rest) else none
    | [] => none

/-- Read a string without escapes. -/
def literalFrom? : List Char → Option (List Char × List Char)
  | '\'' :: rest => some ([], rest)
  | c :: rest => if isPlain c then consText c (literalFrom? rest) else none
  | [] => none

/-! ## Strings on several lines -/

/-- What follows the end of a long string: three quotes, and up to two more
    before them that belong to the text. -/
def longEnd? (q : Char) : List Char → Option (List Char × List Char)
  | a :: b :: c :: rest =>
    if a = q ∧ b = q ∧ c = q then
      let more := (rest.take 2).takeWhile (· == q)
      some (more, rest.drop more.length)
    else none
  | _ => none

/-- The text after blanks and line breaks. -/
def skipBreaks : List Char → List Char
  | '\r' :: '\n' :: rest => skipBreaks rest
  | c :: rest => if isSpace c || c == '\n' then skipBreaks rest else c :: rest
  | [] => []

/-- Read a long string with escapes, of at most `fuel` characters.  A backslash
    at the end of a line joins it to the next text. -/
def longBasicFrom? : Nat → List Char → Option (List Char × List Char)
  | 0, _ => none
  | fuel + 1, text =>
    match longEnd? '"' text, lineBreak? text, text with
    | some found, _, _ => some found
    | none, some rest, _ => consText '\n' (longBasicFrom? fuel rest)
    | none, none, '\\' :: rest =>
      match lineBreak? (rest.dropWhile isSpace), escapeFrom? rest with
      | some rest, _ => longBasicFrom? fuel (skipBreaks rest)
      | none, some (c, rest) => consText c (longBasicFrom? fuel rest)
      | none, none => none
    | none, none, c :: rest =>
      if isPlain c then consText c (longBasicFrom? fuel rest) else none
    | none, none, [] => none

/-- Read a long string without escapes, of at most `fuel` characters. -/
def longLiteralFrom? : Nat → List Char → Option (List Char × List Char)
  | 0, _ => none
  | fuel + 1, text =>
    match longEnd? '\'' text, lineBreak? text, text with
    | some found, _, _ => some found
    | none, some rest, _ => consText '\n' (longLiteralFrom? fuel rest)
    | none, none, c :: rest =>
      if isPlain c then consText c (longLiteralFrom? fuel rest) else none
    | none, none, [] => none

/-- The text without a line break at its beginning. -/
def skipLineBreak (text : List Char) : List Char :=
  (lineBreak? text).getD text

/-- Read a string on one line, with its quotes. -/
def lineFrom? : List Char → Option (List Char × List Char)
  | '"' :: rest => basicFrom? (rest.length + 1) rest
  | '\'' :: rest => literalFrom? rest
  | _ => none

/-- Read a string of any form, with its quotes. -/
def textFrom? : List Char → Option (List Char × List Char)
  | '"' :: '"' :: '"' :: rest => longBasicFrom? (rest.length + 1) (skipLineBreak rest)
  | '\'' :: '\'' :: '\'' :: rest => longLiteralFrom? (rest.length + 1) (skipLineBreak rest)
  | text => lineFrom? text

/-! ## Writing -/

/-- The length of the longest run of a character, after a run of length
    `run`. -/
def longestRun (q : Char) (run : Nat) : List Char → Nat
  | [] => run
  | c :: rest => if c = q then longestRun q (run + 1) rest else max run (longestRun q 0 rest)

/-- Whether a character can only be written as an escape. -/
def needsEscape (c : Char) : Bool :=
  !isPlain c && c != '\n'

/-- A hexadecimal digit, in upper case. -/
def upperHexDigit (n : Nat) : Char :=
  (Text.hexDigit n).toUpper

/-- A character as it stands in a string with escapes, of several lines if
    `long` holds, quotes aside. -/
def escapeChar (long : Bool) (c : Char) : List Char :=
  match c with
  | '\\' => ['\\', '\\']
  | '\x08' => ['\\', 'b']
  | '\t' => ['\\', 't']
  | '\n' => if long then ['\n'] else ['\\', 'n']
  | '\x0c' => ['\\', 'f']
  | '\r' => ['\\', 'r']
  | c =>
    if isPlain c then [c]
    else ['\\', 'u', '0', '0', upperHexDigit (c.toNat / 16), upperHexDigit (c.toNat % 16)]

/-- The body of a string with escapes.  A quote is escaped where `allowed` of
    them stand in a row, of which `run` have been written. -/
def escape (long : Bool) (allowed run : Nat) : List Char → List Char
  | [] => []
  | c :: rest =>
    if c = '"' then
      if run < allowed then c :: escape long allowed (run + 1) rest
      else '\\' :: c :: escape long allowed 0 rest
    else escapeChar long c ++ escape long allowed 0 rest

/-- A text in the plainest form of a string that it fits: with escapes it does
    not need, without escapes, long with escapes it does not need, long without
    escapes, and last with escapes. -/
def quote (text : List Char) : List Char :=
  let long := text.contains '\n'
  let control := text.any needsEscape
  let backslash := text.contains '\\'
  let double := longestRun '"' 0 text
  let single := longestRun '\'' 0 text
  let lineBreak := if long then ['\n'] else []
  let basic := '"' :: escape false 0 0 text ++ ['"']
  let longBasic := "\"\"\"".toList ++ lineBreak ++ escape true 2 0 text ++ "\"\"\"".toList
  if !control && !backslash && double = 0 && !long then basic
  else if !control && single = 0 && !long then '\'' :: text ++ ['\'']
  else if !control && !backslash && double ≤ 2 then longBasic
  else if !control && single ≤ 2 then "'''".toList ++ lineBreak ++ text ++ "'''".toList
  else if long then longBasic
  else basic

end SongLibrary.Toml
