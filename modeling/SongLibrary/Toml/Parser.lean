/-
  Reading TOML.

  * `Toml.valueFrom?` reads a value from the beginning of a text;
  * `Toml.statementsFrom?` reads the entries and headers of a text;
  * `Toml.parse?` is the table that a whole text is.
-/
import SongLibrary.Toml.Number
import SongLibrary.Toml.Text

namespace SongLibrary.Toml

/-! ## Between tokens -/

/-- The text after the blanks at its beginning. -/
def skipSpace (text : List Char) : List Char :=
  text.dropWhile isSpace

/-- The text after blanks, line breaks and comments.  The flag tells whether a
    comment has begun. -/
def skipLines : Bool → List Char → List Char
  | _, '\n' :: rest => skipLines false rest
  | _, '\r' :: '\n' :: rest => skipLines false rest
  | true, c :: rest => if isPlain c then skipLines true rest else c :: rest
  | false, '#' :: rest => skipLines true rest
  | false, c :: rest => if isSpace c then skipLines false rest else c :: rest
  | _, [] => []

/-- The text after a comment, if it begins with one. -/
def skipComment : List Char → List Char
  | '#' :: rest => rest.dropWhile isPlain
  | text => text

/-- What follows the end of a line, which only blanks and a comment may come
    before. -/
def lineEnd? (text : List Char) : Option (List Char) :=
  match skipComment (skipSpace text) with
  | [] => some []
  | text => lineBreak? text

/-! ## Keys -/

/-- Whether a character may stand in a key without quotes. -/
def isKeyChar (c : Char) : Bool :=
  c.isAlphanum || c == '-' || c == '_'

/-- Read a part of a key. -/
def keyPartFrom? (text : List Char) : Option (String × List Char) :=
  let word := text.takeWhile isKeyChar
  if word.isEmpty then (lineFrom? text).map fun (word, rest) => (String.ofList word, rest)
  else some (String.ofList word, text.drop word.length)

/-- Read a key of at most `fuel` parts, which dots separate: the parts before
    the last, and the last. -/
def keyFrom? : Nat → List Char → Option (List String × String × List Char)
  | 0, _ => none
  | fuel + 1, text =>
    match keyPartFrom? (skipSpace text) with
    | none => none
    | some (part, rest) =>
      match skipSpace rest with
      | '.' :: rest =>
        (keyFrom? fuel rest).map fun (parts, last, rest) => (part :: parts, last, rest)
      | rest => some ([], part, rest)

/-- The number of parts that a key may have, and of levels that arrays and tables
    in braces may be nested. -/
def maxDepth : Nat := 79

/-! ## Values -/

mutual

/-- Read a value that is nested at most `depth` deep. -/
def valueFrom? : Nat → Nat → List Char → Option (Toml × List Char)
  | 0, _, _ => none
  | fuel + 1, depth, text =>
    match text with
    | '[' :: rest =>
      if depth = 0 then none
      else (itemsFrom? fuel (depth - 1) rest).map fun (items, rest) => (.array items, rest)
    | '\x7b' :: rest =>
      if depth = 0 then none
      else
        match skipSpace rest with
        | '\x7d' :: rest => some (.table .inline [], rest)
        | rest => (entriesFrom? fuel (depth - 1) [] rest).map fun (entries, rest) =>
          (.table .inline entries, rest)
    | 't' :: rest => (wordFrom? "rue" rest).map (.boolean true, ·)
    | 'f' :: rest => (wordFrom? "alse" rest).map (.boolean false, ·)
    | text =>
      match textFrom? text, dateFrom? text with
      | some (s, rest), _ => some (.string (String.ofList s), rest)
      | none, some found => some found
      | none, none => numberFrom? text

/-- Read the items of an array and its closing bracket. -/
def itemsFrom? : Nat → Nat → List Char → Option (List Toml × List Char)
  | 0, _, _ => none
  | fuel + 1, depth, text =>
    match skipLines false text with
    | ']' :: rest => some ([], rest)
    | text =>
      match valueFrom? fuel depth text with
      | none => none
      | some (item, rest) =>
        match skipLines false rest with
        | ']' :: rest => some ([item], rest)
        | ',' :: rest =>
          (itemsFrom? fuel depth rest).map fun (items, rest) => (item :: items, rest)
        | _ => none

/-- Read the entries of a table in braces, and its closing brace, after the
    entries that are given. -/
def entriesFrom? : Nat → Nat → Entries → List Char → Option (Entries × List Char)
  | 0, _, _, _ => none
  | fuel + 1, depth, entries, text =>
    match keyFrom? maxDepth text with
    | some (path, key, '=' :: rest) =>
      match valueFrom? fuel depth (skipSpace rest) with
      | none => none
      | some (value, rest) =>
        match insertAt path key value .inline entries, skipSpace rest with
        | some entries, '\x7d' :: rest => some (entries, rest)
        | some entries, ',' :: rest => entriesFrom? fuel depth entries rest
        | _, _ => none
    | _ => none

end

/-- Read an entry: the parts of its key, and its value. -/
def entryFrom? (text : List Char) : Option (List String × String × Toml × List Char) :=
  match keyFrom? maxDepth text with
  | some (path, key, '=' :: rest) =>
    (valueFrom? (2 * rest.length + 2) maxDepth (skipSpace rest)).map fun (value, rest) =>
      (path, key, value, rest)
  | _ => none

/-! ## Texts -/

/-- Read the rest of a text, of at most `fuel` lines.  Its entries go into the
    table at `header`. -/
def statementsFrom? : Nat → List String → Entries → List Char → Option Entries
  | 0, _, _, _ => none
  | fuel + 1, header, root, text =>
    match skipSpace text, lineEnd? text with
    | [], _ => some root
    | _ :: _, some rest => statementsFrom? fuel header root rest
    | '[' :: '[' :: rest, none =>
      match keyFrom? maxDepth rest with
      | some (path, key, ']' :: ']' :: rest) =>
        match lineEnd? rest, openItem path key root with
        | some rest, some root => statementsFrom? fuel (path ++ [key]) root rest
        | _, _ => none
      | _ => none
    | '[' :: rest, none =>
      match keyFrom? maxDepth rest with
      | some (path, key, ']' :: rest) =>
        match lineEnd? rest, openTable path key root with
        | some rest, some root => statementsFrom? fuel (path ++ [key]) root rest
        | _, _ => none
      | _ => none
    | text, none =>
      match entryFrom? text with
      | none => none
      | some (path, key, value, rest) =>
        match lineEnd? rest, alter .implied (insertAt path key value) header .headed root with
        | some rest, some root => statementsFrom? fuel header root rest
        | _, _ => none

/-- The table that a text is, a byte order mark at its beginning aside. -/
def parse? (text : String) : Option Toml :=
  let text := match text.toList with
    | '\ufeff' :: rest => rest
    | text => text
  (statementsFrom? (text.length + 1) [] [] text).map (.table .headed)

end SongLibrary.Toml
