/-
  The patterns that templates are read with.

  A pattern is a list of blocks, each required or optional, of literal text
  and captures; after them comes a dot and an extension of ASCII letters and
  digits, at the end of the text.  It may start anywhere in the text: the first
  start that allows a match counts, captures are as long as possible, earlier
  ones first, and an optional block is left out only if it must be.

  * `Pattern.regex` writes a pattern as a regular expression;
  * `Pattern.captures?` matches a text.  It works from the end of the pattern
    to its beginning, on rows that hold, for every suffix of the text, what the
    rest of the pattern captures there; so the time it takes grows with the
    length of the text times that of the pattern.
-/
import SongLibrary.Text.DecimalDigit

namespace SongLibrary.Template

/-- A piece of a pattern. -/
inductive Piece where
  /-- The text itself. -/
  | literal (text : List Char)
  /-- A capture of one character or more, none of them a slash. -/
  | name
  /-- A capture of one decimal digit or more, or nothing. -/
  | digits
  deriving DecidableEq, Repr

/-- Pieces of a pattern that match together or, if optional, not at all. -/
structure Block where
  pieces : List Piece
  optional : Bool
  deriving DecidableEq, Repr

/-- A pattern: its blocks, followed by an extension at the end of the text. -/
abbrev Pattern := List Block

/-- What a match captures, a text or nothing for each capture of the pattern,
    in order. -/
abbrev Captures := List (Option (List Char))

/-! ## As a regular expression -/

/-- The characters with a meaning in a regular expression. -/
def metaCharacters : List Char :=
  ['\\', '.', '+', '*', '?', '(', ')', '|', '[', ']', '\x7b', '\x7d', '^', '$', '#', '&', '-', '~']

/-- The text with a backslash before each character with a meaning. -/
def escape (text : List Char) : List Char :=
  text.flatMap fun c => if metaCharacters.contains c then ['\\', c] else [c]

/-- A piece as a regular expression. -/
def Piece.regex : Piece → List Char
  | literal text => escape text
  | name => "([^/]+)".toList
  | digits => "(\\d+)?".toList

/-- A block as a regular expression. -/
def Block.regex (b : Block) : List Char :=
  let inner := b.pieces.flatMap Piece.regex
  if b.optional then "(?:".toList ++ inner ++ ")?".toList else inner

/-- A pattern as a regular expression. -/
def Pattern.regex (pattern : Pattern) : List Char :=
  pattern.flatMap Block.regex ++ "\\.[[:alnum:]]+$".toList

/-! ## Captures -/

/-- The number of captures of a piece. -/
def Piece.captureCount : Piece → Nat
  | literal _ => 0
  | name | digits => 1

/-- The number of captures of a block. -/
def Block.captureCount (b : Block) : Nat :=
  b.pieces.foldl (fun count piece => count + piece.captureCount) 0

/-! ## Matching -/

/-- What the rest of a pattern captures at each suffix of a text, the text
    itself first and the empty suffix last. -/
abbrev Row := List (Option Captures)

/-- The row of the extension. -/
def extensionRow : List Char → Row
  | [] => [none]
  | c :: rest =>
    (if c == '.' && !rest.isEmpty && rest.all Char.isAlphanum then some [] else none) ::
      extensionRow rest

/-- The row of a character before the rest of a pattern. -/
def characterRow (c : Char) : List Char → Row → Row
  | x :: text, _ :: later =>
    (if x = c then later.head?.join else none) :: characterRow c text later
  | _, _ => [none]

/-- At each suffix of a text, the longest run of characters satisfying `p`,
    with what the rest of the pattern captures after it. -/
def runs (p : Char → Bool) : List Char → Row → List (Option (List Char × Captures))
  | x :: text, _ :: later =>
    let longer := runs p text later
    let here :=
      if p x then
        match longer.head?.join with
        | some (run, captures) => some (x :: run, captures)
        | none => later.head?.join.map ([x], ·)
      else none
    here :: longer
  | _, _ => [none]

/-- The row of a piece before the rest of a pattern. -/
def Piece.row (text : List Char) : Piece → Row → Row
  | literal chars, later => chars.foldr (fun c row => characterRow c text row) later
  | name, later =>
    (runs (· != '/') text later).map (Option.map fun r => some r.1 :: r.2)
  | digits, later =>
    List.zipWith (fun run skipped =>
      (run.map fun r => some r.1 :: r.2) <|> skipped.map (none :: ·))
      (runs Text.isDecimalDigit text later) later

/-- The row of a block before the rest of a pattern. -/
def Block.row (text : List Char) (b : Block) (later : Row) : Row :=
  let inside := b.pieces.foldr (fun piece row => piece.row text row) later
  if b.optional then
    List.zipWith (fun present absent =>
      present <|> absent.map (List.replicate b.captureCount none ++ ·)) inside later
  else inside

/-- What a pattern captures in a text, if it matches. -/
def Pattern.captures? (pattern : Pattern) (text : List Char) : Option Captures :=
  (pattern.foldr (fun block row => block.row text row) (extensionRow text)).findSome? id

end SongLibrary.Template
