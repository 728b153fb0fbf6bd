/-
  Cleaning text for use as a file name.

  A sanitizer removes the characters its platform does not allow in a file
  name and keeps the text within a number of bytes, counted in UTF-8.

  * `Sanitizer.clean` cleans a text: what is kept is the longest prefix of the
    allowed characters that fits (`Sanitizer.fitting`), less the dots at its
    end where the platform does not allow those;
  * `Sanitizer.cleanBytes` cleans a byte string: ill-formed bytes are dropped,
    and the text before each ends at the first character that does not fit.
-/
import SongLibrary.Text.Trim
import SongLibrary.Text.Utf8

namespace SongLibrary

open Text (Symbol)

/-- A family of operating systems. -/
inductive Platform where
  | windows
  | macOS
  | linux
  deriving DecidableEq, Repr

/-- The characters no platform allows in a file name. -/
def forbiddenCharacters : List Char :=
  [':', '/', '\\', '&', '|', '<', '>', '\'', '"']

namespace Platform

/-- Whether a backslash separates the parts of a path. -/
def separatesByBackslash : Platform → Bool
  | windows => true
  | macOS | linux => false

/-- Whether a file name must not hold a character. -/
def forbids (p : Platform) (c : Char) : Bool :=
  forbiddenCharacters.contains c || (p == windows && c == '^')

/-- Whether a file name must not end in a dot. -/
def stripsTrailingDots : Platform → Bool
  | windows => true
  | macOS | linux => false

end Platform

/-- The greatest number of bytes in a file name. -/
def maxNameBytes : Nat := 255

/-- How text is cleaned for a file name: the platform it is for and the number
    of bytes it may take. -/
structure Sanitizer where
  platform : Platform
  capacity : Nat := maxNameBytes
  deriving DecidableEq, Repr

namespace Sanitizer

variable (s : Sanitizer)

/-- The allowed characters of a text, up to the first that does not fit into
    the bytes left. -/
def fitting : Nat → List Char → List Char
  | _, [] => []
  | room, c :: rest =>
    if s.platform.forbids c then fitting room rest
    else if c.utf8Size ≤ room then c :: fitting (room - c.utf8Size) rest
    else []

/-- The text without trailing dots, where the platform does not allow them. -/
def withoutTrailingDots (text : List Char) : List Char :=
  if s.platform.stripsTrailingDots then Text.dropEndWhile (· == '.') text else text

/-- A text cleaned for use as a file name. -/
def clean (text : List Char) : List Char :=
  s.withoutTrailingDots (s.fitting s.capacity text)

/-- The allowed characters of a byte string that fit into the bytes left.  The
    flag tells whether every character since the last ill-formed sequence did
    fit: the first that does not ends the text up to the next such sequence. -/
def fittingSymbols : Nat → Bool → List Symbol → List Char
  | _, _, [] => []
  | room, _, .stray _ :: rest => fittingSymbols room true rest
  | room, false, .char _ :: rest => fittingSymbols room false rest
  | room, true, .char c :: rest =>
    if s.platform.forbids c then fittingSymbols room true rest
    else if c.utf8Size ≤ room then c :: fittingSymbols (room - c.utf8Size) true rest
    else fittingSymbols room false rest

/-- A byte string cleaned for use as a file name. -/
def cleanBytes (bytes : List UInt8) : List Char :=
  s.withoutTrailingDots (s.fittingSymbols s.capacity true (Text.decode bytes))

end Sanitizer

end SongLibrary
