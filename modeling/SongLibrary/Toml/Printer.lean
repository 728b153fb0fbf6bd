/-
  Writing TOML.

  A text is written section by section (`Toml.Section`): a header, and below it
  one entry on a line.  An array of several items has each of them on a line.
-/
import SongLibrary.Toml.Text

namespace SongLibrary.Toml

/-- A value that can be written. -/
inductive Setting where
  | text (s : String)
  | number (n : Nat)
  | flag (b : Bool)
  | texts (items : List String)

/-- An integer is less than this. -/
def integerBound : Nat := Nat.pow 2 63

/-- Whether a value is within the range of its kind. -/
def Setting.isWritable : Setting → Bool
  | number n => n < integerBound
  | text _ | flag _ | texts _ => true

/-- A string as it is written. -/
def writeText (s : String) : String :=
  String.ofList (quote s.toList)

/-- A value as it is written. -/
def Setting.write : Setting → String
  | text s => writeText s
  | number n => toString n
  | flag b => if b then "true" else "false"
  | texts [] => "[]"
  | texts [s] => "[" ++ writeText s ++ "]"
  | texts items =>
    "[\n" ++ String.join (items.map fun s => "    " ++ writeText s ++ ",\n") ++ "]"

/-- A header with the entries below it. -/
structure Section where
  header : String
  entries : List (String × Setting)

/-- A section as it is written. -/
def Section.write (s : Section) : String :=
  s.header ++ "\n" ++ String.join (s.entries.map fun e => e.1 ++ " = " ++ e.2.write ++ "\n")

/-- Sections as they are written, unless a value is out of range. -/
def write? (sections : List Section) : Option String :=
  if sections.all fun s => s.entries.all (·.2.isWritable) then
    some ("\n".intercalate (sections.map Section.write))
  else none

end SongLibrary.Toml
