/-
  JSON values.

  A string may be written with an escaped half of a surrogate pair, which is no
  character; such a string has no text (`Json.string none`).  A value whose
  strings all have texts, whose numbers are in range, and that is not nested too
  deeply, is `Json.isPlain`.
-/
import SongLibrary.Json.Number

namespace SongLibrary

/-- A JSON value. -/
inductive Json where
  | null
  | bool (b : Bool)
  /-- A number as it is written. -/
  | number (literal : String)
  /-- A string, unless its text has half a surrogate pair. -/
  | string (text : Option String)
  | array (items : List Json)
  /-- The members in the order they are written, repeated names included. -/
  | object (members : List (Option String × Json))

namespace Json

/-- A string with a text. -/
def text (s : String) : Json := .string (some s)

/-- An object whose names are texts. -/
def record (members : List (String × Json)) : Json :=
  .object (members.map fun m => (some m.1, m.2))

/-- The text of a string. -/
def text? : Json → Option String
  | .string s => s
  | _ => none

/-- A truth value. -/
def bool? : Json → Option Bool
  | .bool b => some b
  | _ => none

/-- The members of an object. -/
def members? : Json → Option (List (Option String × Json))
  | .object members => some members
  | _ => none

/-- The value of the last member of an object with a given name. -/
def member? (j : Json) (name : String) : Option Json :=
  j.members?.bind fun members => (members.reverse.find? (·.1 == some name)).map (·.2)

/-- The members without those that one of the same name follows. -/
def lastMembers : List (Option String × Json) → List (Option String × Json)
  | [] => []
  | m :: rest => if rest.any (·.1 == m.1) then lastMembers rest else m :: lastMembers rest

mutual

/-- A value that has, in each object, the last of several members of one name
    only. -/
def withoutRepeats : Json → Json
  | .array items => .array (itemsWithoutRepeats items)
  | .object members => .object (lastMembers (membersWithoutRepeats members))
  | other => other

/-- The same for every value of a list. -/
def itemsWithoutRepeats : List Json → List Json
  | [] => []
  | j :: rest => j.withoutRepeats :: itemsWithoutRepeats rest

/-- The same for every member of an object. -/
def membersWithoutRepeats : List (Option String × Json) → List (Option String × Json)
  | [] => []
  | (name, j) :: rest => (name, j.withoutRepeats) :: membersWithoutRepeats rest

end

/-- An object with one member replaced, or added at the end. -/
def setMember (j : Json) (name : String) (value : Json) : Json :=
  match j with
  | .object members => .object (members.filter (·.1 != some name) ++ [(some name, value)])
  | other => other

/-- The levels that arrays and objects may be nested. -/
def maxDepth : Nat := 127

mutual

/-- Whether all strings have texts, all numbers are in range, and arrays and
    objects are nested at most `depth` deep. -/
def isPlainWithin (depth : Nat) : Json → Bool
  | .null | .bool _ => true
  | .number literal => isInRange literal
  | .string s => s.isSome
  | .array items => 0 < depth && arePlainWithin (depth - 1) items
  | .object members => 0 < depth && membersPlainWithin (depth - 1) members

/-- The same for every value of a list. -/
def arePlainWithin (depth : Nat) : List Json → Bool
  | [] => true
  | j :: rest => j.isPlainWithin depth && arePlainWithin depth rest

/-- The same for every member of an object. -/
def membersPlainWithin (depth : Nat) : List (Option String × Json) → Bool
  | [] => true
  | (name, j) :: rest => name.isSome && j.isPlainWithin depth && membersPlainWithin depth rest

end

/-- Whether all strings have texts, all numbers are in range, and the value is
    not nested too deeply. -/
def isPlain (j : Json) : Bool :=
  j.isPlainWithin maxDepth

end Json

end SongLibrary
