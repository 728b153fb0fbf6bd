/-
  Paths.

  A path is a byte string, kept as its characters and ill-formed sequences
  (`Text.Symbol`).  A slash separates its parts; empty parts and parts `.` are
  silent, except for a `.` at the beginning of a relative path.

  * `Path.components` is what a path means: where it starts and the names it
    goes through.  Paths are the same file's when their components are equal
    (`Path.sameAs`), whatever the silent parts;
  * `Path.join`, `Path.parent?`, `Path.fileName?`, `Path.extension?` and
    `Path.stripBase?` work on components and keep the text of the parts they do
    not touch.
-/
import SongLibrary.Text.Trim
import SongLibrary.Text.Utf8

namespace SongLibrary

open Text (Symbol)

/-- A part of a path, or the name of a file in a directory. -/
abbrev Name := List Symbol

namespace Name

/-- The name a text is. -/
def ofString (text : String) : Name :=
  Text.symbolsOf text

/-- The name as text, with replacement characters for ill-formed bytes. -/
def shown (name : Name) : String :=
  Text.shownText name

/-- The bytes of a name.  Names are ordered by them. -/
def bytes (name : Name) : List UInt8 :=
  Text.encode name

/-- The name of the directory itself. -/
def here : Name := [.char '.']

/-- The name of the directory above. -/
def up : Name := [.char '.', .char '.']

/-- Whether a part does not count as a component. -/
def isSilent (name : Name) : Bool :=
  name.isEmpty || name == here

/-- The extension of a file name: what follows its last dot, when that is not
    the first symbol. -/
def extension? (name : Name) : Option Name :=
  match name.reverse.span (· != .char '.') with
  | (_, []) | (_, [_]) => none
  | (after, _) => some after.reverse

/-- A file name without its extension. -/
def stem (name : Name) : Name :=
  match name.extension? with
  | some ext => name.take (name.length - ext.length - 1)
  | none => name

end Name

/-- A path. -/
structure Path where
  symbols : List Symbol
  deriving DecidableEq, Repr

namespace Path

/-- The symbol between the parts of a path. -/
def slash : Symbol := .char '/'

/-- The path a text is. -/
def ofString (text : String) : Path :=
  ⟨Text.symbolsOf text⟩

/-- The path a byte string is. -/
def ofBytes (bytes : List UInt8) : Path :=
  ⟨Text.decode bytes⟩

/-- The path as text, with replacement characters for ill-formed bytes. -/
def shown (p : Path) : String :=
  Text.shownText p.symbols

@[simp] theorem shown_ofString (text : String) : (ofString text).shown = text :=
  Text.shownText_symbolsOf text

/-! ## Parts -/

/-- The parts of a path: what stands between its slashes. -/
def parts (p : Path) : List Name :=
  p.symbols.splitOn slash

/-- The path with the given parts. -/
def ofParts (parts : List Name) : Path :=
  ⟨parts.intersperse [slash] |>.flatten⟩

/-- Where a path starts. -/
inductive Start where
  /-- At the root of the file system. -/
  | root
  /-- At the working directory, written as `.`. -/
  | here
  /-- At the working directory, not written. -/
  | silent
  deriving DecidableEq, Repr

/-- Where a path starts. -/
def start (p : Path) : Start :=
  match p.parts with
  | [] :: _ :: _ => .root
  | name :: _ => if name == Name.here then .here else .silent
  | [] => .silent

/-- The parts after the start. -/
def body (p : Path) : List Name :=
  match p.start with
  | .root | .here => p.parts.drop 1
  | .silent => p.parts

/-- The names a path goes through, in order. -/
def names (p : Path) : List Name :=
  p.body.filter fun name => !name.isSilent

/-- The path with a given start and the given parts after it. -/
def ofBody (start : Start) (body : List Name) : Path :=
  match start with
  | .root => ofParts ([] :: if body.isEmpty then [[]] else body)
  | .here => ofParts (Name.here :: body)
  | .silent => ofParts body

/-- What a path means: where it starts and the names it goes through. -/
def components (p : Path) : Start × List Name :=
  (p.start, p.names)

/-- Whether two paths have the same components. -/
def sameAs (p q : Path) : Bool :=
  p.components == q.components

/-- Whether a path starts at the root of the file system. -/
def isAbsolute (p : Path) : Bool :=
  p.start == .root

/-! ## Taking apart -/

/-- The last name of a path, unless it leads upward. -/
def fileName? (p : Path) : Option Name :=
  p.names.getLast?.filter (· != Name.up)

/-- The extension of a path's file name. -/
def extension? (p : Path) : Option Name :=
  p.fileName?.bind Name.extension?

/-- Parts without the silent ones at the end. -/
def trimEnd (parts : List Name) : List Name :=
  Text.dropEndWhile Name.isSilent parts

/-- The path without its last component.  The root and the empty path have no
    parent. -/
def parent? (p : Path) : Option Path :=
  match p.names, p.start with
  | [], .here => some (ofParts [])
  | [], .root | [], .silent => none
  | _ :: _, start => some (ofBody start (trimEnd (trimEnd p.body).dropLast))

/-- The parts after those with given names, silent parts between them aside. -/
def partsAfter? : List Name → List Name → Option (List Name)
  | parts, [] => some parts
  | [], _ :: _ => none
  | part :: parts, name :: names =>
    if part.isSilent then partsAfter? parts (name :: names)
    else if part = name then partsAfter? parts names
    else none

/-- What remains of a path after a base that its components begin with: the
    text as written, silent parts at its ends aside. -/
def stripBase? (p base : Path) : Option Path :=
  if base.components = (.silent, []) then some (ofBody p.start (trimEnd p.body))
  else if p.start = base.start then
    (partsAfter? p.body base.names).map fun rest =>
      ofParts (trimEnd (rest.dropWhile Name.isSilent))
  else none

/-- Whether the components of a path begin with those of a base. -/
def startsWith (p base : Path) : Bool :=
  base.components == (.silent, []) ||
    (p.start == base.start && base.names.isPrefixOf p.names)

/-! ## Putting together -/

/-- The path that a path is, seen from a base: an absolute one is itself. -/
def join (base p : Path) : Path :=
  if p.isAbsolute then p
  else if base.symbols.isEmpty || base.symbols.getLast? == some slash then
    ⟨base.symbols ++ p.symbols⟩
  else ⟨base.symbols ++ slash :: p.symbols⟩

/-- The path of a name in the directory a path is. -/
def child (p : Path) (name : Name) : Path :=
  p.join ⟨name⟩

/-- The path with text added at the end of its last name. -/
def addSuffix (p : Path) (suffix : String) : Path :=
  ⟨p.symbols ++ Text.symbolsOf suffix⟩

/-- The path with the extension of its file name replaced. -/
def withExtension (p : Path) (extension : String) : Path :=
  match p.fileName? with
  | some name =>
    ofBody p.start
      ((trimEnd p.body).dropLast ++ [name.stem ++ .char '.' :: Text.symbolsOf extension])
  | none => p

end Path

end SongLibrary
