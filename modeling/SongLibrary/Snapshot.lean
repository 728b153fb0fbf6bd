/-
  Snapshots: the files that a command works on, as JSON.

  A snapshot is an object with the working directory, the path of the
  configuration, the time, and a list of files.  A file has a path and one of the
  members `directory`, `text`, `bytes`, `audio` and `songs`.

  * `Snapshot.parse?` reads a snapshot;
  * `Snapshot.print` writes one.
-/
import SongLibrary.FileTree.Change
import SongLibrary.FileTree.Walk
import SongLibrary.Text.Hexadecimal

namespace SongLibrary

/-- The files that a command works on, and what it has to know besides. -/
structure Snapshot where
  files : FileTree
  /-- The file of the configuration, if there is a directory for it. -/
  configPath : Option Path
  /-- The time. -/
  now : String

namespace Snapshot

/-! ## Numbers and bytes -/

/-- A number. -/
def ofInt (n : Int) : Json :=
  .number (toString n)

/-- The integer that a number is. -/
def int? : Json → Option Int
  | .number literal => literal.toInt?
  | _ => none

/-- The number that is not negative. -/
def nat? (j : Json) : Option Nat :=
  (int? j).bind Int.toNat?

/-- The 64-bit word that a number is. -/
def word? (j : Json) : Option Int64 :=
  (int? j).bind fun n =>
    if Int64.minValue.toInt ≤ n ∧ n ≤ Int64.maxValue.toInt then some (.ofInt n) else none

/-- Bytes as hexadecimal digits. -/
def hex (bytes : List UInt8) : String :=
  String.ofList (bytes.flatMap fun b =>
    [Text.hexDigit (b.toNat / 16), Text.hexDigit (b.toNat % 16)])

/-- The bytes that hexadecimal digits are. -/
def bytes? : List Char → Option (List UInt8)
  | [] => some []
  | [_] => none
  | a :: b :: rest => do
    return .ofNat (16 * (← Text.hexValue? a) + (← Text.hexValue? b)) :: (← bytes? rest)

/-- The items of an array, each of them read. -/
def list? {α : Type} (read? : Json → Option α) : Json → Option (List α)
  | .array items => items.mapM read?
  | _ => none

/-! ## Contents -/

/-- An audio file as JSON. -/
def ofAudio (file : AudioFile) : Json :=
  .record [
    ("comments", .array (file.comments.map Json.text)),
    ("samples", ofInt file.samples),
    ("rate", ofInt file.rate)]

/-- The audio file that a JSON value is. -/
def audio? (j : Json) : Option AudioFile := do
  return {
    comments := ← list? Json.text? (← j.member? "comments")
    samples := ← nat? (← j.member? "samples")
    rate := ← nat? (← j.member? "rate") }

/-- A row of a table as JSON. -/
def ofRow (row : Row) : Json :=
  .record [
    ("id", ofInt row.id.toInt),
    ("uri", .text row.uri),
    ("tags", .text row.tags),
    ("date_added", .text row.dateAdded),
    ("prefix_len", ofInt row.prefixLength.toInt),
    ("prevent_rename", .bool row.preventRename)]

/-- The row that a JSON value is. -/
def row? (j : Json) : Option Row := do
  return {
    id := ← word? (← j.member? "id")
    uri := ← (← j.member? "uri").text?
    tags := ← (← j.member? "tags").text?
    dateAdded := ← (← j.member? "date_added").text?
    prefixLength := ← word? (← j.member? "prefix_len")
    preventRename := ← (← j.member? "prevent_rename").bool? }

/-- The table with some rows, whose ids differ. -/
def table? (rows : List Row) : Option SongTable :=
  rows.foldlM SongTable.insertRow? SongTable.empty

/-- The member that tells what is at a path. -/
def ofEntry : Entry → String × Json
  | .directory => ("directory", .bool true)
  | .file (.text s) => ("text", .text s)
  | .file (.binary bytes) => ("bytes", .text (hex bytes))
  | .file (.audio file) => ("audio", ofAudio file)
  | .file (.songs table) => ("songs", .array (table.rows.map ofRow))

/-- The content of a file that is no directory. -/
def content? (j : Json) : Option Content :=
  match j.member? "text", j.member? "bytes", j.member? "audio", j.member? "songs" with
  | some s, none, none, none => s.text?.map .text
  | none, some s, none, none => (s.text?.bind fun s => bytes? s.toList).map .ofBytes
  | none, none, some file, none => (audio? file).map .audio
  | none, none, none, some rows => ((list? row? rows).bind table?).map .songs
  | _, _, _, _ => none

/-! ## Snapshots -/

/-- The tree with one more file or directory, and those above it. -/
def addFile? (t : FileTree) (j : Json) : Option FileTree := do
  let path := Path.ofString (← (← j.member? "path").text?)
  if ((j.member? "directory").bind Json.bool?).getD false then
    match t.createDirectories path with
    | (t, .ok ()) => return t
    | (_, .error _) => none
  else
    let t := match path.parent? with
      | some parent => (t.createDirectories parent).1
      | none => t
    (t.write path (← content? j)).toOption

/-- The snapshot that a JSON value is. -/
def ofJson? (j : Json) : Option Snapshot := do
  let dir := Path.ofString (← (← j.member? "directory").text?)
  let base := (({} : FileTree).createDirectories dir).1
  let files ← match ← j.member? "files" with
    | .array items => items.foldlM addFile? { base with workingDir := dir.names }
    | _ => none
  return {
    files
    configPath := ((j.member? "config").bind Json.text?).map Path.ofString
    now := ((j.member? "now").bind Json.text?).getD "" }

/-- The snapshot that a JSON text is. -/
def parse? (text : String) : Option Snapshot :=
  (Json.parse? text).bind ofJson?

/-- A snapshot as JSON. -/
def toJson (s : Snapshot) : Json :=
  let shown := fun names => (Path.ofParts ([] :: names)).shown
  .record [
    ("directory", .text (shown s.files.workingDir)),
    ("config", (s.configPath.map fun p => Json.text p.shown).getD .null),
    ("now", .text s.now),
    ("files", .array ((s.files.leaves []).map fun (names, e) =>
      .record [("path", .text (shown names)), ofEntry e]))]

/-- A snapshot as JSON text. -/
def print (s : Snapshot) : String :=
  s.toJson.print

end Snapshot

end SongLibrary
