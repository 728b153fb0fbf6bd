/-
  Reading a configuration.

  Every member may be missing, and then has its default; members that are not
  known are passed over.  A section may be given as a list of its values in
  order, and a date stands for a section without members.  `Config.parse?` fails
  if any value is of the wrong kind.
-/
import SongLibrary.Config.Basic
import SongLibrary.Toml.Parser

namespace SongLibrary

namespace Toml

/-! ## Values -/

/-- The text of a string. -/
def text? : Toml → Option String
  | .string s => some s
  | _ => none

/-- A truth value. -/
def flag? : Toml → Option Bool
  | .boolean b => some b
  | _ => none

/-- A number that is not negative. -/
def size? : Toml → Option Nat
  | .integer (.ofNat n) => some n
  | _ => none

/-- The items of a list, each of them read. -/
def list? {α : Type} (read? : Toml → Option α) : Toml → Option (List α)
  | .array items => items.mapM read?
  | .tables items => items.mapM fun entries => read? (.table .headed entries)
  | _ => none

/-! ## Sections -/

/-- Whether a value can stand for a section. -/
def isSection : Toml → Bool
  | .table _ _ | .array _ | .tables _ | .date _ => true
  | _ => false

/-- The value of a member of a section, given by its place and its name. -/
def member? (place : Nat) (name : String) : Toml → Option Toml
  | .table _ entries => entries.lookup name
  | .array items => items[place]?
  | .tables items => items[place]?.map (.table .headed)
  | _ => none

/-- A member of a section, read, or a default where there is none. -/
def memberD {α : Type} (v : Toml) (place : Nat) (name : String) (default : α)
    (read? : Toml → Option α) : Option α :=
  match v.member? place name with
  | some member => read? member
  | none => some default

end Toml

/-! ## The configuration -/

/-- The genre that a value is.  It has to have a name. -/
def Genre.ofToml? (v : Toml) : Option Genre := do
  let name ← (← v.member? 0 "name").text?
  return ⟨name, ← v.memberD 1 "classical" false Toml.flag?⟩

/-- The reference data that a value is. -/
def ReferenceData.ofToml? (v : Toml) : Option ReferenceData :=
  let d : ReferenceData := {}
  if !v.isSection then none
  else return {
    genres := ← v.memberD 0 "genres" d.genres (Toml.list? Genre.ofToml?)
    dances := ← v.memberD 1 "dances" d.dances (Toml.list? Toml.text?)
    defaultDanceLevel := ← v.memberD 2 "default_dance_level" d.defaultDanceLevel Toml.text? }

/-- How a run is tuned, given by a value. -/
def RunSettings.ofToml? (v : Toml) : Option RunSettings :=
  let d : RunSettings := {}
  if !v.isSection then none
  else return {
    queueLimit := ← v.memberD 0 "queue_limit" d.queueLimit Toml.size?
    filenameBatch := ← v.memberD 1 "filename_batch" d.filenameBatch Toml.size? }

/-- How a library is laid out and scanned, given by a value. -/
def LibrarySettings.ofToml? (v : Toml) : Option LibrarySettings :=
  let d : LibrarySettings := {}
  let optional : Toml → Option (Option String) := fun v => v.text?.map some
  if !v.isSection then none
  else return {
    musicDir := ← v.memberD 0 "music_dir" d.musicDir optional
    databasePath := ← v.memberD 1 "database_path" d.databasePath Toml.text?
    orgPath := ← v.memberD 2 "org_path" d.orgPath Toml.text?
    bypassOrgPath := ← v.memberD 3 "bypass_org_path" d.bypassOrgPath optional
    autoOrganize := ← v.memberD 4 "auto_organize" d.autoOrganize Toml.flag?
    legacyDirs := ← v.memberD 5 "legacy_dirs" d.legacyDirs (Toml.list? Toml.text?)
    deletePrefix := ← v.memberD 6 "delete_prefix" d.deletePrefix Toml.text?
    backupSuffix := ← v.memberD 7 "backup_suffix" d.backupSuffix Toml.text?
    nonAudioExtensions :=
      ← v.memberD 8 "non_audio_extensions" d.nonAudioExtensions (Toml.list? Toml.text?) }

namespace Config

/-- The configuration that a value is. -/
def ofToml? (v : Toml) : Option Config :=
  if !v.isSection then none
  else return {
    library := ← v.memberD 0 "library" {} LibrarySettings.ofToml?
    reconcile := ← v.memberD 1 "reconcile" {} RunSettings.ofToml?
    reference := ← v.memberD 2 "reference" {} ReferenceData.ofToml? }

/-- The configuration that a text is. -/
def parse? (text : String) : Option Config :=
  (Toml.parse? text).bind ofToml?

end Config

end SongLibrary
