/-
  Writing a configuration.

  Every member is written, those that are not set aside, in sections: the
  library, the tuning of runs, the reference data, and each genre.
-/
import SongLibrary.Config.Basic
import SongLibrary.Toml.Printer

namespace SongLibrary

open Toml (Section)

/-- The section of the library. -/
def LibrarySettings.toSection (l : LibrarySettings) : Section where
  header := "[library]"
  entries :=
    (l.musicDir.map fun dir => ("music_dir", .text dir)).toList ++
    [("database_path", .text l.databasePath), ("org_path", .text l.orgPath)] ++
    (l.bypassOrgPath.map fun template => ("bypass_org_path", .text template)).toList ++
    [("auto_organize", .flag l.autoOrganize), ("legacy_dirs", .texts l.legacyDirs),
      ("delete_prefix", .text l.deletePrefix), ("backup_suffix", .text l.backupSuffix),
      ("non_audio_extensions", .texts l.nonAudioExtensions)]

/-- The section of the tuning of runs. -/
def RunSettings.toSection (r : RunSettings) : Section where
  header := "[reconcile]"
  entries := [("queue_limit", .number r.queueLimit), ("filename_batch", .number r.filenameBatch)]

/-- The section of a genre. -/
def Genre.toSection (g : Genre) : Section where
  header := "[[reference.genres]]"
  entries := [("name", .text g.name), ("classical", .flag g.classical)]

/-- The section of the reference data, and those of the genres. -/
def ReferenceData.toSections (d : ReferenceData) : List Section :=
  let noGenres := if d.genres.isEmpty then [("genres", .texts [])] else []
  { header := "[reference]"
    entries := noGenres ++ [("dances", .texts d.dances),
      ("default_dance_level", .text d.defaultDanceLevel)] } :: d.genres.map Genre.toSection

/-- A configuration as text, unless a number is out of range. -/
def Config.write? (c : Config) : Option String :=
  Toml.write? (c.library.toSection :: c.reconcile.toSection :: c.reference.toSections)

end SongLibrary
