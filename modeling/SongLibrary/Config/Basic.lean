/-
  The configuration: how a library is laid out and scanned, how a run is tuned,
  and the reference data.
-/
import SongLibrary.Reference

namespace SongLibrary

/-- How a library is laid out and scanned. -/
structure LibrarySettings where
  /-- The root of the music library. -/
  musicDir : Option String := none
  /-- The file of the song table. -/
  databasePath : String := "songkeeper.db"
  /-- The template of the places of files. -/
  orgPath : String :=
    "\x7b%DANCE%/\x7d\x7b%ALBUMARTIST%/\x7d\x7b%ALBUM%/\x7d\x7b%TRACKNUMBER0% - \x7d\x7b%TITLE%\x7d"
  /-- The template of an older layout, which `%BYPASS%` is read with. -/
  bypassOrgPath : Option String := none
  /-- Whether files are moved to their places when they are added. -/
  autoOrganize : Bool := false
  /-- Directories, seen from the music directory, that are not scanned. -/
  legacyDirs : List String := []
  /-- How the names of files to be deleted begin. -/
  deletePrefix : String := "delete-"
  /-- How the extensions of backup copies end. -/
  backupSuffix : String := "original"
  /-- The extensions of files without sound. -/
  nonAudioExtensions : List String :=
    ["jpg", "jpeg", "png", "gif", "bmp", "ico", "svg", "bak", "tmp", "txt", "nfo", "log", "cue",
      "m3u", "pdf", "ini", "db"]
  deriving DecidableEq, Repr

/-- How a run is tuned. -/
structure RunSettings where
  /-- The number of jobs at which no more candidates are taken. -/
  queueLimit : Nat := 100
  /-- The number of candidates that are looked at in one step. -/
  filenameBatch : Nat := 20
  deriving DecidableEq, Repr

/-- The configuration. -/
structure Config where
  library : LibrarySettings := {}
  reconcile : RunSettings := {}
  reference : ReferenceData := {}
  deriving DecidableEq, Repr

end SongLibrary
