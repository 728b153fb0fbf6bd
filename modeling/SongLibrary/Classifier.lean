/-
  Which files are candidates for the table.

  * `Classifier.skipReason?` is why a file is left out before it is read: its
    extension or its name says so, or, for a file found on disk, it lies in a
    directory of an older layout;
  * `Classifier.isBadName` tells whether the name of a file has a character that
    is never accepted.
-/
import SongLibrary.Config.Basic
import SongLibrary.Path
import SongLibrary.Sanitizer

namespace SongLibrary

/-- Why a file is left out. -/
inductive SkipReason where
  /-- Its extension is not one of audio files. -/
  | nonAudio
  /-- It is a backup copy. -/
  | originalBackup
  /-- It is marked to be deleted. -/
  | markedDeleted
  /-- It is in a directory of an older layout. -/
  | legacyDirectory
  deriving DecidableEq, Repr

/-- The rules for a library. -/
structure Classifier where
  /-- Extensions of files without sound, in lower case. -/
  nonAudio : List (List Char)
  /-- How extensions of backup copies end, in lower case. -/
  backupSuffix : List Char
  deletePrefix : List Char
  legacyDirs : List Path
  platform : Platform

namespace Classifier

/-- The rules for the library at a music directory. -/
def new (library : LibrarySettings) (musicDir : Path) (platform : Platform) : Classifier where
  nonAudio := library.nonAudioExtensions.map fun e =>
    Text.lowercase (e.toList.dropWhile (· == '.'))
  backupSuffix := Text.lowercase library.backupSuffix.toList
  deletePrefix := library.deletePrefix.toList
  legacyDirs := library.legacyDirs.map fun d => musicDir.join (.ofString d)
  platform := platform

variable (c : Classifier)

/-- The extension of a file in lower case, empty if there is none. -/
def extensionOf (path : Path) : List Char :=
  Text.lowercase ((path.extension?.bind Text.textOf?).getD [])

/-- The name of a file, as it is shown. -/
def shownName (path : Path) : List Char :=
  (path.fileName?.getD []).map Text.Symbol.shown

/-- Whether a file is marked to be deleted. -/
def isMarkedDeleted (path : Path) : Bool :=
  !c.deletePrefix.isEmpty && c.deletePrefix.isPrefixOf (shownName path)

/-- Why a file is left out, if it is. -/
def skipReason? (path : Path) (onDisk : Bool) : Option SkipReason :=
  let extension := extensionOf path
  if extension.isEmpty || c.nonAudio.contains extension then some .nonAudio
  else if !c.backupSuffix.isEmpty && c.backupSuffix.isSuffixOf extension then some .originalBackup
  else if c.isMarkedDeleted path then some .markedDeleted
  else if onDisk && c.legacyDirs.any path.startsWith then some .legacyDirectory
  else none

/-- Whether the name of a file has a quote or, where it does not separate parts
    of a path, a backslash. -/
def isBadName (path : Path) : Bool :=
  (shownName path).any fun ch =>
    ch == '"' || (ch == '\\' && !c.platform.separatesByBackslash)

end Classifier

end SongLibrary
