/-
  Where songs are.

  The table names the place of a file by a key (`keyOf`): the path of the file
  from the music directory, or its whole path if it is not in there.
  `resolve` leads back from a key to a path.
-/
import SongLibrary.Path

namespace SongLibrary

/-- A path as it is seen from a directory: what follows the directory, or the
    whole path if it does not lead there. -/
def pathFrom (directory path : Path) : String :=
  match path.stripBase? directory with
  | some rest => rest.shown
  | none => path.shown

/-- The key of a file. -/
def keyOf (musicDir path : Path) : String :=
  pathFrom musicDir path

/-- The path of the file with a given key. -/
def resolve (musicDir : Path) (key : String) : Path :=
  musicDir.join (.ofString key)

end SongLibrary
