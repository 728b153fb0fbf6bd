/-
  Filling in the tags that a file leaves open.

  `fillDerived` keeps every tag a file has.  A missing dance is the one that
  the genre names, a missing level the usual one, and after that any tag of a
  template that is still missing is read out of the path.
-/
import SongLibrary.Reference
import SongLibrary.Song
import SongLibrary.Template.Reading

namespace SongLibrary.Reconcile

/-- The song with the dance that its genre names, if it has none. -/
def fillDance (refs : ReferenceData) (song : Song) : Song :=
  match song.get? .dance, (song.get? .genre).bind refs.danceOfGenre? with
  | none, some dance => song.set .dance dance
  | _, _ => song

/-- The song with the usual dance level, if it has none and there is one. -/
def fillLevel (refs : ReferenceData) (song : Song) : Song :=
  if (song.get? .danceLevel).isNone && !refs.defaultDanceLevel.isEmpty then
    song.set .danceLevel refs.defaultDanceLevel
  else song

/-- The song with the value that a path gives for a tag, if it has none. -/
def fillFromPath (t : Template) (captures : Template.Captures) (song : Song) (key : TagKey) :
    Song :=
  match song.get? key, t.valueIn? captures key with
  | none, some value => song.set key value
  | _, _ => song

/-- The song with the tags that a file leaves open. -/
def fillDerived (refs : ReferenceData) (t : Template) (relative : String) (song : Song) : Song :=
  let song := fillLevel refs (fillDance refs song)
  match t.read? relative with
  | none => song
  | some captures => t.tagKeys.foldl (fillFromPath t captures) song

end SongLibrary.Reconcile
