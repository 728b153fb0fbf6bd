/-
  Where a file would be moved.

  * `Template.place` is the place that a template gives a file;
  * `Config.preview` is the place of a file with given tags, seen from a music
    directory: its dance is filled in from its genre, and `%BYPASS%` is read out
    of its path.
-/
import SongLibrary.Config.Basic
import SongLibrary.Location
import SongLibrary.Reconcile.Derive
import SongLibrary.Template.Rendering

namespace SongLibrary

/-- Where a file is and where it would be. -/
structure Placement where
  source : Path
  destination : Path
  /-- The path of the destination from the music directory. -/
  relative : String

/-- Whether a file is somewhere else than it would be. -/
def Placement.moves (p : Placement) : Bool :=
  !p.source.sameAs p.destination

/-- The place that a template gives a file. -/
def Template.place (t : Template) (refs : ReferenceData) (song : Song) (bypass : Option String)
    (s : Sanitizer) (source musicDir : Path) : Placement :=
  let relative := t.render refs song bypass s
  ⟨source, musicDir.join (.ofString relative), relative⟩

/-- A path as it is seen from the music directory: what follows the directory, or
    the name of the file if it is not in there. -/
def nameFrom (musicDir path : Path) : String :=
  match path.stripBase? musicDir with
  | some rest => rest.shown
  | none => (path.fileName?.map Name.shown).getD ""

/-- The place of a file with given tags. -/
def Config.preview (c : Config) (platform : Platform) (musicDir path : Path) (tags : TagMap) :
    Placement :=
  let relative := nameFrom musicDir path
  let template := Template.compile c.library.orgPath
  let reading := (c.library.bypassOrgPath.map Template.compile).getD template
  let song := Reconcile.fillDance c.reference
    { Song.new relative "" with tags := tags }
  let bypass := if template.mentions .bypass then reading.extractBypass? relative else none
  template.place c.reference song bypass { platform } path musicDir

end SongLibrary
