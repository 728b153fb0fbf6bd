/-
  Reference data: the genres, the dances and the usual dance level.

  * `ReferenceData.isClassical` tells whether a genre is a classical one;
  * `ReferenceData.danceOfGenre?` is the dance a genre names.

  Both compare names without regard to the case of ASCII letters.
-/
import SongLibrary.Text.Lowercase
import SongLibrary.Text.Trim

namespace SongLibrary

/-- A genre.  Songs of a classical one are told apart by composer and
    conductor. -/
structure Genre where
  name : String
  classical : Bool := false
  deriving DecidableEq, Repr

/-- The tables that tags are looked up in. -/
structure ReferenceData where
  genres : List Genre :=
    [⟨"Ballroom Dance", false⟩, ⟨"Blues", false⟩, ⟨"Classical", true⟩, ⟨"Jazz", false⟩,
      ⟨"Latin", false⟩, ⟨"Opera", true⟩, ⟨"Pop", false⟩, ⟨"Rock", false⟩, ⟨"Tango", false⟩,
      ⟨"Waltz", false⟩]
  dances : List String :=
    ["Cha Cha", "Foxtrot", "Jive", "Paso Doble", "Quickstep", "Rumba", "Salsa", "Samba", "Swing",
      "Tango", "Viennese Waltz", "Waltz"]
  /-- The level of songs that have none. -/
  defaultDanceLevel : String := "Normal"
  deriving DecidableEq, Repr

namespace ReferenceData

variable (refs : ReferenceData)

/-- Whether a genre is one of the classical genres.  An unknown one is not. -/
def isClassical (genre : String) : Bool :=
  refs.genres.any fun g => g.classical && Text.asciiEqual g.name genre

/-- The dance that a genre, blanks around it aside, is the name of. -/
def danceOfGenre? (genre : String) : Option String :=
  let name := String.ofList (Text.trim genre.toList)
  if name.isEmpty then none else refs.dances.find? (Text.asciiEqual · name)

end ReferenceData

end SongLibrary
