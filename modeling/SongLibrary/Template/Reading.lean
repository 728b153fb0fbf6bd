/-
  Reading tags out of a path.

  * `Template.read?` matches a path; `Template.extract?` is the value of a tag
    and `Template.extractBypass?` the piece of path that `%BYPASS%` stands for;
  * a `Reader` keeps what the last path it was asked about gave, so that asking
    for several tags of one path matches it once.
-/
import SongLibrary.Template.Basic

namespace SongLibrary.Template

variable (t : Template)

/-- What a match captured for a placeholder. -/
def Placeholder.captured? (p : Placeholder) (captures : Captures) : Option (List Char) :=
  captures[p.capture - 1]?.join

/-- What a path gives for the placeholders, if it matches. -/
def read? (path : String) : Option Captures :=
  t.pattern.captures? path.toList

/-- The placeholders for a tag. -/
def placeholdersOf (key : TagKey) : List Placeholder :=
  t.placeholders.filter (·.field.tagKey? == some key)

/-- The value that captures give for a tag: what was captured for the first of
    its placeholders that has any text.  The numbers of tracks and discs are one
    where a path leaves them out. -/
def valueIn? (captures : Captures) (key : TagKey) : Option String :=
  let placeholders := t.placeholdersOf key
  match placeholders.findSome? fun p => (p.captured? captures).filter (!·.isEmpty) with
  | some text => some (String.ofList text)
  | none =>
    if (key = .trackNumber ∨ key = .discNumber) ∧ placeholders ≠ [] then some "1" else none

/-- The piece of path that captures give for `%BYPASS%`. -/
def bypassIn? (captures : Captures) : Option String :=
  let captured := (t.placeholders.filter (·.field == .bypass)).findSome? (·.captured? captures)
  (captured.filter (!·.isEmpty)).map String.ofList

/-- The value that a path gives for a tag. -/
def extract? (path : String) (key : TagKey) : Option String :=
  (t.read? path).bind (t.valueIn? · key)

/-- The piece of a path that `%BYPASS%` stands for. -/
def extractBypass? (path : String) : Option String :=
  (t.read? path).bind t.bypassIn?

/-! ## Reading several tags of one path -/

/-- A template with what the last path gave. -/
structure Reader where
  template : Template
  last : Option (String × Option Captures) := none

namespace Reader

/-- A reader that has not been asked yet. -/
def of (t : Template) : Reader := ⟨t, none⟩

/-- What a path gives, and the reader that remembers it. -/
def read? (r : Reader) (path : String) : Option Captures × Reader :=
  match r.last with
  | some (last, captures) =>
    if last = path then (captures, r)
    else
      let captures := r.template.read? path
      (captures, { r with last := some (path, captures) })
  | none =>
    let captures := r.template.read? path
    (captures, { r with last := some (path, captures) })

/-- The value that a path gives for a tag. -/
def extract? (r : Reader) (path : String) (key : TagKey) : Option String × Reader :=
  let (captures, r) := r.read? path
  (captures.bind (r.template.valueIn? · key), r)

/-- The piece of a path that `%BYPASS%` stands for. -/
def extractBypass? (r : Reader) (path : String) : Option String × Reader :=
  let (captures, r) := r.read? path
  (captures.bind r.template.bypassIn?, r)

end Reader

end SongLibrary.Template
