/-
  Lowercasing text.

  `lowercase` maps each character to its lowercase form.  Two characters are
  special: a capital I with dot above becomes two characters, and a capital
  sigma takes its final form at the end of a word, that is after a letter with
  case and not before one, case-ignorable characters between them aside.

  `asciiEqual` compares two texts without regard to the case of ASCII letters.
-/
import SongLibrary.Text.CaseData

namespace SongLibrary.Text

/-- Whether a code lies in one of some ranges. -/
def inRanges (ranges : List (Nat × Nat)) (code : Nat) : Bool :=
  ranges.any fun r => r.1 ≤ code && code ≤ r.2

/-- The lowercase form of a character that has one of one character, else the
    character. -/
def lowerChar (c : Char) : Char :=
  if c.toNat < 0x80 then c.toLower
  else
    match lowercaseRuns.find? fun r =>
      r.first ≤ c.toNat && c.toNat ≤ r.last && (c.toNat - r.first) % r.step == 0 with
    | some r => Char.ofNat (r.lower + (c.toNat - r.first))
    | none => c

/-- Whether the first character that is not case-ignorable has case. -/
def reachesCased (text : List Char) : Bool :=
  match text.find? fun c => !inRanges caseIgnorableRanges c.toNat with
  | some c => inRanges casedRanges c.toNat
  | none => false

/-- The lowercase form of a text; `before` are the characters before it,
    nearest first. -/
def lowercaseAfter (before : List Char) : List Char → List Char
  | [] => []
  | 'Σ' :: rest =>
    let final := reachesCased before && !reachesCased rest
    (if final then 'ς' else 'σ') :: lowercaseAfter ('Σ' :: before) rest
  | 'İ' :: rest => 'i' :: '\u0307' :: lowercaseAfter ('İ' :: before) rest
  | c :: rest => lowerChar c :: lowercaseAfter (c :: before) rest

/-- The lowercase form of a text. -/
def lowercase (text : List Char) : List Char :=
  lowercaseAfter [] text

/-- Whether two texts are equal but for the case of ASCII letters. -/
def asciiEqual (a b : String) : Bool :=
  a.toList.map Char.toLower == b.toList.map Char.toLower

example : lowercase "ΟΔΟΣ Σ.İ".toList = "οδος σ.i̇".toList := by decide +kernel

end SongLibrary.Text
