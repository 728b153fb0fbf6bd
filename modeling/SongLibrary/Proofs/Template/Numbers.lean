/-
  Numbers in paths.

  For a number, a path gives decimal digits of any script and in any number
  (`isNumeral_of_extract?`), while the number of a song is read from ASCII digits and is a
  64-bit word.  The number of a song with an extracted value is the one that the digits denote
  just where these two agree (`number_of_extracted`).
-/
import SongLibrary.Proofs.Template.RoundTrip

namespace SongLibrary.Template

/-- Decimal digits, one at least. -/
def IsNumeral (text : List Char) : Prop :=
  text ≠ [] ∧ ∀ c ∈ text, Text.isDecimalDigit c

/-- What is captured for a number is a numeral. -/
def Placeholder.Fits (p : Placeholder) (capture : Option (List Char)) : Prop :=
  p.field.isNumeric = true → ∀ text ∈ capture, IsNumeral text

/-! ## What is captured for a number -/

theorem InOrder.fits {α : Type} {reads : α → List Char → Captures → Prop}
    {placeholders : α → List Placeholder}
    (h : ∀ a text captures, reads a text captures →
      List.Forall₂ Placeholder.Fits (placeholders a) captures)
    {list : List α} {text : List Char} {captures : Captures}
    (hreads : InOrder reads list text captures) :
    List.Forall₂ Placeholder.Fits (list.flatMap placeholders) captures := by
  induction hreads with
  | nil => exact .nil
  | cons ha _ ih =>
    rw [List.flatMap_cons]
    exact List.rel_append (h _ _ _ ha) ih

theorem Segment.Reads.fits {segment : Segment} {text : List Char} {captures : Captures}
    (h : segment.Reads text captures) :
    List.Forall₂ Placeholder.Fits segment.placeholder?.toList captures := by
  cases h with
  | literal => exact .nil
  | name hfield _ _ =>
    refine .cons (fun hnumeric => ?_) .nil
    rw [hfield] at hnumeric
    cases hnumeric
  | digits _ hne h =>
    refine .cons (fun _ text htext => ?_) .nil
    cases htext
    exact ⟨hne, h⟩
  | noDigits => exact .cons (fun _ text hnone => by cases hnone) .nil

theorem Group.Reads.fits {g : Group} {text : List Char} {captures : Captures}
    (h : g.Reads text captures) : List.Forall₂ Placeholder.Fits g.placeholders captures := by
  cases h with
  | present h =>
    have hfits := h.fits fun _ _ _ h => h.fits
    rwa [← List.filterMap_eq_flatMap_toList] at hfits
  | absent _ =>
    generalize g.placeholders = placeholders
    induction placeholders with
    | nil => exact .nil
    | cons p rest ih => exact .cons (fun _ text hnone => by cases hnone) ih

theorem Reads.fits {t : Template} {path : String} {captures : Captures}
    (h : t.Reads path captures) : List.Forall₂ Placeholder.Fits t.placeholders captures := by
  obtain ⟨_, _, _, -, h, -⟩ := h
  exact h.fits fun _ _ _ h => h.fits

/-- **What is captured for the placeholder of a number is a numeral.** -/
theorem fits_captured? {template : String} {path : String} {captures : Captures}
    (h : (compile template).read? path = some captures) {p : Placeholder}
    (hp : p ∈ (compile template).placeholders) : p.Fits (p.captured? captures) := by
  obtain ⟨i, hi, rfl⟩ := List.getElem_of_mem hp
  have hfits := (reads_of_read? h).fits
  have hi' : i < captures.length := hfits.length_eq ▸ hi
  rw [captured?_eq hi, List.getElem?_eq_getElem hi']
  exact List.forall₂_iff_get.1 hfits |>.2 i hi hi'

/-! ## What is extracted for a number -/

theorem Field.isNumeric_of_tagKey? {f : Field} {key : TagKey}
    (hkey : key = .trackNumber ∨ key = .discNumber ∨ key = .bpm) (h : f.tagKey? = some key) :
    f.isNumeric = true := by
  rcases hkey with rfl | rfl | rfl <;> revert h <;> cases f <;> decide

/-- **What a path gives for a number is a numeral.** -/
theorem isNumeral_of_extract? {template path value : String} {key : TagKey}
    (hkey : key = .trackNumber ∨ key = .discNumber ∨ key = .bpm)
    (h : (compile template).extract? path key = some value) : IsNumeral value.toList := by
  obtain ⟨captures, hread, hvalue⟩ := Option.bind_eq_some_iff.1 h
  unfold valueIn? at hvalue
  dsimp only at hvalue
  split at hvalue
  · next text hfound =>
    cases hvalue
    obtain ⟨p, hp, htext⟩ := List.exists_of_findSome?_eq_some hfound
    obtain ⟨hmem, hfield⟩ := List.mem_filter.1 hp
    have hnumeric := Field.isNumeric_of_tagKey? hkey (beq_iff_eq.1 hfield)
    rw [String.toList_ofList]
    exact fits_captured? hread hmem hnumeric text (Option.filter_eq_some_iff.1 htext).1
  · split at hvalue
    · cases hvalue
      exact ⟨by simp, by simp [Text.isDecimalDigit]⟩
    · cases hvalue

/-- **An extracted number counts as the number that it denotes just if it is zero, or is written
    in ASCII digits and is a 64-bit word.**  In general it counts as the one that the ASCII digits
    at its beginning denote, and as none where that is not a 64-bit word. -/
theorem number_of_extracted (template : String) (earlier : List String) (path value : String)
    {key : TagKey} (hkey : key = .trackNumber ∨ key = .discNumber ∨ key = .bpm)
    (h : (((Reader.of (compile template)).asked earlier).extract? path key).1 = some value)
    (song : Song) :
    IsNumeral value.toList ∧
    (song.set key value).number key =
      (if Text.digitsValue (value.toList.takeWhile Char.isDigit) < 2 ^ 63
        then Text.digitsValue (value.toList.takeWhile Char.isDigit) else 0) ∧
    ((song.set key value).number key = Text.digitsValue value.toList ↔
      Text.digitsValue value.toList = 0 ∨
        (∀ c ∈ value.toList, c.isDigit) ∧ Text.digitsValue value.toList < 2 ^ 63) := by
  rw [Reader.extract?_asked] at h
  have hnumeral := isNumeral_of_extract? hkey h
  have hne : value ≠ "" := by
    rintro rfl
    exact hnumeral.1 rfl
  rw [Song.number_set song key hne]
  exact ⟨hnumeral, Text.leadingNumber?_getD hnumeral.2,
    Text.leadingNumber?_eq_digitsValue_iff hnumeral.2⟩

/-- The number before a title. -/
theorem number_of_extracted_title :
    (((Reader.of (compile "\x7b%TRACKNUMBER% - \x7d\x7b%TITLE%\x7d")).asked ["a.mp3"]).extract?
        "07 - t.mp3" .trackNumber).1 = some "07" ∧
      ((Song.new "07 - t.mp3" "").set .trackNumber "07").number .trackNumber = 7 := by
  have hextract : (((Reader.of (compile "\x7b%TRACKNUMBER% - \x7d\x7b%TITLE%\x7d")).asked
      ["a.mp3"]).extract? "07 - t.mp3" .trackNumber).1 = some "07" := by cbv
  have hnumber := number_of_extracted _ _ _ _ (.inl rfl) hextract (Song.new "07 - t.mp3" "")
  exact ⟨hextract, hnumber.2.2.2 (.inr ⟨by simp, by decide⟩)⟩

/-- A three in Arabic digits is extracted, and counts as no number. -/
theorem extracted_number_lost :
    (((Reader.of (compile "\x7b%TRACKNUMBER% - \x7d\x7b%TITLE%\x7d")).asked []).extract?
        "٣ - t.mp3" .trackNumber).1 = some "٣" ∧
      Text.digitsValue "٣".toList = 3 ∧
      ((Song.new "٣ - t.mp3" "").set .trackNumber "٣").number .trackNumber = 0 := by
  refine ⟨by cbv, by decide, by decide⟩

end SongLibrary.Template
