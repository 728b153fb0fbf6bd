/-
  Templates of directories read back what they write.

  * a number is read as it was written, with a zero before it or without
    (`leadingNumber?_writeNumber`);
  * `read?_render`: what the pattern captures in the path of a song is what was written for
    each placeholder, and nothing where nothing was;
  * `extract_directories` is the main statement, about the values of tags.  No other way to
    read the path has to be considered for it, for the first one that the pattern tries is
    the way that the path was written.
-/
import SongLibrary.Proofs.Template.Directories
import SongLibrary.Proofs.Template.Parsing
import SongLibrary.Proofs.Text.DecimalDigit

namespace SongLibrary

/-! ## Numbers -/

theorem Song.number_lt (song : Song) (key : TagKey) : song.number key < 2 ^ 63 := by
  unfold number
  cases hvalue : (song.get? key).bind fun value => Text.leadingNumber? value.toList with
  | none => decide
  | some n =>
    obtain ⟨value, -, hn⟩ := Option.bind_eq_some_iff.1 hvalue
    unfold Text.leadingNumber? at hn
    dsimp only at hn
    split at hn
    · cases hn
    · next hbound =>
      cases hn
      simp only [Bool.or_eq_true, decide_eq_true_eq, not_or, Nat.not_le] at hbound
      simpa using hbound.2

/-- The number of a tag that was set is the one that its value begins with. -/
theorem Song.number_set (song : Song) (key : TagKey) {value : String} (hne : value ≠ "") :
    (song.set key value).number key = (Text.leadingNumber? value.toList).getD 0 := by
  simp [number, get?, set, Option.filter, hne]

namespace Template

theorem writeNumber_ne_nil (conversion : Conversion) (n : Nat) :
    (writeNumber conversion n).toList ≠ [] := by
  obtain ⟨zeros, htext⟩ := toList_writeNumber conversion n
  rw [htext]
  exact List.append_ne_nil_of_right_ne_nil _ Nat.toDigits_ne_nil

/-- **A number is read as it was written**, with zeros before it or without. -/
theorem leadingNumber?_writeNumber (conversion : Conversion) {n : Nat} (h : n < 2 ^ 63) :
    Text.leadingNumber? (writeNumber conversion n).toList = some n := by
  have hvalue : Nat.ofDigitChars 10 (writeNumber conversion n).toList 0 = n := by
    obtain ⟨zeros, htext⟩ := toList_writeNumber conversion n
    rw [htext, Nat.ofDigitChars_append, Nat.ofDigitChars_replicate_zero, Nat.mul_zero,
      Nat.ofDigitChars_toDigits (by decide) (by decide)]
  have hread := Text.leadingNumber?_of_digits (writeNumber_ne_nil conversion n)
    (fun c hc => isDigit_of_mem_writeNumber hc) (hvalue.symm ▸ h)
  rwa [hvalue] at hread

/-! ## What is read for a tag -/

/-- The value of a tag that one placeholder stands for is what that placeholder has captured;
    the numbers of tracks and discs are one where nothing is captured. -/
theorem valueIn?_of_fields (template : String) {before after : List Field} {f : Field}
    {key : TagKey} (hfields : (compile template).placeholders.map (·.field) = before ++ f :: after)
    (hkey : f.tagKey? = some key) (honly : ∀ g ∈ before ++ after, g.tagKey? ≠ some key)
    (captures : Captures) :
    (compile template).valueIn? captures key =
      match captures[before.length]?.join.filter (!·.isEmpty) with
      | some text => some (String.ofList text)
      | none => if key = .trackNumber ∨ key = .discNumber then some "1" else none := by
  obtain ⟨front, rest, hsplit, hfront, hrest⟩ := List.map_eq_append_iff.1 hfields
  obtain ⟨p, back, rfl, hp, hback⟩ := List.map_eq_cons_iff.1 hrest
  have hother : ∀ ps : List Placeholder, (∀ q ∈ ps, q.field ∈ before ++ after) →
      ps.filter (·.field.tagKey? == some key) = [] := fun ps hps =>
    List.filter_eq_nil_iff.2 fun q hq => by simpa using honly q.field (hps q hq)
  have honlyOne : (compile template).placeholdersOf key = [p] := by
    rw [placeholdersOf, hsplit, List.filter_append, hother front, List.filter_cons_of_pos,
      hother back]
    · rfl
    · intro q hq
      rw [← hback]
      exact List.mem_append_right _ (List.mem_map_of_mem hq)
    · simp [hp, hkey]
    · intro q hq
      rw [← hfront]
      exact List.mem_append_left _ (List.mem_map_of_mem hq)
  have hlength : front.length = before.length := by rw [← hfront, List.length_map]
  have hcaptured : p.captured? captures = captures[before.length]?.join := by
    have hplace : before.length < (compile template).placeholders.length := by
      rw [hsplit, List.length_append, List.length_cons]
      omega
    rw [← captured?_eq hplace]
    congr 1
    simp [hsplit, ← hlength]
  rw [valueIn?, honlyOne, List.findSome?_cons, hcaptured]
  cases captures[before.length]?.join.filter (!·.isEmpty) <;> simp

/-- The number of the track and the fields that are written as text stand for different tags. -/
theorem Field.tagKey?_ne {f g : Field} (hf : f = .paddedTrackNumber ∨ f.conversion = .text)
    (hg : g = .paddedTrackNumber ∨ g.conversion = .text) (hne : f ≠ g) {key : TagKey}
    (hkey : f.tagKey? = some key) : g.tagKey? ≠ some key := by
  intro hsame
  rw [← hkey] at hsame
  revert hf hg hne hsame
  cases f <;> cases g <;> decide

theorem Field.exists_tagKey_of_text {f : Field} (h : f.conversion = .text) :
    ∃ key, f.tagKey? = some key ∧ key ≠ .trackNumber ∧ key ≠ .discNumber := by
  revert h
  cases f <;> decide

/-! ## Paths of directories -/

theorem isExtension_renderExtension {song : Song} {ext : String} (hext : song.extension? = some ext)
    (hne : ext ≠ "") (halphanum : ∀ c ∈ ext.toList, c.isAlphanum) :
    IsExtension (renderExtension song) := by
  rw [renderExtension, hext]
  exact ⟨ext.toList, rfl, by simpa using hne, halphanum⟩

theorem rendered_paddedTrackNumber (t : Template) (refs : ReferenceData) (song : Song)
    (bypass : Option String) (s : Sanitizer) :
    t.rendered refs song bypass s .paddedTrackNumber =
      if song.number .trackNumber = 0 then []
      else (writeNumber .zeroPadded (song.number .trackNumber)).toList := by
  change (numberValue song .zeroPadded .trackNumber).toList = _
  unfold numberValue
  split <;> rfl

section

variable {fields : List Field} {last : Field}

theorem fields_directoryGroups (first : Bool) (n : Nat) (fields : List Field) :
    ((directoryGroups first n fields).flatMap Group.placeholders).map (·.field) = fields := by
  induction fields generalizing first n with
  | nil => rfl
  | cons f fields ih =>
    rw [directoryGroups, List.flatMap_cons, List.map_append, ih]
    rfl

/-- The fields of the placeholders, in order. -/
theorem fields_directories (hfields : ∀ f ∈ fields, f.isNumeric = false)
    (hlast : last.isNumeric = false) :
    (directories fields last).placeholders.map (·.field) = fields ++ [.paddedTrackNumber, last] := by
  rw [placeholders, groups_directories hfields hlast, List.flatMap_append, List.map_append,
    fields_directoryGroups]
  rfl

variable {refs : ReferenceData} {song : Song} {bypass : Option String} {s : Sanitizer}

/-- **Everything that is written is captured** in the path of a song, and nothing else. -/
theorem read?_render (htext : ∀ f ∈ fields ++ [last], f.conversion = .text) {ext : String}
    (hext : song.extension? = some ext) (hne : ext ≠ "") (halphanum : ∀ c ∈ ext.toList, c.isAlphanum)
    (hlast : (directories fields last).rendered refs song bypass s last ≠ [])
    (hfilled : ∀ f ∈ fields.tail, (directories fields last).rendered refs song bypass s f ≠ [])
    (hfirst : ∀ f ∈ fields.head?, (directories fields last).rendered refs song bypass s f ≠ [] ∨
      f = .dance ∨ f = .genre)
    (hnumber : song.number .trackNumber ≠ 0 ∨ ∀ digits rest, (∀ c ∈ digits, Text.isDecimalDigit c) →
      (directories fields last).rendered refs song bypass s last ≠
        digits ++ ' ' :: '-' :: ' ' :: rest) :
    (directories fields last).read? ((directories fields last).render refs song bypass s) =
      some ((fields ++ [.paddedTrackNumber, last]).map fun f =>
        if (directories fields last).rendered refs song bypass s f = [] then none
        else some ((directories fields last).rendered refs song bypass s f)) := by
  have hnumeric : ∀ f ∈ fields ++ [last], f.isNumeric = false := fun f hf =>
    Field.isNumeric_of_text (htext f hf)
  have hslash : ∀ f ∈ fields ++ [last],
      '/' ∉ (directories fields last).rendered refs song bypass s f := fun f hf =>
    slash_not_mem_rendered _ refs song bypass s (Field.ne_bypass_of_text (htext f hf))
  have hfields : ∀ f ∈ fields, f.isNumeric = false := fun f hf =>
    hnumeric f (List.mem_append_left _ hf)
  have hlastMem : last ∈ fields ++ [last] := by simp
  have hextension := isExtension_renderExtension hext hne halphanum
  have hdigits : ∀ c ∈ (directories fields last).rendered refs song bypass s .paddedTrackNumber,
      Text.isDecimalDigit c := fun c hc =>
    Text.isDecimalDigit_of_isDigit (isDigit_of_mem_rendered rfl hc)
  have hpadded := rendered_paddedTrackNumber (directories fields last) refs song bypass s
  have hpath := render_directories refs song bypass s hfields (hnumeric last hlastMem)
  generalize (directories fields last).rendered refs song bypass s = written at *
  have hnumber' : written .paddedTrackNumber ≠ [] ∨ ∀ digits rest,
      (∀ c ∈ digits, Text.isDecimalDigit c) → written last ≠ digits ++ ' ' :: '-' :: ' ' :: rest := by
    refine hnumber.imp_left fun hpositive => ?_
    rw [hpadded, if_neg hpositive]
    exact writeNumber_ne_nil _ _
  -- From the end of the path: the name of the file is read, then the directories before it.
  have hfile := attempt_file (hnumeric last hlastMem) (1 + fields.length) (1 + fields.length + 1)
    hdigits hlast (hslash last hlastMem) hextension hnumber'
  have hread := attempt_directories hfields (fun f hf => hslash f (List.mem_append_left _ hf))
    hfilled hfirst 1 (slash_not_mem_fileText hdigits (hslash last hlastMem) hextension) hfile
  have hcaptures : (fields ++ [.paddedTrackNumber, last]).map
        (fun f => if written f = [] then none else some (written f)) =
      fields.map (fun f => if written f = [] then none else some (written f)) ++
        [if written .paddedTrackNumber = [] then none else some (written .paddedTrackNumber),
          some (written last)] := by
    rw [List.map_append, List.map_cons, List.map_singleton, if_neg hlast]
  refine Pattern.captures?_of_attempt ?_
  rw [pattern, groups_directories hfields (hnumeric last hlastMem), hpath, hcaptures]
  exact hread

/-- What is extracted from a path is what is captured for the one placeholder of a tag. -/
theorem extract?_of_captured {path : String} {written : Field → List Char}
    (hdistinct : (fields ++ [last]).Nodup) (htext : ∀ f ∈ fields ++ [last], f.conversion = .text)
    (hread : (directories fields last).read? path =
      some ((fields ++ [.paddedTrackNumber, last]).map fun f =>
        if written f = [] then none else some (written f)))
    {f : Field} {key : TagKey} (hf : f = .paddedTrackNumber ∨ f ∈ fields ++ [last])
    (hkey : f.tagKey? = some key) :
    (directories fields last).extract? path key =
      if written f = [] then if key = .trackNumber ∨ key = .discNumber then some "1" else none
      else some (String.ofList (written f)) := by
  have hperm : (fields ++ [.paddedTrackNumber, last]).Perm
      (.paddedTrackNumber :: (fields ++ [last])) := List.perm_middle
  have hpadded : Field.paddedTrackNumber ∉ fields ++ [last] := fun hmem => by cases htext _ hmem
  have hnodup := hperm.nodup_iff.2 (List.nodup_cons.2 ⟨hpadded, hdistinct⟩)
  have hkind : ∀ g ∈ fields ++ [.paddedTrackNumber, last],
      g = .paddedTrackNumber ∨ g.conversion = .text := fun g hg =>
    (List.mem_cons.1 (hperm.mem_iff.1 hg)).imp_right (htext g)
  -- No other field has the key, so the capture is the one at the place of the field.
  obtain ⟨before, after, hsplit⟩ := List.append_of_mem (hperm.mem_iff.2 (List.mem_cons.2 hf))
  have honly : ∀ g ∈ before ++ after, g.tagKey? ≠ some key := by
    rw [hsplit, List.perm_middle.nodup_iff, List.nodup_cons] at hnodup
    rw [hsplit] at hkind
    intro g hg
    refine Field.tagKey?_ne (hkind f (by simp)) (hkind g ?_) (fun heq => hnodup.1 (heq ▸ hg)) hkey
    exact List.perm_middle.mem_iff.2 (List.mem_cons_of_mem _ hg)
  have hnames := fields_directories
    (fun f hf => Field.isNumeric_of_text (htext f (List.mem_append_left _ hf)))
    (Field.isNumeric_of_text (htext last (by simp)))
  rw [hsplit] at hnames hread
  have hcaptured : ((before ++ f :: after).map fun f =>
      if written f = [] then none else some (written f))[before.length]?.join =
        if written f = [] then none else some (written f) := by
    simp
  rw [extract?, hread, Option.bind_some, directories,
    valueIn?_of_fields (braced (directoryTexts fields last)) hnames hkey honly, hcaptured]
  by_cases hempty : written f = []
  · rw [if_pos hempty, if_pos hempty]
    rfl
  · have hfilled : (some (written f)).filter (!·.isEmpty) = some (written f) := by
      simp [Option.filter, hempty]
    rw [if_neg hempty, if_neg hempty, hfilled]

end

/-- **What is written into a template of directories is read back from the path.** -/
theorem extract_directories (fields : List Field) (last : Field)
    (hdistinct : (fields ++ [last]).Nodup) (htext : ∀ f ∈ fields ++ [last], f.conversion = .text)
    (refs : ReferenceData) (song : Song) (bypass : Option String) (s : Sanitizer) (ext : String)
    (hext : song.extension? = some ext) (hne : ext ≠ "") (halphanum : ∀ c ∈ ext.toList, c.isAlphanum)
    (hlast : (directories fields last).rendered refs song bypass s last ≠ [])
    (hfilled : ∀ f ∈ fields.tail, (directories fields last).rendered refs song bypass s f ≠ [])
    (hfirst : ∀ f ∈ fields.head?, (directories fields last).rendered refs song bypass s f ≠ [] ∨
      f = .dance ∨ f = .genre)
    (hnumber : song.number .trackNumber ≠ 0 ∨ ∀ digits rest, (∀ c ∈ digits, Text.isDecimalDigit c) →
      (directories fields last).rendered refs song bypass s last ≠
        digits ++ ' ' :: '-' :: ' ' :: rest) (earlier : List String) :
    (∀ f ∈ fields ++ [last], ∃ key, f.tagKey? = some key ∧
      (((Reader.of (directories fields last)).asked earlier).extract?
          ((directories fields last).render refs song bypass s) key).1 =
        if (directories fields last).rendered refs song bypass s f = [] then none
        else some (String.ofList ((directories fields last).rendered refs song bypass s f))) ∧
    ∃ number, (((Reader.of (directories fields last)).asked earlier).extract?
          ((directories fields last).render refs song bypass s) .trackNumber).1 = some number ∧
      if song.number .trackNumber = 0 then number = "1"
      else number = (if song.number .trackNumber < 10 then "0" ++ toString (song.number .trackNumber)
          else toString (song.number .trackNumber)) ∧
        ∀ other : Song, (other.set .trackNumber number).number .trackNumber =
          song.number .trackNumber := by
  have hread := read?_render htext hext hne halphanum hlast hfilled hfirst hnumber
  have hpadded := rendered_paddedTrackNumber (directories fields last) refs song bypass s
  simp only [Reader.extract?_asked]
  generalize (directories fields last).rendered refs song bypass s = written at *
  constructor
  · intro f hf
    obtain ⟨key, hkey, htrack, hdisc⟩ := Field.exists_tagKey_of_text (htext f hf)
    refine ⟨key, hkey, ?_⟩
    rw [extract?_of_captured hdistinct htext hread (.inr hf) hkey, if_neg (not_or.2 ⟨htrack, hdisc⟩)]
  · rw [extract?_of_captured hdistinct htext hread (.inl rfl) rfl, hpadded]
    by_cases hzero : song.number .trackNumber = 0
    · exact ⟨"1", by simp [hzero], by simp [hzero]⟩
    · have hwritten := writeNumber_ne_nil .zeroPadded (song.number .trackNumber)
      refine ⟨writeNumber .zeroPadded (song.number .trackNumber), ?_, ?_⟩
      · rw [if_neg hzero, if_neg hwritten, String.ofList_toList]
      · rw [if_neg hzero]
        refine ⟨by simp [writeNumber], fun other => ?_⟩
        rw [Song.number_set _ _ fun heq => hwritten (by rw [heq]; rfl),
          leadingNumber?_writeNumber _ (song.number_lt _), Option.getD_some]

/-- A track without a dance whose title begins like one with a number. -/
def numberedTitle : Song :=
  (((Song.new "a.mp3" "").set .albumArtist "Strauss").set .title "1 - Donau").set .trackNumber "7"

/-- The title is not taken for the number, nor the artist for the dance. -/
theorem extract_directories_numberedTitle :
    let path := (directories [.dance, .albumArtist] .title).render {} numberedTitle none ⟨.linux, 255⟩
    let extracted := fun key =>
      (((Reader.of (directories [.dance, .albumArtist] .title)).asked ["a/b.mp3"]).extract? path key).1
    extracted .dance = none ∧ extracted .albumArtist = some "Strauss" ∧
      extracted .title = some "1 - Donau" ∧ extracted .trackNumber = some "07" := by
  intro path extracted
  obtain ⟨htext, number, hnumber, hform⟩ := extract_directories [.dance, .albumArtist] .title (by decide)
    (by decide) {} numberedTitle none ⟨.linux, 255⟩ "mp3" (by decide) (by decide) (by simp)
    (by decide) (by decide) (by decide) (.inl (by decide)) ["a/b.mp3"]
  obtain ⟨_, ⟨⟩, hdance⟩ := htext .dance (by decide)
  obtain ⟨_, ⟨⟩, hartist⟩ := htext .albumArtist (by decide)
  obtain ⟨_, ⟨⟩, htitle⟩ := htext .title (by decide)
  have hseven : numberedTitle.number .trackNumber = 7 := by decide
  rw [if_neg (by rw [hseven]; decide), hseven] at hform
  refine ⟨hdance.trans (if_pos (by decide)), hartist.trans ?_, htitle.trans ?_, ?_⟩
  · decide
  · decide
  · rw [hform.1] at hnumber
    exact hnumber

end Template

end SongLibrary
