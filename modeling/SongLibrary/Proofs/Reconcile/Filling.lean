/-
  Filling in tags.

  * it looks at tags alone, and changes nothing else (`onTags_fillDerived`);
  * `tags_fillDance`, `tags_fillLevel` and `tags_fillDerived` say what each step does to the
    value of a key;
  * `Fills` says for every key where its value comes from: the file, its genre, the usual
    level, or its path; `fills_fillDerived` is the main statement, that filling in does so.
-/
import SongLibrary.Reconcile.Derive

namespace SongLibrary

/-- Whether a key has no value, or an empty one. -/
def TagMap.IsOpen (tags : TagMap) (key : TagKey) : Prop :=
  ∀ value, tags.get? key = some value → value = ""

theorem Song.get?_eq_none_iff {song : Song} {key : TagKey} :
    song.get? key = none ↔ song.tags.IsOpen key := by
  simp [Song.get?, TagMap.IsOpen, Option.filter_eq_none_iff]

theorem TagMap.isOpen_iff {tags : TagMap} {key : TagKey} :
    tags.IsOpen key ↔ (tags.get? key).getD "" = "" := by
  unfold IsOpen
  cases tags.get? key <;> simp

instance (tags : TagMap) (key : TagKey) : Decidable (tags.IsOpen key) :=
  decidable_of_iff _ TagMap.isOpen_iff.symm

/-- The dance that a genre names has a name. -/
theorem ReferenceData.danceOfGenre?_ne_empty {refs : ReferenceData} {genre dance : String}
    (h : refs.danceOfGenre? genre = some dance) : dance ≠ "" := by
  unfold danceOfGenre? at h
  dsimp only at h
  split at h
  · cases h
  · next hname =>
    rintro rfl
    have hsame := List.find?_some h
    rw [Text.asciiEqual, beq_iff_eq] at hsame
    have hnil := List.map_eq_nil_iff.1 hsame.symm
    rw [String.toList_ofList] at hnil
    exact hname (by rw [hnil]; rfl)

namespace Reconcile

/-! ## Operations on tags -/

/-- An operation on songs that changes tags alone, and looks at nothing else. -/
def OnTags (f : Song → Song) : Prop :=
  ∃ g : TagMap → TagMap, ∀ song, f song = { song with tags := g song.tags }

theorem OnTags.comp {f f' : Song → Song} (h : OnTags f) (h' : OnTags f') :
    OnTags fun song => f (f' song) := by
  obtain ⟨g, hg⟩ := h
  obtain ⟨g', hg'⟩ := h'
  exact ⟨fun tags => g (g' tags), fun song => by
    dsimp only
    rw [hg', hg]⟩

theorem OnTags.foldl {α : Type} {f : Song → α → Song} (h : ∀ a, OnTags fun song => f song a)
    (l : List α) : OnTags fun song => l.foldl f song := by
  induction l with
  | nil => exact ⟨id, fun _ => rfl⟩
  | cons a rest ih => exact ih.comp (h a)

theorem onTags_fillDance (refs : ReferenceData) : OnTags (fillDance refs) := by
  refine ⟨fun tags => (fillDance refs ⟨none, "", tags, "", 0, false⟩).tags, fun song => ?_⟩
  unfold fillDance Song.get?
  dsimp only
  split <;> rfl

theorem onTags_fillLevel (refs : ReferenceData) : OnTags (fillLevel refs) := by
  refine ⟨fun tags => (fillLevel refs ⟨none, "", tags, "", 0, false⟩).tags, fun song => ?_⟩
  unfold fillLevel Song.get?
  dsimp only
  split <;> rfl

theorem onTags_fillFromPath (t : Template) (captures : Template.Captures) (key : TagKey) :
    OnTags fun song => fillFromPath t captures song key := by
  refine ⟨fun tags => (fillFromPath t captures ⟨none, "", tags, "", 0, false⟩ key).tags,
    fun song => ?_⟩
  unfold fillFromPath Song.get?
  dsimp only
  split <;> rfl

theorem onTags_fillDerived (refs : ReferenceData) (t : Template) (relative : String) :
    OnTags (fillDerived refs t relative) := by
  have hfilled := (onTags_fillLevel refs).comp (onTags_fillDance refs)
  unfold fillDerived
  cases t.read? relative with
  | none => exact hfilled
  | some captures => exact (OnTags.foldl (onTags_fillFromPath t captures) t.tagKeys).comp hfilled

variable {refs : ReferenceData} {t : Template} {song : Song} {key : TagKey}

/-! ## The places that values come from -/

/-- A template gives no value for a tag that it has no placeholder for. -/
theorem valueIn?_of_not_mem {captures : Template.Captures} (h : key ∉ t.tagKeys) :
    t.valueIn? captures key = none := by
  have hnone : t.placeholdersOf key = [] := by
    refine List.filter_eq_nil_iff.2 fun p hp hkey => h ?_
    rw [Template.tagKeys, List.mem_eraseDups]
    exact List.mem_filterMap.2 ⟨p, hp, by simpa using hkey⟩
  simp [Template.valueIn?, hnone]

/-- Where the value of each key comes from once the gaps of a file's tags are filled: a key with
    a value keeps it, and a key without one takes the first that there is. -/
structure Fills (refs : ReferenceData) (t : Template) (relative : String) (tags filled : TagMap) :
    Prop where
  kept : ∀ key, ¬ tags.IsOpen key → filled.get? key = tags.get? key
  /-- The dance that the genre of the file names, or the one that its path gives. -/
  dance : tags.IsOpen .dance → filled.get? .dance =
    ((tags.get? .genre).bind refs.danceOfGenre? <|> t.extract? relative .dance <|> tags.get? .dance)
  /-- The usual level, if there is one. -/
  level : tags.IsOpen .danceLevel → filled.get? .danceLevel =
    if refs.defaultDanceLevel = "" then tags.get? .danceLevel else some refs.defaultDanceLevel
  /-- What the path gives. -/
  path : ∀ key ∈ t.tagKeys, key ≠ .dance → tags.IsOpen key →
    filled.get? key = (t.extract? relative key <|> tags.get? key)
  others : ∀ key, key ∉ t.tagKeys → key ≠ .dance → key ≠ .danceLevel →
    filled.get? key = tags.get? key

/-! ## Filling in, step by step -/

theorem tags_fillDance (refs : ReferenceData) (song : Song) (key : TagKey) :
    (fillDance refs song).tags.get? key =
      if key = .dance ∧ song.tags.IsOpen .dance then
        ((song.tags.get? .genre).bind refs.danceOfGenre? <|> song.tags.get? .dance)
      else song.tags.get? key := by
  have hgenre : (song.get? .genre).bind refs.danceOfGenre? =
      (song.tags.get? .genre).bind refs.danceOfGenre? := by
    unfold Song.get?
    cases song.tags.get? .genre with
    | none => rfl
    | some genre =>
      by_cases hempty : genre = ""
      · subst hempty
        rfl
      · simp [Option.filter, hempty]
  unfold fillDance
  rw [hgenre]
  cases hdance : song.get? .dance with
  | some dance =>
    have hfull : ¬ song.tags.IsOpen .dance := by simp [← Song.get?_eq_none_iff, hdance]
    simp [hfull]
  | none =>
    have hopen := Song.get?_eq_none_iff.1 hdance
    cases (song.tags.get? .genre).bind refs.danceOfGenre? with
    | none => by_cases hkey : key = .dance <;> simp [hkey]
    | some dance => by_cases hkey : key = .dance <;> simp [hkey, hopen, Song.set]

theorem tags_fillLevel (refs : ReferenceData) (song : Song) (key : TagKey) :
    (fillLevel refs song).tags.get? key =
      if key = .danceLevel ∧ song.tags.IsOpen .danceLevel ∧ refs.defaultDanceLevel ≠ "" then
        some refs.defaultDanceLevel
      else song.tags.get? key := by
  have hopen : (song.get? .danceLevel).isNone = true ↔ song.tags.IsOpen .danceLevel := by
    rw [Option.isNone_iff_eq_none, Song.get?_eq_none_iff]
  unfold fillLevel
  by_cases hfills : song.tags.IsOpen .danceLevel ∧ refs.defaultDanceLevel ≠ ""
  · rw [if_pos (by simpa [hopen] using hfills)]
    by_cases hkey : key = .danceLevel <;> simp [hkey, hfills, Song.set]
  · rw [if_neg (by simpa [hopen] using hfills), if_neg fun h => hfills h.2]

theorem tags_fillFromPath (t : Template) (captures : Template.Captures) (song : Song)
    (key key' : TagKey) : (fillFromPath t captures song key').tags.get? key =
      if key = key' ∧ song.tags.IsOpen key then
        (t.valueIn? captures key <|> song.tags.get? key)
      else song.tags.get? key := by
  unfold fillFromPath
  by_cases hkey : key = key'
  · subst hkey
    cases hvalue : song.get? key with
    | some value =>
      have hfull : ¬ song.tags.IsOpen key := by simp [← Song.get?_eq_none_iff, hvalue]
      simp [hfull]
    | none =>
      have hopen := Song.get?_eq_none_iff.1 hvalue
      cases t.valueIn? captures key <;> simp [hopen, Song.set]
  · split <;> simp [Song.set, hkey]

/-- Filling in some keys one after another fills in each of them that is open. -/
theorem tags_foldl_fillFromPath (t : Template) (captures : Template.Captures) (keys : List TagKey)
    (song : Song) (key : TagKey) :
    (keys.foldl (fillFromPath t captures) song).tags.get? key =
      if key ∈ keys ∧ song.tags.IsOpen key then
        (t.valueIn? captures key <|> song.tags.get? key)
      else song.tags.get? key := by
  induction keys generalizing song with
  | nil => simp
  | cons key' rest ih =>
    rw [List.foldl_cons, ih]
    simp only [TagMap.isOpen_iff, tags_fillFromPath]
    by_cases hopen : (song.tags.get? key).getD "" = ""
    · by_cases hkey : key = key'
      · subst hkey
        cases t.valueIn? captures key <;> simp [hopen]
      · simp [hkey, hopen]
    · simp [hopen]

/-- No template has a placeholder for the level of a dance. -/
theorem danceLevel_not_mem_tagKeys (t : Template) : .danceLevel ∉ t.tagKeys := by
  rw [Template.tagKeys, List.mem_eraseDups]
  intro hmem
  obtain ⟨p, -, hp⟩ := List.mem_filterMap.1 hmem
  cases hfield : p.field <;> rw [hfield] at hp <;> cases hp

/-- What the path gives is filled in after the dance and the level. -/
theorem tags_fillDerived (refs : ReferenceData) (t : Template) (relative : String) (song : Song)
    (key : TagKey) : (fillDerived refs t relative song).tags.get? key =
      if key ∈ t.tagKeys ∧ (fillLevel refs (fillDance refs song)).tags.IsOpen key then
        (t.extract? relative key <|> (fillLevel refs (fillDance refs song)).tags.get? key)
      else (fillLevel refs (fillDance refs song)).tags.get? key := by
  unfold fillDerived Template.extract?
  dsimp only
  cases t.read? relative with
  | none => simp
  | some captures => exact tags_foldl_fillFromPath t captures t.tagKeys _ key

/-- **Filling in takes each value from the first place that has one.** -/
theorem fills_fillDerived (refs : ReferenceData) (t : Template) (relative : String) (song : Song) :
    Fills refs t relative song.tags (fillDerived refs t relative song).tags := by
  -- The references fill in the dance and its level, and the path fills in the other keys.
  have hdance : (fillLevel refs (fillDance refs song)).tags.get? .dance =
      if song.tags.IsOpen .dance then
        ((song.tags.get? .genre).bind refs.danceOfGenre? <|> song.tags.get? .dance)
      else song.tags.get? .dance := by
    simp [tags_fillLevel, tags_fillDance]
  have hlevel : (fillLevel refs (fillDance refs song)).tags.get? .danceLevel =
      if song.tags.IsOpen .danceLevel ∧ refs.defaultDanceLevel ≠ "" then
        some refs.defaultDanceLevel
      else song.tags.get? .danceLevel := by
    simp [tags_fillLevel, tags_fillDance, TagMap.isOpen_iff]
  have hother : ∀ key, key ≠ .dance → key ≠ .danceLevel →
      (fillLevel refs (fillDance refs song)).tags.get? key = song.tags.get? key := by
    intro key hne hne'
    simp [tags_fillLevel, tags_fillDance, hne, hne']
  constructor
  case kept =>
    intro key hfull
    have hsame : (fillLevel refs (fillDance refs song)).tags.get? key = song.tags.get? key := by
      by_cases hkey : key = .dance
      · subst hkey
        rw [hdance, if_neg hfull]
      · by_cases hkey' : key = .danceLevel
        · subst hkey'
          rw [hlevel, if_neg fun h => hfull h.1]
        · exact hother key hkey hkey'
    rw [tags_fillDerived, if_neg, hsame]
    rintro ⟨-, hopen⟩
    rw [TagMap.isOpen_iff, hsame, ← TagMap.isOpen_iff] at hopen
    exact hfull hopen
  case dance =>
    intro hopen
    rw [if_pos hopen] at hdance
    rw [tags_fillDerived, hdance]
    cases hgenre : (song.tags.get? .genre).bind refs.danceOfGenre? with
    | some dance =>
      obtain ⟨genre, -, hnamed⟩ := Option.bind_eq_some_iff.1 hgenre
      have hne := ReferenceData.danceOfGenre?_ne_empty hnamed
      simp [TagMap.isOpen_iff, hdance, hgenre, hne]
    | none =>
      by_cases hmem : TagKey.dance ∈ t.tagKeys
      · rw [if_pos]
        · simp
        · refine ⟨hmem, ?_⟩
          rw [TagMap.isOpen_iff, hdance, hgenre]
          exact TagMap.isOpen_iff.1 hopen
      · have hnone : t.extract? relative .dance = none := by
          cases hread : t.read? relative <;> simp [Template.extract?, hread, valueIn?_of_not_mem hmem]
        simp [hmem, hnone]
  case level =>
    intro hopen
    rw [tags_fillDerived, if_neg fun h => danceLevel_not_mem_tagKeys t h.1, hlevel]
    by_cases hdefault : refs.defaultDanceLevel = "" <;> simp [hopen, hdefault]
  case path =>
    intro key hmem hne hopen
    have hsame := hother key hne fun h => danceLevel_not_mem_tagKeys t (h ▸ hmem)
    rw [tags_fillDerived, if_pos, hsame]
    refine ⟨hmem, ?_⟩
    rw [TagMap.isOpen_iff, hsame, ← TagMap.isOpen_iff]
    exact hopen
  case others =>
    intro key hmem hne hne'
    rw [tags_fillDerived, if_neg fun h => hmem h.1, hother key hne hne']

end Reconcile

end SongLibrary
