/-
  Writing tags into an audio file, and reading them again.

  * `commentsFor_foldl_writeComment` are the comments for a key after some keys are written;
  * `AudioFile.Settles` says when the value of a key comes back as it was written, and
    `settles_iff` that this is what it says;
  * `writeTags_reads_back_iff` is the main statement: the tags that are written come back, and
    are not written once more, exactly if no value is empty and each of them settles;
  * a tag that only this library knows does not, where there was none
    (`writeTags_loses_dance`).
-/
import SongLibrary.Proofs.Audio.Comments
import SongLibrary.Reconcile.Services

namespace SongLibrary

namespace AudioFile

variable {file : AudioFile} {desired : TagMap} {cs : List Comment} {key : TagKey}
  {value : String} {keys : List TagKey}

/-! ## Comments that are written -/

theorem commentsFor_without (key key' : TagKey) (cs : List Comment) :
    commentsFor key (without key' cs) = if key = key' then [] else commentsFor key cs := by
  rw [commentsFor, without, List.filter_filter]
  split
  · next hkey =>
    subst hkey
    exact List.filter_eq_nil_iff.2 fun c _ => by cases key.isNamed c.name <;> simp
  · next hkey =>
    refine List.filter_congr fun c _ => ?_
    cases hnamed : key.isNamed c.name with
    | false => rfl
    | true =>
      have hnot : key'.isNamed c.name = false :=
        Bool.eq_false_iff.2 fun h => hkey (TagKey.eq_of_isNamed hnamed h)
      simp [hnot]

/-- What the comments for a key become when its value is written. -/
def written (desired : TagMap) (key : TagKey) (before : List Comment) : List Comment :=
  let value := (desired.get? key).getD ""
  if value = "" then []
  else if key.isOwn then before
  else [⟨key.commentName?.getD "", value⟩]

/-- Writing a value once more changes nothing. -/
theorem written_written (desired : TagMap) (key : TagKey) (before : List Comment) :
    written desired key (written desired key before) = written desired key before := by
  unfold written
  dsimp only
  split
  · rfl
  · split <;> rfl

/-- Writing the value of a key is nothing to the comments for others. -/
theorem commentsFor_writeComment {key' : TagKey} (h : key' ≠ .duration) (desired : TagMap)
    (cs : List Comment) (key : TagKey) :
    commentsFor key (writeComment desired cs key') =
      if key = key' then written desired key (commentsFor key cs) else commentsFor key cs := by
  obtain ⟨name, hname⟩ := Option.isSome_iff_exists.1 (TagKey.commentName?_isSome.2 h)
  have hnamed := commentsFor_of_isNamed (c := ⟨name, (desired.get? key').getD ""⟩)
    (TagKey.isNamed_commentName hname) key
  unfold writeComment written
  dsimp only
  by_cases hkey : key = key'
  · subst hkey
    simp only [String.isEmpty_iff, if_pos, hname, Option.getD_some]
    split
    · rw [commentsFor_without, if_pos rfl]
    · split
      · rfl
      · rw [commentsFor_append, commentsFor_without, if_pos rfl, hnamed, if_pos rfl]
        rfl
  · rw [if_neg hkey]
    split
    · rw [commentsFor_without, if_neg hkey]
    · split
      · rfl
      · rw [hname, commentsFor_append, commentsFor_without, if_neg hkey, Option.getD_some, hnamed,
          if_neg hkey, List.append_nil]

/-- **The comments for a key after some keys are written.** -/
theorem commentsFor_foldl_writeComment (hkeys : ∀ key ∈ keys, key ≠ .duration) :
    commentsFor key (keys.foldl (writeComment desired) cs) =
      if key ∈ keys then written desired key (commentsFor key cs) else commentsFor key cs := by
  induction keys generalizing cs with
  | nil => simp
  | cons key' rest ih =>
    have hfirst := commentsFor_writeComment (hkeys key' List.mem_cons_self) desired cs key
    rw [List.foldl_cons, ih fun k hk => hkeys k (.tail _ hk), hfirst]
    by_cases hrest : key ∈ rest <;> by_cases hkey : key = key' <;>
      simp [hrest, hkey, written_written]

theorem isReadable_of_mem_foldl (hkeys : ∀ key ∈ keys, key ≠ .duration)
    (hcs : ∀ c ∈ cs, c.IsReadable) : ∀ c ∈ keys.foldl (writeComment desired) cs, c.IsReadable := by
  induction keys generalizing cs with
  | nil => exact hcs
  | cons key rest ih =>
    have hkept : ∀ c ∈ without key cs, c.IsReadable := fun c hc => hcs c (List.mem_filter.1 hc).1
    obtain ⟨name, hname⟩ :=
      Option.isSome_iff_exists.1 (TagKey.commentName?_isSome.2 (hkeys key List.mem_cons_self))
    refine ih (fun k hk => hkeys k (.tail _ hk)) ?_
    unfold writeComment
    dsimp only
    split
    · exact hkept
    · split
      · exact hcs
      · refine List.forall_mem_append.2 ⟨hkept, List.forall_mem_singleton.2 ?_⟩
        rw [hname]
        exact TagKey.isNameChar_of_commentName hname

/-! ## Values that come back -/

theorem mem_changedKeys {existing : TagMap} (h : desired.get? key = some value) :
    key ∈ changedKeys desired existing ↔ key ≠ .duration ∧ existing.get? key ≠ some value := by
  simp [changedKeys, TagMap.keys, TagKey.mem_all, h]

theorem ne_duration_of_mem_changedKeys {existing : TagMap} (h : key ∈ changedKeys desired existing) :
    key ≠ .duration := by
  have hchanged := (List.mem_filter.1 h).2
  rw [Bool.and_eq_true] at hchanged
  exact bne_iff_ne.1 hchanged.1

/-- The texts of the track numbers of a file, once the values that change are written. -/
def numberTexts (file : AudioFile) (desired : TagMap) : List String :=
  if .trackNumber ∈ changedKeys desired file.tags then (desired.get? .trackNumber).toList
  else (commentsFor .trackNumber file.readComments).map (·.value)

/-- When the value that is desired for a key comes back once it is written. -/
structure Settles (file : AudioFile) (desired : TagMap) (key : TagKey) (value : String) : Prop where
  /-- A tag that only this library knows is not set: it is to be removed, or in the file. -/
  own : key.isOwn → value = "" ∨
    commentFor? (file.readComments.filter (!·.value.isEmpty)) key = some value
  /-- Any other is in the file as well, or has no blanks around it. -/
  text : ¬ key.isOwn → file.tags.get? key = some value ∨ Text.trim value.toList = value.toList
  /-- The number that the track numbers give for the key is written in the same way. -/
  number : ∀ n ∈ ((file.numberTexts desired).filterMap (numberIn? key)).getLast?, value = toString n

instance (file : AudioFile) (desired : TagMap) (key : TagKey) (value : String) :
    Decidable (file.Settles desired key value) :=
  decidable_of_iff (_ ∧ _ ∧ _) ⟨fun h => ⟨h.1, h.2.1, h.2.2⟩, fun h => ⟨h.1, h.2, h.3⟩⟩

/-- The comments of a file after the values that change are written. -/
def rewritten (file : AudioFile) (desired : TagMap) : List Comment :=
  (changedKeys desired file.tags).foldl (writeComment desired) file.readComments

theorem commentsFor_rewritten (file : AudioFile) (desired : TagMap) (key : TagKey) :
    commentsFor key (file.rewritten desired) =
      if key ∈ changedKeys desired file.tags then
        written desired key (commentsFor key file.readComments)
      else commentsFor key file.readComments :=
  commentsFor_foldl_writeComment fun _ => ne_duration_of_mem_changedKeys

theorem numbersFor_rewritten (file : AudioFile) (desired : TagMap) (key : TagKey) :
    numbersFor key (file.rewritten desired) =
      (file.numberTexts desired).filterMap (numberIn? key) := by
  rw [numbersFor, commentsFor_rewritten, numberTexts]
  split
  · cases hvalue : desired.get? .trackNumber with
    | none => simp [written, hvalue]
    | some value =>
      by_cases hempty : value = ""
      · subst hempty
        have hnone : numberIn? key "" = none := by cases key <;> rfl
        simp [written, hvalue, hnone]
      · simp [written, hvalue, hempty, TagKey.isOwn, List.filterMap_cons]
  · rw [List.filterMap_map]
    rfl

theorem commentFor?_filter (cs : List Comment) (key : TagKey) :
    commentFor? (cs.filter (!·.value.isEmpty)) key =
      firstValue? ((commentsFor key cs).filter (!·.value.isEmpty)) := by
  rw [commentFor?_eq, commentsFor, commentsFor, List.filter_comm]

/-- A value that is read is not empty. -/
theorem ne_empty_of_firstValue? (h : firstValue? cs = some value) : value ≠ "" := by
  have hne := (Option.filter_eq_some_iff.1 h).2
  rintro rfl
  cases hne

/-- The comments without a value are nothing to one that is read. -/
theorem firstValue?_filter (h : firstValue? cs = some value) :
    firstValue? (cs.filter (!·.value.isEmpty)) = some value := by
  cases cs with
  | nil => cases h
  | cons c rest =>
    have hfull : c.value.isEmpty = false := by
      refine Bool.eq_false_iff.2 fun hempty => ne_empty_of_firstValue? h ?_
      obtain ⟨hmap, -⟩ := Option.filter_eq_some_iff.1 h
      rw [List.head?_cons, Option.map_some, String.isEmpty_iff.1 hempty] at hmap
      exact (Option.some.inj hmap).symm
    rw [List.filter_cons_of_pos (by simp [hfull])]
    exact h

/-- A value comes back from its one comment if it has no blanks around it. -/
theorem firstValue?_singleton {name : String} (h : value ≠ "") :
    firstValue? [⟨name, value⟩] = some value ↔ Text.trim value.toList = value.toList := by
  rw [firstValue?, List.head?_cons, Option.map_some, Option.filter_eq_some_iff, Option.some_inj]
  constructor
  · rintro ⟨htrim, -⟩
    simpa using congrArg String.toList htrim
  · intro htrim
    simp [htrim, h]

theorem get?_tags (hkey : key ≠ .duration) :
    file.tags.get? key = firstValue? (commentsFor key file.readComments) := by
  rw [← commentFor?_eq]
  exact if_neg hkey

/-- **A value comes back exactly if it settles**, and an empty one as none. -/
theorem settles_iff (hvalue : desired.get? key = some value) (hkey : key ≠ .duration) :
    ({ file with comments := commentTexts (file.rewritten desired) } : AudioFile).tags.get? key =
        (if value = "" then none else some value) ↔
      file.Settles desired key value := by
  have hreadable : ∀ c ∈ file.rewritten desired, c.IsReadable :=
    isReadable_of_mem_foldl (fun _ => ne_duration_of_mem_changedKeys) isReadable_of_mem_readComments
  rw [tags_commentTexts file hreadable hkey, numbersFor_rewritten]
  -- A number that comes with another comment, as a total may, takes the place of the comments
  -- for the key; without one, the first of these counts.
  cases hlast : ((file.numberTexts desired).filterMap (numberIn? key)).getLast? with
  | some n =>
    have hown : ¬ key.isOwn := by
      obtain ⟨text, -, htext⟩ := List.mem_filterMap.1 (List.mem_of_getLast? hlast)
      intro hown
      rw [numberIn?_eq_none (by rintro rfl; cases hown) (by rintro rfl; cases hown)] at htext
      cases htext
    dsimp only
    constructor
    · intro h
      have hsame : value = toString n := by
        split at h
        · cases h
        · exact (Option.some.inj h).symm
      refine ⟨fun h => absurd h hown, fun _ => .inr (hsame ▸ trim_toString n), fun m hm => ?_⟩
      rw [hlast] at hm
      rw [hsame, Option.some.inj hm]
    · intro h
      have hsame := h.number n hlast
      rw [hsame, if_neg (ne_empty_of_firstValue? (firstValue?_number "" n))]
  | none =>
    have hnumber : ∀ n ∈ ((file.numberTexts desired).filterMap (numberIn? key)).getLast?,
        value = toString n := by simp [hlast]
    dsimp only
    rw [commentFor?_filter, commentsFor_rewritten]
    by_cases hchanged : key ∈ changedKeys desired file.tags
    · have hother := ((mem_changedKeys hvalue).1 hchanged).2
      rw [if_pos hchanged, written, hvalue]
      dsimp only [Option.getD_some]
      by_cases hempty : value = ""
      · subst hempty
        simp only [if_true]
        exact iff_of_true rfl ⟨fun _ => .inl rfl, fun _ => .inr rfl, hnumber⟩
      · rw [if_neg hempty, if_neg hempty]
        by_cases hown : key.isOwn
        · rw [if_pos hown, ← commentFor?_filter]
          exact ⟨fun h => ⟨fun _ => .inr h, fun h => absurd hown h, hnumber⟩,
            fun h => (h.own hown).resolve_left hempty⟩
        · rw [if_neg hown, List.filter_cons_of_pos (by simp [hempty]), List.filter_nil,
            firstValue?_singleton hempty]
          exact ⟨fun h => ⟨fun h => absurd h hown, fun _ => .inr h, hnumber⟩,
            fun h => (h.text hown).resolve_left hother⟩
    · have hsame : file.tags.get? key = some value := by
        by_contra h
        exact hchanged ((mem_changedKeys hvalue).2 ⟨hkey, h⟩)
      have hfirst := hsame
      rw [get?_tags hkey] at hfirst
      rw [if_neg hchanged, if_neg (ne_empty_of_firstValue? hfirst)]
      refine iff_of_true (firstValue?_filter hfirst)
        ⟨fun _ => .inr ?_, fun _ => .inl hsame, hnumber⟩
      rw [commentFor?_filter]
      exact firstValue?_filter hfirst

@[simp] theorem tags_parsed (file : AudioFile) : file.parsed.tags = file.tags :=
  TagMap.ofList_toList file.tags

/-- The number of values that are written. -/
theorem write_fst (file : AudioFile) (desired : TagMap) (keys : List TagKey) :
    (file.write desired keys).1 = keys.length := by
  unfold write
  split
  · next hnone => rw [List.isEmpty_iff.1 hnone, List.length_nil]
  · rfl

end AudioFile

/-- The tags have the desired values, and none where the desired one is empty.  The duration
    is that of the sound. -/
def TagMap.Realizes (tags desired : TagMap) : Prop :=
  ∀ key value, desired.get? key = some value → key ≠ .duration →
    tags.get? key = if value = "" then none else some value

/-- No value is to be changed if all of them are realized, and none is empty. -/
theorem AudioFile.changedKeys_eq_nil_iff {file : AudioFile} {desired : TagMap} :
    changedKeys desired file.tags = [] ↔
      file.tags.Realizes desired ∧ ∀ key, key ≠ .duration → desired.get? key ≠ some "" := by
  rw [List.eq_nil_iff_forall_not_mem]
  constructor
  · intro hnone
    have hsame : ∀ key value, desired.get? key = some value → key ≠ .duration →
        file.tags.get? key = some value ∧ value ≠ "" := by
      intro key value hvalue hkey
      have hread : file.tags.get? key = some value := by
        by_contra hother
        exact hnone key ((mem_changedKeys hvalue).2 ⟨hkey, hother⟩)
      refine ⟨hread, ?_⟩
      rw [get?_tags hkey] at hread
      exact ne_empty_of_firstValue? hread
    refine ⟨fun key value hvalue hkey => ?_, fun key hkey hempty => (hsame key "" hempty hkey).2 rfl⟩
    rw [if_neg (hsame key value hvalue hkey).2]
    exact (hsame key value hvalue hkey).1
  · rintro ⟨hrealized, hfull⟩ key hmem
    obtain ⟨value, hvalue⟩ := Option.isSome_iff_exists.1
      (List.mem_filter.1 (List.mem_filter.1 hmem).1).2
    obtain ⟨hkey, hother⟩ := (mem_changedKeys hvalue).1 hmem
    have hne : value ≠ "" := fun hempty => hfull key hkey (hempty ▸ hvalue)
    exact hother (by rw [hrealized key value hvalue hkey, if_neg hne])

theorem Content.audioAt?_audio {content : Content} {path : Path} {file : AudioFile}
    (h : content.audioAt? path = some file) (file' : AudioFile) :
    (Content.audio file').audioAt? path = some file' := by
  unfold audioAt? at h ⊢
  split at h
  · next hext =>
    rw [hext]
    dsimp only
    split at h
    · next hflac => rw [if_pos hflac]
    · cases h
  · cases h

/-- Once the values that change are written, all are realized if they settle. -/
theorem AudioFile.realizes_write_iff (file : AudioFile) (desired : TagMap) :
    (file.write desired (changedKeys desired file.tags)).2.tags.Realizes desired ↔
      changedKeys desired file.tags = [] ∨
      ∀ key value, desired.get? key = some value → key ≠ .duration →
        file.Settles desired key value := by
  unfold write
  by_cases hnone : changedKeys desired file.tags = []
  · rw [if_pos (List.isEmpty_iff.2 hnone)]
    exact iff_of_true (changedKeys_eq_nil_iff.1 hnone).1 (.inl hnone)
  · rw [if_neg fun hempty => hnone (List.isEmpty_iff.1 hempty)]
    constructor
    · exact fun h => .inr fun key value hvalue hkey =>
        (settles_iff hvalue hkey).1 (h key value hvalue hkey)
    · exact fun h key value hvalue hkey =>
        (settles_iff hvalue hkey).2 (h.resolve_left hnone key value hvalue hkey)

namespace Reconcile

open AudioFile

variable {content : Content} {path : Path} {file : AudioFile}

theorem readTags_forAudio (tracks : TrackList) (now : Nat → String) (m : Nat)
    (hfile : content.audioAt? path = some file) :
    (Services.forAudio tracks now).readTags m path content = .ok file.parsed := by
  simp [Services.forAudio, hfile]

theorem writeTags_forAudio (tracks : TrackList) (now : Nat → String) (m : Nat)
    (hfile : content.audioAt? path = some file) (desired existing : TagMap) (full : Bool) :
    (Services.forAudio tracks now).writeTags m path content desired existing full =
      .ok ((keysToWrite desired existing full).length,
        .audio (file.write desired (keysToWrite desired existing full)).2) := by
  rw [← write_fst file desired]
  simp [Services.forAudio, hfile]

/-- **What is written comes back exactly if it settles.**  After the tags of an audio file are
    written they have the desired values, unless one changes that does not come back; and they
    are not written once more exactly if none of the desired values is empty besides. -/
theorem writeTags_reads_back_iff (tracks : TrackList) (now : Nat → String)
    (hfile : content.audioAt? path = some file) (desired : TagMap) (m₁ m₂ m₃ : Nat) :
    ∃ count content' parsed,
      (Services.forAudio tracks now).writeTags m₁ path content desired file.parsed.tags
        file.parsed.needsRewrite = .ok (count, content') ∧
      (Services.forAudio tracks now).readTags m₂ path content' = .ok parsed ∧
      (parsed.tags.Realizes desired ↔
        changedKeys desired file.parsed.tags = [] ∨
        ∀ key value, desired.get? key = some value → key ≠ .duration →
          file.Settles desired key value) ∧
      ((∃ content'', (Services.forAudio tracks now).writeTags m₃ path content' desired parsed.tags
          false = .ok (0, content'')) ↔
        parsed.tags.Realizes desired ∧ ∀ key, key ≠ .duration → desired.get? key ≠ some "") := by
  have hfile' := Content.audioAt?_audio hfile
    (file.write desired (changedKeys desired file.tags)).2
  have hkeys : keysToWrite desired file.tags file.parsed.needsRewrite =
      changedKeys desired file.tags := rfl
  have hwrite := writeTags_forAudio tracks now m₁ hfile desired file.tags file.parsed.needsRewrite
  rw [hkeys] at hwrite
  rw [tags_parsed]
  refine ⟨_, _, _, hwrite, readTags_forAudio tracks now m₂ hfile', ?_, ?_⟩
  · rw [tags_parsed]
    exact realizes_write_iff file desired
  · rw [writeTags_forAudio tracks now m₃ hfile', tags_parsed, ← changedKeys_eq_nil_iff,
      ← List.length_eq_zero_iff]
    constructor
    · rintro ⟨content'', h⟩
      exact congrArg Prod.fst (Except.ok.inj h)
    · intro h
      exact ⟨_, by rw [keysToWrite, if_neg Bool.false_ne_true, h]⟩

/-- Services on audio files, without a track list. -/
def audioServices : Services :=
  .forAudio {} fun _ => "2020-01-01"

/-- An audio file with a title. -/
def titledFile : AudioFile where
  comments := ["TITLE=t"]

/-- A track number and another title, for a file with a title. -/
def numberedTags : TagMap :=
  .ofList [(.title, "u"), (.trackNumber, "3")]

theorem writeTags_reads_back_numbered :
    ∃ count content' parsed,
      audioServices.writeTags 0 (.ofString "x.flac") (.audio titledFile) numberedTags
        titledFile.parsed.tags titledFile.parsed.needsRewrite = .ok (count, content') ∧
      audioServices.readTags 0 (.ofString "x.flac") content' = .ok parsed ∧
      parsed.tags.Realizes numberedTags ∧
      ∃ content'', audioServices.writeTags 0 (.ofString "x.flac") content' numberedTags parsed.tags
        false = .ok (0, content'') := by
  have hfile : (Content.audio titledFile).audioAt? (.ofString "x.flac") = some titledFile := by
    decide
  have hsettles : ∀ key ∈ TagKey.all, ∀ value ∈ numberedTags.get? key,
      titledFile.Settles numberedTags key value ∧ value ≠ "" := by decide
  obtain ⟨count, content', parsed, hwrite, hread, hrealizes, hagain⟩ :=
    writeTags_reads_back_iff {} (fun _ => "2020-01-01") hfile numberedTags 0 0 0
  have hback := hrealizes.2 (.inr fun key value hvalue _ =>
    (hsettles key (TagKey.mem_all key) value hvalue).1)
  exact ⟨count, content', parsed, hwrite, hread, hback,
    hagain.2 ⟨hback, fun key _ hempty => (hsettles key (TagKey.mem_all key) "" hempty).2 rfl⟩⟩

/-- A dance, for a file with a title. -/
def dancedTags : TagMap :=
  .ofList [(.dance, "Waltz"), (.title, "t")]

/-- **A dance that a file does not have is never written**, though it is counted each time. -/
theorem writeTags_loses_dance :
    ∃ content' parsed content'',
      audioServices.writeTags 0 (.ofString "x.flac") (.audio titledFile) dancedTags
        titledFile.parsed.tags titledFile.parsed.needsRewrite = .ok (1, content') ∧
      audioServices.readTags 0 (.ofString "x.flac") content' = .ok parsed ∧
      parsed.tags.get? .dance = none ∧ ¬ parsed.tags.Realizes dancedTags ∧
      audioServices.writeTags 0 (.ofString "x.flac") content' dancedTags parsed.tags false =
        .ok (1, content'') := by
  have hnone : titledFile.parsed.tags.get? .dance = none := by decide
  refine ⟨.audio titledFile, titledFile.parsed, .audio titledFile, by decide,
    by decide, hnone, fun hrealizes => ?_, by decide⟩
  have hback := hrealizes .dance "Waltz" (by decide) (by decide)
  rw [hnone] at hback
  exact absurd hback (by decide)

end Reconcile

end SongLibrary
