/-
  The comments of an audio file, and what reading makes of them.

  * a comment is for one key at most (`TagKey.eq_of_isNamed`), and for the same one under
    its first name (`isNamed_canonical`);
  * `commentsFor` are the comments for a key; a tag is read from the first of them
    (`commentFor?_eq`);
  * `commentsFor_addComment` says what adding a comment does to the comments for each key:
    a track number takes the place of those before it, and so does its total;
  * `tags_commentTexts` is the main statement: what is read from comments that were written.
-/
import Mathlib.Data.List.Basic
import Mathlib.Data.List.Induction
import SongLibrary.Audio.File
import SongLibrary.Proofs.Json.RoundTrip

namespace SongLibrary

/-! ## Names -/

namespace TagKey

variable {key key' : TagKey} {name : String}

/-- The names of the comments for a key, in small letters. -/
def commentNames (key : TagKey) : List (List Char) :=
  (key.commentName?.toList ++ key.otherCommentName?.toList).map (·.toList.map Char.toLower)

theorem mem_commentNames (h : key.isNamed name) : name.toList.map Char.toLower ∈ key.commentNames := by
  unfold isNamed at h
  unfold commentNames
  split at h
  · rw [eq_of_beq h]
    simp
  · rw [Bool.or_eq_true, Option.any_eq_true, Option.any_eq_true] at h
    rcases h with ⟨name', hname, hequal⟩ | ⟨name', hname, hequal⟩ <;>
    · rw [eq_of_beq hequal]
      simp [hname]

theorem commentNames_disjoint : ∀ key ∈ all, ∀ key' ∈ all, ∀ name ∈ key.commentNames,
    name ∈ key'.commentNames → key = key' := by
  decide

/-- **A comment is for one key at most.** -/
theorem eq_of_isNamed (h : key.isNamed name) (h' : key'.isNamed name) : key = key' :=
  commentNames_disjoint key (mem_all key) key' (mem_all key') _ (mem_commentNames h)
    (mem_commentNames h')

/-- The comments for a key may have its first name. -/
theorem isNamed_commentName (h : key.commentName? = some name) : key.isNamed name := by
  revert name
  cases key <;> decide

theorem commentName?_isSome : key.commentName?.isSome ↔ key ≠ .duration := by
  cases key <;> decide

theorem isNameChar_of_commentName (h : key.commentName? = some name) :
    name.toList.all Comment.isNameChar := by
  revert name
  cases key <;> decide

theorem find?_isNamed (h : key.isNamed name) : all.find? (·.isNamed name) = some key := by
  cases hfind : all.find? (·.isNamed name) with
  | none => exact absurd h (List.find?_eq_none.1 hfind key (mem_all key))
  | some key' =>
    have hfound : key'.isNamed name := by simpa using List.find?_some hfind
    rw [eq_of_isNamed hfound h]

/-- A name that no key has. -/
theorem find?_isNamed_eq_none (h : ∀ key : TagKey, key.isNamed name = false) :
    all.find? (·.isNamed name) = none :=
  List.find?_eq_none.2 fun key _ => by simp [h key]

end TagKey

namespace Comment

variable {c : Comment} {key : TagKey}

theorem name_canonical {name : String} (h : key.isNamed c.name) (hname : key.commentName? = some name) :
    c.canonical.name = name := by
  simp [canonical, TagKey.find?_isNamed h, hname]

/-- Under the first name of its key a comment is for the same key. -/
theorem isNamed_canonical (c : Comment) (key : TagKey) :
    key.isNamed c.canonical.name = key.isNamed c.name := by
  by_cases h : ∃ key' : TagKey, key'.isNamed c.name
  · obtain ⟨key', hnamed⟩ := h
    cases hname : key'.commentName? with
    | none => simp [canonical, TagKey.find?_isNamed hnamed, hname]
    | some name =>
      rw [name_canonical hnamed hname, Bool.eq_iff_iff]
      constructor
      · intro hkey
        rwa [TagKey.eq_of_isNamed hkey (TagKey.isNamed_commentName hname)]
      · intro hkey
        rw [TagKey.eq_of_isNamed hkey hnamed]
        exact TagKey.isNamed_commentName hname
  · have hnone : ∀ key' : TagKey, key'.isNamed c.name = false := fun key' =>
      Bool.eq_false_iff.2 fun hkey => h ⟨key', hkey⟩
    simp [canonical, TagKey.find?_isNamed_eq_none hnone]

/-- Whether a comment can be read once it is written. -/
def IsReadable (c : Comment) : Prop :=
  c.name.toList.all isNameChar

theorem IsReadable.canonical (h : c.IsReadable) : c.canonical.IsReadable := by
  unfold IsReadable Comment.canonical
  cases hname : (TagKey.all.find? (·.isNamed c.name)).bind TagKey.commentName? with
  | none => exact h
  | some name =>
    obtain ⟨key, -, hkey⟩ := Option.bind_eq_some_iff.1 hname
    simpa using TagKey.isNameChar_of_commentName hkey

theorem isReadable_of_ofText? {text : String} (h : ofText? text = some c) : c.IsReadable := by
  unfold ofText? at h
  dsimp only at h
  split at h
  · split at h
    · next hall =>
      cases h
      simpa [IsReadable] using hall
    · cases h
  · cases h

/-- The total number of tracks, under its second name. -/
def IsOldTotal (c : Comment) : Prop :=
  Text.asciiEqual c.name "TOTALTRACKS"

/-- No comment has a second name once it is written. -/
theorem not_isOldTotal_canonical (c : Comment) : ¬ c.canonical.IsOldTotal := by
  intro h
  have hnamed : TagKey.trackTotal.isNamed c.canonical.name := by
    unfold IsOldTotal at h
    simp [TagKey.isNamed, TagKey.isOwn, TagKey.otherCommentName?, h]
  rw [isNamed_canonical] at hnamed
  rw [IsOldTotal, name_canonical hnamed rfl] at h
  revert h
  decide

end Comment

namespace AudioFile

variable {cs : List Comment} {c : Comment} {key key' : TagKey} {name : String}

/-! ## The comments for a key -/

/-- The comments for a key. -/
def commentsFor (key : TagKey) (cs : List Comment) : List Comment :=
  cs.filter (key.isNamed ·.name)

@[simp] theorem commentsFor_append (cs cs' : List Comment) :
    commentsFor key (cs ++ cs') = commentsFor key cs ++ commentsFor key cs' :=
  List.filter_append ..

@[simp] theorem commentsFor_nil : commentsFor key [] = [] := rfl

theorem commentsFor_of_isNamed (h : key'.isNamed c.name) (key : TagKey) :
    commentsFor key [c] = if key = key' then [c] else [] := by
  split
  · next hkey =>
    subst hkey
    simp [commentsFor, h]
  · next hkey =>
    have hnot : key.isNamed c.name = false :=
      Bool.eq_false_iff.2 fun hnamed => hkey (TagKey.eq_of_isNamed hnamed h)
    simp [commentsFor, hnot]

/-- The value of the first of some comments, blanks around it aside, unless it is empty. -/
def firstValue? (cs : List Comment) : Option String :=
  (cs.head?.map fun c => String.ofList (Text.trim c.value.toList)).filter (!·.isEmpty)

/-- A tag is read from the comments for it. -/
theorem commentFor?_eq (cs : List Comment) (key : TagKey) :
    commentFor? cs key = firstValue? (commentsFor key cs) := by
  rw [commentFor?, firstValue?, commentsFor, List.head?_filter]

/-! ## Adding comments -/

/-- A number stands in place of the comments for its key, and is nothing to other keys. -/
theorem commentsFor_setNumber (n : Nat) (hname : key'.commentName? = some name)
    (hown : ∀ c : Comment, Text.asciiEqual c.name name → key'.isNamed c.name)
    (hcs : ∀ c ∈ cs, key'.isNamed c.name → Text.asciiEqual c.name name) :
    commentsFor key (setNumber name n cs) =
      if key = key' then [⟨name, toString n⟩] else commentsFor key cs := by
  rw [setNumber, commentsFor_append, commentsFor_of_isNamed (TagKey.isNamed_commentName hname)]
  split
  · next hkey =>
    subst hkey
    have hnone : commentsFor key (cs.filter (!Text.asciiEqual ·.name name)) = [] := by
      refine List.filter_eq_nil_iff.2 fun c hc hnamed => ?_
      obtain ⟨hmem, hother⟩ := List.mem_filter.1 hc
      simp [hcs c hmem hnamed] at hother
    rw [hnone, List.nil_append]
  · next hkey =>
    rw [List.append_nil, commentsFor, commentsFor, List.filter_filter]
    refine List.filter_congr fun c _ => ?_
    cases hnamed : key.isNamed c.name with
    | false => rfl
    | true =>
      have hother : Text.asciiEqual c.name name = false :=
        Bool.eq_false_iff.2 fun hequal => hkey (TagKey.eq_of_isNamed hnamed (hown c hequal))
      simp [hother]

/-- Without comments of a name nothing is dropped. -/
theorem dropNamed_eq_self (h : ∀ c ∈ cs, ¬ Text.asciiEqual c.name name) :
    dropNamed name cs = cs := by
  have hkept : ∀ (cs kept : List Comment), (∀ c ∈ cs, ¬ Text.asciiEqual c.name name) →
      cs.foldl (fun kept c =>
        if Text.asciiEqual c.name name then kept.rotateLeft 1 else kept ++ [c]) kept = kept ++ cs := by
    intro cs
    induction cs with
    | nil => simp
    | cons c rest ih =>
      intro kept h
      rw [List.foldl_cons, if_neg (h c List.mem_cons_self), ih _ fun c hc => h c (.tail _ hc)]
      simp
  exact (hkept cs [] h).trans (List.nil_append cs)

theorem mem_of_mem_dropNamed (h : c ∈ dropNamed name cs) : c ∈ cs := by
  have hrotated : ∀ kept : List Comment, c ∈ kept.rotateLeft 1 → c ∈ kept := by
    intro kept hc
    rw [List.rotateLeft] at hc
    split at hc
    · exact hc
    · rcases List.mem_append.1 hc with hc | hc
      · exact List.mem_of_mem_drop hc
      · exact List.mem_of_mem_take hc
  have hall : ∀ (cs kept : List Comment), c ∈ cs.foldl (fun kept c =>
      if Text.asciiEqual c.name name then kept.rotateLeft 1 else kept ++ [c]) kept →
      c ∈ kept ++ cs := by
    intro cs
    induction cs with
    | nil => simp
    | cons c' rest ih =>
      intro kept hc
      rcases List.mem_append.1 (ih _ hc) with hkept | hrest
      · dsimp only at hkept
        split at hkept
        · exact List.mem_append_left _ (hrotated kept hkept)
        · rw [List.mem_append, List.mem_singleton] at hkept
          rcases hkept with hkept | rfl <;> simp [*]
      · simp [hrest]
  exact hall cs [] h

/-- The number that a track number text gives for a key. -/
def numberIn? (key : TagKey) (value : String) : Option Nat :=
  match key with
  | .trackNumber => (trackNumbers value).1
  | .trackTotal => (trackNumbers value).2
  | _ => none

theorem numberIn?_eq_none {value : String} (h : key ≠ .trackNumber) (h' : key ≠ .trackTotal) :
    numberIn? key value = none := by
  cases key <;> first | contradiction | rfl

/-- The numbers that the track number comments give for a key. -/
def numbersFor (key : TagKey) (cs : List Comment) : List Nat :=
  (commentsFor .trackNumber cs).filterMap (numberIn? key ·.value)

theorem isNamed_trackNumber (name : String) :
    TagKey.trackNumber.isNamed name = Text.asciiEqual name "TRACKNUMBER" := by
  simp [TagKey.isNamed, TagKey.isOwn, TagKey.commentName?, TagKey.otherCommentName?]

theorem isNamed_trackTotal (name : String) : TagKey.trackTotal.isNamed name =
    (Text.asciiEqual name "TRACKTOTAL" || Text.asciiEqual name "TOTALTRACKS") := by
  simp [TagKey.isNamed, TagKey.isOwn, TagKey.commentName?, TagKey.otherCommentName?]

theorem commentsFor_setTrackNumber (n : Nat) :
    commentsFor key (setNumber "TRACKNUMBER" n cs) =
      if key = .trackNumber then [⟨"TRACKNUMBER", toString n⟩] else commentsFor key cs :=
  commentsFor_setNumber n rfl (fun c h => by rwa [isNamed_trackNumber])
    fun c _ h => by rwa [isNamed_trackNumber] at h

theorem commentsFor_setTrackTotal (n : Nat) (hcs : ∀ c ∈ cs, ¬ c.IsOldTotal) :
    commentsFor key (setNumber "TRACKTOTAL" n cs) =
      if key = .trackTotal then [⟨"TRACKTOTAL", toString n⟩] else commentsFor key cs :=
  commentsFor_setNumber n rfl (fun c h => by simp [isNamed_trackTotal, h]) fun c hc h => by
    rw [isNamed_trackTotal, Bool.or_eq_true] at h
    exact h.resolve_right (hcs c hc)

/-- The comments after the number of a track number is added. -/
def addNumber (cs : List Comment) (c : Comment) : List Comment :=
  match numberIn? .trackNumber c.value with
  | some n => setNumber "TRACKNUMBER" n cs
  | none => cs ++ [c]

/-- A track number is added before its total is. -/
theorem addComment_trackNumber (h : Text.asciiEqual c.name "TRACKNUMBER") : addComment cs c =
    match numberIn? .trackTotal c.value with
    | some n => dropNamed "TOTALTRACKS" (setNumber "TRACKTOTAL" n (addNumber cs c))
    | none => addNumber cs c := by
  rw [addComment, if_pos h]
  rfl

theorem commentsFor_addNumber (h : TagKey.trackNumber.isNamed c.name) (key : TagKey) :
    commentsFor key (addNumber cs c) =
      if key = .trackNumber then
        match numberIn? .trackNumber c.value with
        | some n => [⟨"TRACKNUMBER", toString n⟩]
        | none => commentsFor key cs ++ [c]
      else commentsFor key cs := by
  unfold addNumber
  cases numberIn? .trackNumber c.value with
  | some n => exact commentsFor_setTrackNumber n
  | none =>
    dsimp only
    rw [commentsFor_append, commentsFor_of_isNamed h]
    split <;> simp

/-! What holds of the comments that there are, of the one that is added and of those for
numbers holds of all that there are then. -/

section

variable {P : Comment → Prop}

theorem forall_mem_setNumber {n : Nat} (hcs : ∀ c ∈ cs, P c) (hn : P ⟨name, toString n⟩) :
    ∀ c ∈ setNumber name n cs, P c :=
  List.forall_mem_append.2
    ⟨fun c hc => hcs c (List.mem_filter.1 hc).1, List.forall_mem_singleton.2 hn⟩

theorem forall_mem_addNumber (hcs : ∀ c ∈ cs, P c) (hc : P c)
    (hnumber : ∀ n : Nat, P ⟨"TRACKNUMBER", toString n⟩) : ∀ c' ∈ addNumber cs c, P c' := by
  unfold addNumber
  cases numberIn? .trackNumber c.value with
  | some n => exact forall_mem_setNumber hcs (hnumber n)
  | none => exact List.forall_mem_append.2 ⟨hcs, List.forall_mem_singleton.2 hc⟩

theorem forall_mem_addComment (hcs : ∀ c ∈ cs, P c) (hc : P c)
    (hnumber : ∀ n : Nat, P ⟨"TRACKNUMBER", toString n⟩)
    (htotal : ∀ n : Nat, P ⟨"TRACKTOTAL", toString n⟩) : ∀ c' ∈ addComment cs c, P c' := by
  by_cases htrack : Text.asciiEqual c.name "TRACKNUMBER"
  · have hadded := forall_mem_addNumber hcs hc hnumber
    rw [addComment_trackNumber htrack]
    cases numberIn? .trackTotal c.value with
    | none => exact hadded
    | some n =>
      exact fun c' hc' => forall_mem_setNumber hadded (htotal n) c' (mem_of_mem_dropNamed hc')
  · rw [addComment, if_neg htrack]
    exact List.forall_mem_append.2 ⟨hcs, List.forall_mem_singleton.2 hc⟩

theorem forall_mem_foldl_addComment (hcs : ∀ c ∈ cs, P c)
    (hnumber : ∀ n : Nat, P ⟨"TRACKNUMBER", toString n⟩)
    (htotal : ∀ n : Nat, P ⟨"TRACKTOTAL", toString n⟩) : ∀ c ∈ cs.foldl addComment [], P c := by
  induction cs using List.reverseRecOn with
  | nil => simp
  | append_singleton cs c ih =>
    rw [List.foldl_append]
    exact forall_mem_addComment (ih fun c' hc' => hcs c' (List.mem_append_left _ hc'))
      (hcs c (by simp)) hnumber htotal

end

theorem not_isOldTotal_trackNumber (n : Nat) :
    ¬ (⟨"TRACKNUMBER", toString n⟩ : Comment).IsOldTotal :=
  show ¬ Text.asciiEqual "TRACKNUMBER" "TOTALTRACKS" by decide

theorem not_isOldTotal_trackTotal (n : Nat) :
    ¬ (⟨"TRACKTOTAL", toString n⟩ : Comment).IsOldTotal :=
  show ¬ Text.asciiEqual "TRACKTOTAL" "TOTALTRACKS" by decide

/-- **A number takes the place of the comments for its key**; any other comment comes
    behind those that there are. -/
theorem commentsFor_addComment (hcs : ∀ c ∈ cs, ¬ c.IsOldTotal) (hc : ¬ c.IsOldTotal)
    (hname : key.commentName? = some name) :
    commentsFor key (addComment cs c) =
      match (numbersFor key [c]).getLast? with
      | some n => [⟨name, toString n⟩]
      | none => commentsFor key cs ++ commentsFor key [c] := by
  by_cases htrack : Text.asciiEqual c.name "TRACKNUMBER"
  · have hnamed : TagKey.trackNumber.isNamed c.name := by rwa [isNamed_trackNumber]
    have hnumbers : (numbersFor key [c]).getLast? = numberIn? key c.value := by
      rw [numbersFor, commentsFor_of_isNamed hnamed, if_pos rfl]
      cases hvalue : numberIn? key c.value <;> simp [hvalue]
    -- The total in a value like `3/12` gets a comment of its own, besides that of the number.
    have hafter : commentsFor key (addComment cs c) =
        if key = .trackTotal then
          match numberIn? .trackTotal c.value with
          | some n => [⟨"TRACKTOTAL", toString n⟩]
          | none => commentsFor key (addNumber cs c)
        else commentsFor key (addNumber cs c) := by
      rw [addComment_trackNumber htrack]
      cases numberIn? .trackTotal c.value with
      | none => exact (ite_self _).symm
      | some n =>
        have hadded := forall_mem_addNumber hcs hc not_isOldTotal_trackNumber
        dsimp only
        rw [dropNamed_eq_self (forall_mem_setNumber hadded (not_isOldTotal_trackTotal n)),
          commentsFor_setTrackTotal n hadded]
    rw [hafter, hnumbers, commentsFor_addNumber hnamed, commentsFor_of_isNamed hnamed]
    by_cases htotal : key = .trackTotal
    · subst htotal
      cases hname
      simp
    · by_cases hnumber : key = .trackNumber
      · subst hnumber
        cases hname
        simp
      · simp [htotal, hnumber, numberIn?_eq_none hnumber htotal]
  · have hnamed : TagKey.trackNumber.isNamed c.name = false := by
      rw [isNamed_trackNumber]
      exact Bool.eq_false_iff.2 htrack
    have hnone : numbersFor key [c] = [] := by simp [numbersFor, commentsFor, hnamed]
    rw [addComment, if_neg htrack, commentsFor_append, hnone]
    rfl

/-- **What is read first for a key**: the last number that track numbers give for it, or else
    what comes first. -/
theorem head?_commentsFor_foldl (hcs : ∀ c ∈ cs, ¬ c.IsOldTotal)
    (hname : key.commentName? = some name) :
    (commentsFor key (cs.foldl addComment [])).head? =
      match (numbersFor key cs).getLast? with
      | some n => some ⟨name, toString n⟩
      | none => (commentsFor key cs).head? := by
  induction cs using List.reverseRecOn with
  | nil => simp [numbersFor]
  | append_singleton cs c ih =>
    have hbefore : ∀ c ∈ cs, ¬ c.IsOldTotal := fun c' hc' => hcs c' (List.mem_append_left _ hc')
    have hplain := forall_mem_foldl_addComment hbefore not_isOldTotal_trackNumber
      not_isOldTotal_trackTotal
    have hnumbers : numbersFor key (cs ++ [c]) = numbersFor key cs ++ numbersFor key [c] := by
      simp [numbersFor]
    rw [List.foldl_append, List.foldl_cons, List.foldl_nil,
      commentsFor_addComment hplain (hcs c (by simp)) hname, hnumbers, List.getLast?_append]
    cases (numbersFor key [c]).getLast? with
    | some n => rfl
    | none =>
      dsimp only
      rw [commentsFor_append, List.head?_append, List.head?_append, ih hbefore]
      cases (numbersFor key cs).getLast? <;> rfl

/-! ## Reading what was written -/

/-- The comments of a file have names that can be read again. -/
theorem isReadable_of_mem_readComments {file : AudioFile} :
    ∀ c ∈ file.readComments, c.IsReadable := by
  refine forall_mem_foldl_addComment (fun c hc => ?_) (fun _ => ?_) fun _ => ?_
  · obtain ⟨text, -, htext⟩ := List.mem_filterMap.1 hc
    exact Comment.isReadable_of_ofText? htext
  · exact TagKey.isNameChar_of_commentName (rfl : TagKey.trackNumber.commentName? = _)
  · exact TagKey.isNameChar_of_commentName (rfl : TagKey.trackTotal.commentName? = _)

/-- The comments that are written. -/
def kept (cs : List Comment) : List Comment :=
  cs.filter fun c => !c.name.isEmpty && !c.value.isEmpty

theorem filterMap_commentTexts (hcs : ∀ c ∈ cs, c.IsReadable) :
    (commentTexts cs).filterMap Comment.ofText? = (kept cs).map Comment.canonical := by
  rw [commentTexts, List.filterMap_map, ← List.filterMap_eq_map]
  refine List.filterMap_congr fun c hc => ?_
  exact Comment.ofText?_text (hcs c (List.mem_filter.1 hc).1).canonical

theorem commentsFor_kept (key : TagKey) (cs : List Comment) :
    commentsFor key (kept cs) = commentsFor key (cs.filter (!·.value.isEmpty)) := by
  rw [commentsFor, commentsFor, kept, List.filter_filter, List.filter_filter]
  refine List.filter_congr fun c _ => ?_
  cases hnamed : key.isNamed c.name with
  | false => rfl
  | true =>
    have hname : c.name.isEmpty = false := by
      refine Bool.eq_false_iff.2 fun hempty => ?_
      rw [String.isEmpty_iff.1 hempty] at hnamed
      revert hnamed
      cases key <;> decide
    simp [hname]

theorem commentsFor_map_canonical (key : TagKey) (cs : List Comment) :
    commentsFor key (cs.map Comment.canonical) = (commentsFor key cs).map Comment.canonical := by
  rw [commentsFor, List.filter_map]
  congr 1
  exact List.filter_congr fun c _ => Comment.isNamed_canonical c key

/-- No number is left out with the comments that have no value. -/
theorem numbersFor_kept (key : TagKey) (cs : List Comment) :
    numbersFor key ((kept cs).map Comment.canonical) = numbersFor key cs := by
  rw [numbersFor, commentsFor_map_canonical, List.filterMap_map, commentsFor_kept, commentsFor,
    List.filter_filter, List.filterMap_filter, numbersFor, commentsFor, List.filterMap_filter]
  refine List.filterMap_congr fun c _ => ?_
  cases hvalue : c.value.isEmpty with
  | false => simp [Comment.canonical]
  | true =>
    have hnone : numberIn? key c.value = none := by
      rw [String.isEmpty_iff.1 hvalue]
      cases key <;> rfl
    simp [hnone]

@[simp] theorem firstValue?_map_canonical (cs : List Comment) :
    firstValue? (cs.map Comment.canonical) = firstValue? cs := by
  cases cs <;> rfl

theorem trim_toString (n : Nat) : Text.trim (toString n).toList = (toString n).toList := by
  refine Text.trim_of_digits fun c hc => ?_
  rw [Nat.toString_eq_ofList_toDigits, String.toList_ofList] at hc
  exact Nat.isDigit_of_mem_toDigits (by decide) (by decide) hc

/-- A number is read as it is written. -/
theorem firstValue?_number (name : String) (n : Nat) :
    firstValue? [⟨name, toString n⟩] = some (toString n) := by
  simp only [firstValue?, List.head?_cons, Option.map_some, trim_toString, String.ofList_toList]
  simp

/-- **What is read from comments that were written**: the last number that their track numbers
    give, or else the first value that there is. -/
theorem tags_commentTexts (file : AudioFile) (hcs : ∀ c ∈ cs, c.IsReadable)
    (hkey : key ≠ .duration) :
    ({ file with comments := commentTexts cs } : AudioFile).tags.get? key =
      match (numbersFor key cs).getLast? with
      | some n => some (toString n)
      | none => commentFor? (cs.filter (!·.value.isEmpty)) key := by
  obtain ⟨name, hname⟩ := Option.isSome_iff_exists.1 (TagKey.commentName?_isSome.2 hkey)
  have hplain : ∀ c ∈ (kept cs).map Comment.canonical, ¬ c.IsOldTotal := by
    intro c hc
    obtain ⟨c', -, rfl⟩ := List.mem_map.1 hc
    exact c'.not_isOldTotal_canonical
  have hread : ({ file with comments := commentTexts cs } : AudioFile).tags.get? key =
      firstValue? (commentsFor key (((kept cs).map Comment.canonical).foldl addComment [])) := by
    rw [tags, readComments, filterMap_commentTexts hcs, ← commentFor?_eq]
    exact if_neg hkey
  have hfirst := head?_commentsFor_foldl hplain hname
  rw [numbersFor_kept] at hfirst
  rw [hread, firstValue?, hfirst]
  cases (numbersFor key cs).getLast? with
  | some n => exact firstValue?_number name n
  | none =>
    rw [commentsFor_map_canonical, commentFor?_eq, ← commentsFor_kept]
    exact firstValue?_map_canonical _

end AudioFile

end SongLibrary
