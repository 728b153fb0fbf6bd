/-
  Templates of directories.

  `directories fields last` names a directory for each of some fields, then the number of the
  track, if there is one, and a last field for the name of the file, each in a group of its own.

  * `groups_directories` are its groups;
  * `attempt_directories` and `attempt_file` are what its pattern finds: each directory is read
    up to its slash, the first one is missing just if there is a slash too few, and the digits
    before ` - ` are the number wherever there are any;
  * `render_directories` is what is written.
-/
import SongLibrary.Proofs.Template.Grammar
import SongLibrary.Proofs.Template.Parts
import SongLibrary.Proofs.Template.Preference
import SongLibrary.Proofs.Template.Tokens

namespace SongLibrary.Template

/-! ## The template -/

/-- A template whose groups are all in braces. -/
def braced (texts : List (List Char)) : String :=
  String.ofList (texts.flatMap fun text => '\x7b' :: (text ++ ['\x7d']))

/-- The texts of the groups: directories, the number of the track, and the last field. -/
def directoryTexts (fields : List Field) (last : Field) : List (List Char) :=
  fields.map (fun f => f.placeholderText ++ ['/']) ++
    [Field.placeholderText .paddedTrackNumber ++ [' ', '-', ' '], last.placeholderText]

/-- A directory for each of some fields, then the number of the track and a last field. -/
def directories (fields : List Field) (last : Field) : Template :=
  compile (braced (directoryTexts fields last))

example : braced (directoryTexts [.dance, .albumArtist, .album] .title) =
    "\x7b%DANCE%/\x7d\x7b%ALBUMARTIST%/\x7d\x7b%ALBUM%/\x7d\x7b%TRACKNUMBER0% - \x7d\x7b%TITLE%\x7d" := by
  decide

/-! ## Its groups -/

/-- The group of a directory. -/
def directoryGroup (optional : Bool) (n : Nat) (f : Field) : Group :=
  ⟨[.placeholder ⟨f, optional, n⟩, .literal ['/']], true, optional⟩

/-- The groups of some directories, their captures numbered from `n` on.  Only the first group
    of a template may be missing. -/
def directoryGroups : Bool → Nat → List Field → List Group
  | _, _, [] => []
  | first, n, f :: fields =>
    directoryGroup (first && (f == .dance || f == .genre)) n f :: directoryGroups false (n + 1) fields

/-- The group of the number of the track. -/
def numberGroup (n : Nat) : Group :=
  ⟨[.placeholder ⟨.paddedTrackNumber, true, n⟩, .literal [' ', '-', ' ']], true, true⟩

/-- The group of the last field. -/
def lastGroup (n : Nat) (f : Field) : Group :=
  ⟨[.placeholder ⟨f, false, n⟩], true, false⟩

theorem splitGroups_of_plain {text : List Char} (rest : List Char)
    (h : ∀ c ∈ text, c ≠ '\x7b' ∧ c ≠ '\x7d') :
    splitGroups (text ++ rest) = (text ++ (splitGroups rest).1, (splitGroups rest).2) := by
  induction text with
  | nil => rfl
  | cons c text ih =>
    obtain ⟨hopen, hclose⟩ := h c (List.mem_cons_self ..)
    rw [List.cons_append, splitGroups, ih fun x hx => h x (List.mem_cons_of_mem _ hx)]
    simp [hopen, hclose]

/-- Groups in braces are read as they stand there. -/
theorem groupTexts_braced {texts : List (List Char)}
    (h : ∀ text ∈ texts, text ≠ [] ∧ ∀ c ∈ text, c ≠ '\x7b' ∧ c ≠ '\x7d') :
    groupTexts (braced texts).toList = texts.map (·, true) := by
  have hsplit : splitGroups (texts.flatMap fun text => '\x7b' :: (text ++ ['\x7d'])) =
      ([], texts.map (·, true)) := by
    induction texts with
    | nil => rfl
    | cons text texts ih =>
      obtain ⟨hne, hplain⟩ := h text (List.mem_cons_self ..)
      have hrest := ih fun text htext => h text (List.mem_cons_of_mem _ htext)
      have hclose : splitGroups ('\x7d' :: texts.flatMap fun text => '\x7b' :: (text ++ ['\x7d'])) =
          ([], texts.map (·, true)) := by
        rw [splitGroups, hrest]
        rfl
      rw [List.flatMap_cons, List.cons_append, List.append_assoc, List.singleton_append, splitGroups,
        splitGroups_of_plain _ hplain, hclose]
      simp [groupText, hne]
  rw [groupTexts, braced, String.toList_ofList, hsplit]
  rfl

theorem Field.isNumeric_of_text {f : Field} (h : f.conversion = .text) : f.isNumeric = false := by
  rw [isNumeric, h]

theorem Field.ne_bypass_of_text {f : Field} (h : f.conversion = .text) : f ≠ .bypass := by
  rintro rfl
  cases h

theorem Field.plain_placeholderText (f : Field) (after : List Char)
    (h : ∀ c ∈ after, c ≠ '\x7b' ∧ c ≠ '\x7d') :
    f.placeholderText ++ after ≠ [] ∧
      ∀ c ∈ f.placeholderText ++ after, c ≠ '\x7b' ∧ c ≠ '\x7d' := by
  refine ⟨by simp [placeholderText], fun c hc => ?_⟩
  simp only [placeholderText, List.mem_append, List.mem_cons, List.not_mem_nil, or_false] at hc
  rcases hc with (rfl | hc | rfl) | hc
  · decide
  · exact (plain_of_mem_name hc).2
  · decide
  · exact h c hc

theorem plain_of_mem_directoryTexts {fields : List Field} {last : Field} {text : List Char}
    (h : text ∈ directoryTexts fields last) :
    text ≠ [] ∧ ∀ c ∈ text, c ≠ '\x7b' ∧ c ≠ '\x7d' := by
  simp only [directoryTexts, List.mem_append, List.mem_map, List.mem_cons, List.not_mem_nil,
    or_false] at h
  rcases h with ⟨f, -, rfl⟩ | rfl | rfl
  · exact f.plain_placeholderText _ (by simp)
  · exact Field.plain_placeholderText _ _ (by simp)
  · simpa using last.plain_placeholderText [] (by simp)

theorem groupsOf_directories {fields : List Field} (h : ∀ f ∈ fields, f.isNumeric = false)
    (first : Bool) (n : Nat) (rest : List (List Char × Bool)) :
    groupsOf first n (fields.map (fun f => (f.placeholderText ++ ['/'], true)) ++ rest) =
      directoryGroups first n fields ++ groupsOf (first && fields.isEmpty) (n + fields.length) rest := by
  induction fields generalizing first n with
  | nil => simp [directoryGroups]
  | cons f fields ih =>
    have hf := h f (List.mem_cons_self ..)
    have htokens : tokens (f.placeholderText ++ ['/']) = [.field f, .literal ['/']] := by
      rw [tokens_placeholderText]
      simp [tokens, consCharacter]
    have hoptional : mayBeMissing first [f] = (first && (f == .dance || f == .genre)) := by
      simp only [mayBeMissing, List.isEmpty_cons, Bool.not_false, Bool.true_and, List.contains_cons,
        List.contains_nil, Bool.or_false, List.all_cons, List.all_nil, Bool.and_true, hf]
      cases f <;> rfl
    rw [List.map_cons, List.cons_append, groupsOf, htokens]
    have hnames : [Token.field f, .literal ['/']].filterMap Token.field? = [f] := rfl
    have hlength : n + 1 + fields.length = n + (f :: fields).length := by
      rw [List.length_cons]
      omega
    rw [hnames, hoptional, List.length_singleton, ih fun f hf => h f (List.mem_cons_of_mem _ hf),
      hlength]
    simp [segmentsOf, hf, directoryGroups, directoryGroup]

/-- **The groups of a template of directories.** -/
theorem groups_directories {fields : List Field} {last : Field}
    (hfields : ∀ f ∈ fields, f.isNumeric = false) (hlast : last.isNumeric = false) :
    (directories fields last).groups =
      directoryGroups true 1 fields ++
        [numberGroup (1 + fields.length), lastGroup (1 + fields.length + 1) last] := by
  have hnumber : tokens (Field.placeholderText .paddedTrackNumber ++ [' ', '-', ' ']) =
      [.field .paddedTrackNumber, .literal [' ', '-', ' ']] := by
    rw [tokens_placeholderText]
    simp [tokens, consCharacter]
  have htokens : tokens last.placeholderText = [.field last] := by
    have hplain := tokens_placeholderText last []
    rwa [List.append_nil, tokens] at hplain
  have hpadded : Field.isNumeric .paddedTrackNumber = true := rfl
  rw [directories, compile, groupTexts_braced fun _ h => plain_of_mem_directoryTexts h,
    directoryTexts, List.map_append, List.map_map]
  refine (groupsOf_directories hfields true 1 _).trans (congrArg _ ?_)
  simp [groupsOf, hnumber, htokens, Token.field?, segmentsOf, hpadded, hlast, numberGroup,
    lastGroup, mayBeMissing]

/-! ## What its pattern finds -/

/-- What some groups find at the beginning of a text. -/
def attemptGroups (groups : List Group) : Finder :=
  Pattern.attempt (groups.map Group.block)

theorem attemptGroups_cons (g : Group) (groups : List Group) :
    attemptGroups (g :: groups) = g.block.attempt (attemptGroups groups) := rfl

/-- A name and a slash, and something after them. -/
def attemptDirectory (next : Finder) : Finder :=
  [Piece.name, .literal ['/']].foldr Piece.attempt next

section

variable {next : Finder} {name rest text : List Char}

/-- A directory is read up to its slash. -/
theorem attemptDirectory_append (hne : name ≠ []) (hslash : '/' ∉ name) :
    attemptDirectory next (name ++ '/' :: rest) = (next rest).map (some name :: ·) := by
  have hrun : longestRun (· != '/') (literalThen ['/'] next) (name ++ '/' :: rest) =
      (next rest).map (name, ·) := by
    refine longestRun_stop hne (fun x hx => ?_) rfl fun x text hx => ?_
    · simp only [bne_iff_ne, ne_eq]
      rintro rfl
      exact hslash hx
    · exact literalThen_of_ne (by simpa using hx) _ _ _
  change (longestRun (· != '/') (literalThen ['/'] next) _).map _ = _
  rw [hrun, Option.map_map]
  rfl

theorem attemptDirectory_slash : attemptDirectory next ('/' :: rest) = none := rfl

/-- No directory is read where there is no slash. -/
theorem attemptDirectory_of_not_mem (hslash : '/' ∉ text) : attemptDirectory next text = none := by
  have hrun : longestRun (· != '/') (literalThen ['/'] next) text = none := by
    refine longestRun_eq_none fun rest hrest => ?_
    cases rest with
    | nil => rfl
    | cons x rest =>
      refine literalThen_of_ne ?_ _ _ _
      rintro rfl
      exact hslash (hrest.subset (List.mem_cons_self ..))
  change (longestRun (· != '/') (literalThen ['/'] next) _).map _ = _
  rw [hrun]
  rfl

end

theorem block_directoryGroup {f : Field} (hf : f.isNumeric = false) (optional : Bool) (n : Nat) :
    (directoryGroup optional n f).block = ⟨[.name, .literal ['/']], optional⟩ := by
  simp [directoryGroup, Group.block, Segment.piece, hf]

/-- A directory that may not be missing. -/
theorem attempt_required {f : Field} (hf : f.isNumeric = false) (n : Nat) (next : Finder) :
    (directoryGroup false n f).block.attempt next = attemptDirectory next := by
  rw [block_directoryGroup hf]
  rfl

/-- A directory that may be missing is read if there is one. -/
theorem attempt_optional {f : Field} (hf : f.isNumeric = false) (n : Nat) (next : Finder)
    (text : List Char) :
    (directoryGroup true n f).block.attempt next text =
      (attemptDirectory next text <|> (next text).map (none :: ·)) := by
  rw [block_directoryGroup hf]
  rfl

section

variable {fields : List Field} {groups : List Group} {written : Field → List Char}

/-- Directories are read one after the other. -/
theorem attempt_requiredDirectories (hfields : ∀ f ∈ fields, f.isNumeric = false)
    (hwritten : ∀ f ∈ fields, written f ≠ [] ∧ '/' ∉ written f) (n : Nat) (rest : List Char) :
    attemptGroups (directoryGroups false n fields ++ groups)
        (fields.flatMap (fun f => written f ++ ['/']) ++ rest) =
      (attemptGroups groups rest).map (fields.map (fun f => some (written f)) ++ ·) := by
  induction fields generalizing n with
  | nil => simp [directoryGroups]
  | cons f fields ih =>
    obtain ⟨hne, hslash⟩ := hwritten f (List.mem_cons_self ..)
    have hrest := ih (fun f hf => hfields f (List.mem_cons_of_mem _ hf))
      (fun f hf => hwritten f (List.mem_cons_of_mem _ hf)) (n + 1)
    rw [directoryGroups, Bool.false_and, List.cons_append, attemptGroups_cons,
      attempt_required (hfields f (List.mem_cons_self ..)), List.flatMap_cons, List.append_assoc,
      List.append_assoc, List.singleton_append, attemptDirectory_append hne hslash, hrest,
      Option.map_map]
    rfl

/-- Directories are not read where there are too few slashes. -/
theorem attempt_tooFew (hfields : ∀ f ∈ fields, f.isNumeric = false) (n : Nat) {text : List Char}
    (hfew : text.count '/' < fields.length) :
    attemptGroups (directoryGroups false n fields ++ groups) text = none := by
  induction fields generalizing n text with
  | nil => exact absurd hfew (Nat.not_lt_zero _)
  | cons f fields ih =>
    rw [directoryGroups, Bool.false_and, List.cons_append, attemptGroups_cons,
      attempt_required (hfields f (List.mem_cons_self ..))]
    by_cases hslash : '/' ∈ text
    · obtain ⟨name, rest, rfl, hname⟩ := List.eq_append_cons_of_mem hslash
      have hcount : rest.count '/' < fields.length := by
        rw [List.count_append, List.count_cons_self, List.count_eq_zero.2 hname,
          List.length_cons] at hfew
        omega
      cases name with
      | nil => exact attemptDirectory_slash
      | cons x name =>
        rw [attemptDirectory_append (by simp) hname,
          ih (fun f hf => hfields f (List.mem_cons_of_mem _ hf)) (n + 1) hcount]
        rfl
    · exact attemptDirectory_of_not_mem hslash

theorem count_slash_flatMap {fields : List Field}
    (hslash : ∀ f ∈ fields, '/' ∉ written f) {rest : List Char} (hrest : '/' ∉ rest) :
    (fields.flatMap (fun f => written f ++ ['/']) ++ rest).count '/' = fields.length := by
  induction fields with
  | nil => exact List.count_eq_zero.2 hrest
  | cons f fields ih =>
    have hf := List.count_eq_zero.2 (hslash f (List.mem_cons_self ..))
    rw [List.flatMap_cons, List.append_assoc, List.append_assoc, List.count_append, hf,
      List.singleton_append, List.count_cons_self, ih fun f hf => hslash f (List.mem_cons_of_mem _ hf),
      List.length_cons, Nat.zero_add]

/-- **The directories of a path are those that are written**: the first one is missing if
    nothing is written for it, and no other is taken for it. -/
theorem attempt_directories (hfields : ∀ f ∈ fields, f.isNumeric = false)
    (hslash : ∀ f ∈ fields, '/' ∉ written f) (hfilled : ∀ f ∈ fields.tail, written f ≠ [])
    (hfirst : ∀ f ∈ fields.head?, written f ≠ [] ∨ f = .dance ∨ f = .genre) (n : Nat)
    {rest : List Char} (hrest : '/' ∉ rest) {captures : Captures}
    (hfound : attemptGroups groups rest = some captures) :
    attemptGroups (directoryGroups true n fields ++ groups)
        (fields.flatMap (fun f => if written f = [] then [] else written f ++ ['/']) ++ rest) =
      some (fields.map (fun f => if written f = [] then none else some (written f)) ++ captures) := by
  cases fields with
  | nil => exact hfound
  | cons f fields =>
    have hf := hfields f (List.mem_cons_self ..)
    have hothers : ∀ g ∈ fields, written g ≠ [] ∧ '/' ∉ written g := fun g hg =>
      ⟨hfilled g hg, hslash g (List.mem_cons_of_mem _ hg)⟩
    have hpath : fields.flatMap (fun f => if written f = [] then [] else written f ++ ['/']) =
        fields.flatMap fun f => written f ++ ['/'] := by
      rw [List.flatMap_def, List.flatMap_def,
        List.map_congr_left fun g hg => if_neg (hothers g hg).1]
    have hcaptures : fields.map (fun f => if written f = [] then none else some (written f)) =
        fields.map fun f => some (written f) :=
      List.map_congr_left fun g hg => if_neg (hothers g hg).1
    have hread : attemptGroups (directoryGroups false (n + 1) fields ++ groups)
        (fields.flatMap (fun f => written f ++ ['/']) ++ rest) =
          some (fields.map (fun f => some (written f)) ++ captures) := by
      rw [attempt_requiredDirectories (fun g hg => hfields g (List.mem_cons_of_mem _ hg)) hothers,
        hfound, Option.map_some]
    rw [List.flatMap_cons, List.map_cons, hpath, hcaptures, directoryGroups, List.cons_append,
      attemptGroups_cons, Bool.true_and, List.append_assoc]
    by_cases hempty : written f = []
    · -- One slash is missing, so the first directory is.
      have hoptional : (f == .dance || f == .genre) = true := by
        rcases hfirst f rfl with hne | rfl | rfl
        · exact absurd hempty hne
        · rfl
        · rfl
      have hcount := count_slash_flatMap (fun g hg => (hothers g hg).2) hrest
      have hnone : attemptDirectory (attemptGroups (directoryGroups false (n + 1) fields ++ groups))
          (fields.flatMap (fun f => written f ++ ['/']) ++ rest) = none := by
        have hmore : attemptGroups (directoryGroups false n (f :: fields) ++ groups)
            (fields.flatMap (fun f => written f ++ ['/']) ++ rest) = none :=
          attempt_tooFew hfields n (by rw [hcount]; exact Nat.lt_succ_self _)
        rwa [directoryGroups, Bool.false_and, List.cons_append, attemptGroups_cons,
          attempt_required hf] at hmore
      rw [if_pos hempty, if_pos hempty, hoptional, attempt_optional hf, List.nil_append, hnone, hread]
      rfl
    · have hpresent : attemptDirectory (attemptGroups (directoryGroups false (n + 1) fields ++ groups))
          ((written f ++ ['/']) ++ (fields.flatMap (fun f => written f ++ ['/']) ++ rest)) =
            some (some (written f) :: (fields.map (fun f => some (written f)) ++ captures)) := by
        rw [List.append_assoc, List.singleton_append,
          attemptDirectory_append hempty (hslash f (List.mem_cons_self ..)), hread]
        rfl
      rw [if_neg hempty, if_neg hempty]
      cases (f == .dance || f == .genre) with
      | true =>
        rw [attempt_optional hf, hpresent]
        rfl
      | false =>
        rw [attempt_required hf, hpresent]
        rfl

end

section

variable {digits name extension text rest : List Char} {last : Field} {captures : Captures}

/-- The last field is read up to the extension. -/
theorem attempt_last (hlast : last.isNumeric = false) (n : Nat) (hne : name ≠ [])
    (hslash : '/' ∉ name) (hextension : IsExtension extension) :
    attemptGroups [lastGroup n last] (name ++ extension) = some [some name] := by
  obtain ⟨letters, rfl, hletters, halphanum⟩ := hextension
  have hdot : '.' ∉ letters := fun hdot => by simpa using halphanum _ hdot
  have hfound : findExtension ('.' :: letters) = some [] := by
    simpa [findExtension, hletters] using halphanum
  have hlater : longestRun (· != '/') findExtension ('.' :: letters) = none := by
    have hnone : longestRun (· != '/') findExtension letters = none :=
      longestRun_eq_none fun rest hrest => findExtension_of_not_mem fun h => hdot (hrest.subset h)
    rw [longestRun, hnone, findExtension_of_not_mem hdot]
    rfl
  have hrun : longestRun (· != '/') findExtension (name ++ '.' :: letters) = some (name, []) := by
    refine longestRun_of_last hne (fun x hx => ?_) hfound hlater
    simp only [bne_iff_ne, ne_eq]
    rintro rfl
    exact hslash hx
  have hblock : (lastGroup n last).block = ⟨[.name], false⟩ := by
    simp [lastGroup, Group.block, Segment.piece, hlast]
  rw [attemptGroups_cons, hblock]
  change (longestRun (· != '/') findExtension _).map _ = _
  rw [hrun]
  rfl

/-- The number of the track is looked for before it is left out. -/
theorem attempt_numberGroup (n : Nat) (next : Finder) (text : List Char) :
    (numberGroup n).block.attempt next text =
      (((longestRun Text.isDecimalDigit (literalThen [' ', '-', ' '] next) text).map
            (fun r => some r.1 :: r.2) <|>
          (literalThen [' ', '-', ' '] next text).map (none :: ·)) <|>
        (next text).map (none :: ·)) := rfl

/-- Digits before ` - ` are the number. -/
theorem attempt_number (n : Nat) {groups : List Group} (hne : digits ≠ [])
    (hdigits : ∀ c ∈ digits, Text.isDecimalDigit c)
    (hfound : attemptGroups groups rest = some captures) :
    attemptGroups (numberGroup n :: groups) (digits ++ ' ' :: '-' :: ' ' :: rest) =
      some (some digits :: captures) := by
  have hrun : longestRun Text.isDecimalDigit
      (literalThen [' ', '-', ' '] (attemptGroups groups)) (digits ++ ' ' :: '-' :: ' ' :: rest) =
        some (digits, captures) := by
    rw [longestRun_stop hne hdigits (by decide) fun x text hx => literalThen_of_ne ?_ _ _ _]
    · rw [show literalThen [' ', '-', ' '] (attemptGroups groups) (' ' :: '-' :: ' ' :: rest) =
        attemptGroups groups rest from rfl, hfound]
      rfl
    · rintro rfl
      revert hx
      decide
  rw [attemptGroups_cons, attempt_numberGroup, hrun]
  rfl

/-- There is no number where no digits stand before ` - `. -/
theorem attempt_noNumber (n : Nat) {groups : List Group}
    (h : ∀ digits rest, (∀ c ∈ digits, Text.isDecimalDigit c) →
      text ≠ digits ++ ' ' :: '-' :: ' ' :: rest)
    (hfound : attemptGroups groups text = some captures) :
    attemptGroups (numberGroup n :: groups) text = some (none :: captures) := by
  have hliteral : ∀ digits rest, (∀ c ∈ digits, Text.isDecimalDigit c) → text = digits ++ rest →
      literalThen [' ', '-', ' '] (attemptGroups groups) rest = none := by
    intro digits rest hdigits heq
    rw [← Option.not_isSome_iff_eq_none]
    intro hsome
    obtain ⟨later, rfl⟩ := literalThen_isSome hsome
    exact h digits later hdigits heq
  have hrun : longestRun Text.isDecimalDigit
      (literalThen [' ', '-', ' '] (attemptGroups groups)) text = none := by
    rw [Option.eq_none_iff_forall_ne_some]
    rintro ⟨run, later⟩ hsome
    obtain ⟨hdigits, rest, heq, hrest⟩ := longestRun_sound hsome
    rw [hliteral run rest hdigits heq] at hrest
    cases hrest
  rw [attemptGroups_cons, attempt_numberGroup, hrun, hliteral [] text (by simp) rfl, hfound]
  rfl

/-- No extension makes a text begin with digits and ` - `. -/
theorem not_digits_append (hextension : IsExtension extension)
    (h : ∀ digits rest, (∀ c ∈ digits, Text.isDecimalDigit c) →
      text ≠ digits ++ ' ' :: '-' :: ' ' :: rest) :
    ∀ digits rest, (∀ c ∈ digits, Text.isDecimalDigit c) →
      text ++ extension ≠ digits ++ ' ' :: '-' :: ' ' :: rest := by
  intro digits rest hdigits heq
  obtain ⟨letters, rfl, -⟩ := hextension
  have hmarked : digits ++ ' ' :: '-' :: ' ' :: rest = (digits ++ [' ', '-', ' ']) ++ rest := by simp
  rw [hmarked, List.append_eq_append_iff] at heq
  rcases heq with ⟨later, hlater, hrest⟩ | ⟨later, rfl, -⟩
  · cases later with
    | nil => exact h digits [] hdigits (by simpa using hlater.symm)
    | cons c later =>
      -- The dot would be a digit, or stand in ` - `.
      have hc : c = '.' := by
        rw [List.cons_append, List.cons.injEq] at hrest
        exact hrest.1.symm
      have hmem : '.' ∈ digits ++ [' ', '-', ' '] := by
        rw [hlater, hc]
        simp
      rcases List.mem_append.1 hmem with hdigit | hmark
      · have hdot := hdigits _ hdigit
        revert hdot
        decide
      · revert hmark
        decide
  · exact h digits later hdigits (by simp)

/-- The name of a file: the number, if there is one, the last field and the extension. -/
def fileText (number name extension : List Char) : List Char :=
  (if number = [] then [] else number ++ [' ', '-', ' ']) ++ (name ++ extension)

/-- **The number and the last field are read from the name of a file** that they are written
    in, unless there is no number and the last field looks like one. -/
theorem attempt_file (hlast : last.isNumeric = false) (n m : Nat)
    (hdigits : ∀ c ∈ digits, Text.isDecimalDigit c) (hne : name ≠ []) (hslash : '/' ∉ name)
    (hextension : IsExtension extension)
    (hnumber : digits ≠ [] ∨ ∀ digits rest, (∀ c ∈ digits, Text.isDecimalDigit c) →
      name ≠ digits ++ ' ' :: '-' :: ' ' :: rest) :
    attemptGroups [numberGroup n, lastGroup m last] (fileText digits name extension) =
      some [if digits = [] then none else some digits, some name] := by
  have hname := attempt_last hlast m hne hslash hextension
  unfold fileText
  by_cases hempty : digits = []
  · rw [if_pos hempty, if_pos hempty, List.nil_append]
    exact attempt_noNumber n
      (not_digits_append hextension (hnumber.resolve_left (not_not_intro hempty))) hname
  · rw [if_neg hempty, if_neg hempty, List.append_assoc]
    exact attempt_number n hempty hdigits hname

theorem slash_not_mem_fileText (hdigits : ∀ c ∈ digits, Text.isDecimalDigit c)
    (hslash : '/' ∉ name) (hextension : IsExtension extension) :
    '/' ∉ fileText digits name extension := by
  have hdigit : '/' ∉ digits := fun hmem => by
    have hslash := hdigits _ hmem
    revert hslash
    decide
  have hletter : '/' ∉ extension := by
    obtain ⟨letters, rfl, -, halphanum⟩ := hextension
    intro hmem
    have hslash := halphanum '/' (by simpa using hmem)
    revert hslash
    decide
  unfold fileText
  split <;> simp [hdigit, hslash, hletter]

end

/-! ## What is written -/

section

variable (t : Template) (refs : ReferenceData) (song : Song) (bypass : Option String) (s : Sanitizer)

/-- A group of a placeholder and literal text is written if the placeholder has a value. -/
theorem renderGroup_pair (p : Placeholder) (text : List Char) (braced optional : Bool) :
    t.renderGroup refs song bypass s ⟨[.placeholder p, .literal text], braced, optional⟩ =
      if t.rendered refs song bypass s p.field = [] then []
      else t.rendered refs song bypass s p.field ++ text := by
  by_cases h : t.rendered refs song bypass s p.field = [] <;>
    simp [renderGroup, isWritten, Group.placeholders, Segment.placeholder?, renderSegment, h]

/-- A group of a placeholder alone is what is written for that. -/
theorem renderGroup_single (p : Placeholder) (braced optional : Bool) :
    t.renderGroup refs song bypass s ⟨[.placeholder p], braced, optional⟩ =
      t.rendered refs song bypass s p.field := by
  by_cases h : t.rendered refs song bypass s p.field = [] <;>
    simp [renderGroup, isWritten, Group.placeholders, Segment.placeholder?, renderSegment, h]

theorem flatMap_directoryGroups (first : Bool) (n : Nat) (fields : List Field) :
    (directoryGroups first n fields).flatMap (t.renderGroup refs song bypass s) =
      fields.flatMap fun f => if t.rendered refs song bypass s f = [] then []
        else t.rendered refs song bypass s f ++ ['/'] := by
  induction fields generalizing first n with
  | nil => rfl
  | cons f fields ih =>
    rw [directoryGroups, List.flatMap_cons, ih, directoryGroup, renderGroup_pair, List.flatMap_cons]

/-- **What is written into a template of directories.** -/
theorem render_directories {fields : List Field} {last : Field}
    (hfields : ∀ f ∈ fields, f.isNumeric = false) (hlast : last.isNumeric = false) :
    ((directories fields last).render refs song bypass s).toList =
      (fields.flatMap fun f => if (directories fields last).rendered refs song bypass s f = [] then []
        else (directories fields last).rendered refs song bypass s f ++ ['/']) ++
      fileText ((directories fields last).rendered refs song bypass s .paddedTrackNumber)
        ((directories fields last).rendered refs song bypass s last) (renderExtension song) := by
  rw [render, String.toList_ofList, renderGroups, groups_directories hfields hlast,
    List.flatMap_append, flatMap_directoryGroups, List.flatMap_cons, List.flatMap_singleton,
    numberGroup, renderGroup_pair, lastGroup, renderGroup_single, fileText]
  simp only [List.append_assoc]

end

end SongLibrary.Template
