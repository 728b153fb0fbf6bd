/-
  Whether a generated path fits the file system.

  `nested fields last` names a directory for each of some fields, and then the file.  What is
  written for a field is kept within the length of a name, but the extension is added to what
  is written for the last one.

  * `parts_render_nested` are the parts of the path: the directories that something is written
    for, and the name of the file (`fileName`);
  * `nested_fits_iff`: so the path fits just if the name of the file does, and a move there
    fails because of a name that is too long at most if it does not.
-/
import SongLibrary.Proofs.NameLength
import SongLibrary.Proofs.Template.Directories

namespace SongLibrary

/-- The bytes of a text's name are those of the text. -/
theorem Name.length_bytes_text (text : List Char) :
    (Name.bytes (text.map .char)).length = String.utf8Len text := by
  induction text with
  | nil => rfl
  | cons c text ih =>
    rw [bytes, Text.encode] at ih ⊢
    rw [List.map_cons, List.flatMap_cons, List.length_append, ih, String.utf8Len_cons,
      Text.Symbol.bytes, String.length_utf8EncodeChar, Nat.add_comm]

namespace Template

/-! ## The template -/

/-- A directory for each of some fields, then a last field for the name of the file. -/
def nested (fields : List Field) (last : Field) : Template :=
  compile (braced (fields.map (fun f => f.placeholderText ++ ['/']) ++ [last.placeholderText]))

example : braced ([Field.dance, .album].map (fun f => f.placeholderText ++ ['/']) ++
    [Field.placeholderText .title]) = "\x7b%DANCE%/\x7d\x7b%ALBUM%/\x7d\x7b%TITLE%\x7d" := by
  decide

section

variable {fields : List Field}

/-- The groups of the template: those of the directories, and one of the last field alone. -/
theorem groups_nested (hfields : ∀ f ∈ fields, f.isNumeric = false) (last : Field) :
    ∃ p braced optional, p.field = last ∧
      (nested fields last).groups =
        directoryGroups true 1 fields ++ [⟨[.placeholder p], braced, optional⟩] := by
  have hplain : ∀ text ∈ fields.map (fun f => f.placeholderText ++ ['/']) ++ [last.placeholderText],
      text ≠ [] ∧ ∀ c ∈ text, c ≠ '\x7b' ∧ c ≠ '\x7d' := by
    simp only [List.mem_append, List.mem_map, List.mem_singleton]
    rintro text (⟨f, -, rfl⟩ | rfl)
    · exact f.plain_placeholderText _ (by simp)
    · simpa using last.plain_placeholderText [] (by simp)
  have htokens : tokens last.placeholderText = [.field last] := by
    have htokens := tokens_placeholderText last []
    rwa [List.append_nil, tokens] at htokens
  have hgroup : ∀ first n, ∃ p braced optional, p.field = last ∧
      groupsOf first n [(last.placeholderText, true)] = [⟨[.placeholder p], braced, optional⟩] := by
    intro first n
    rw [groupsOf, htokens]
    exact ⟨_, _, _, rfl, rfl⟩
  obtain ⟨p, braced, optional, hp, hlast⟩ := hgroup (true && fields.isEmpty) (1 + fields.length)
  refine ⟨p, braced, optional, hp, ?_⟩
  rw [nested, compile, groupTexts_braced hplain, List.map_append, List.map_map, ← hlast]
  exact groupsOf_directories hfields true 1 _

end

/-! ## The path -/

section

variable (t : Template) (refs : ReferenceData) (song : Song) (bypass : Option String) (s : Sanitizer)

/-- The directories of a song: what is written for some fields, where anything is. -/
def directoryNames (fields : List Field) : List (List Char) :=
  (fields.map (t.rendered refs song bypass s)).filter (!·.isEmpty)

/-- The name of the file of a song: what is written for a field, and the extension. -/
def fileName (last : Field) : List Char :=
  t.rendered refs song bypass s last ++ renderExtension song

theorem flatMap_directoryNames (fields : List Field) :
    (t.directoryNames refs song bypass s fields).flatMap (· ++ ['/']) =
      fields.flatMap fun f => if t.rendered refs song bypass s f = [] then []
        else t.rendered refs song bypass s f ++ ['/'] := by
  unfold directoryNames
  induction fields with
  | nil => rfl
  | cons f fields ih =>
    rw [List.flatMap_cons, ← ih, List.map_cons]
    by_cases h : t.rendered refs song bypass s f = [] <;> simp [h]

/-- What is written for a text is within the capacity of the sanitizer. -/
theorem utf8Len_rendered {f : Field} (h : f.conversion = .text) :
    String.utf8Len (t.rendered refs song bypass s f) ≤ s.capacity := by
  rw [rendered, h]
  exact (s.isClean_clean _).fits

variable {fields : List Field} {last : Field}

theorem toList_render_nested (hfields : ∀ f ∈ fields, f.isNumeric = false) :
    ((nested fields last).render refs song bypass s).toList =
      ((nested fields last).directoryNames refs song bypass s fields).flatMap (· ++ ['/']) ++
        (nested fields last).fileName refs song bypass s last := by
  obtain ⟨p, braced, optional, rfl, hgroups⟩ := groups_nested hfields last
  rw [flatMap_directoryNames, render, String.toList_ofList, renderGroups, hgroups,
    List.flatMap_append, flatMap_directoryGroups, List.flatMap_singleton, renderGroup_single,
    fileName, List.append_assoc]

/-- **The parts of a generated path** are the directories that something is written for, and
    the name of the file. -/
theorem parts_render_nested (htext : ∀ f ∈ fields ++ [last], f.conversion = .text) :
    (Path.ofString ((nested fields last).render refs song bypass s)).parts =
      ((nested fields last).directoryNames refs song bypass s fields).map (·.map .char) ++
        [((nested fields last).fileName refs song bypass s last).map .char] := by
  have hslash : ∀ f ∈ fields ++ [last],
      '/' ∉ (nested fields last).rendered refs song bypass s f := fun f hf =>
    slash_not_mem_rendered _ refs song bypass s (Field.ne_bypass_of_text (htext f hf))
  have hdirectories : ∀ name ∈ (nested fields last).directoryNames refs song bypass s fields,
      '/' ∉ name := by
    intro name hname
    obtain ⟨f, hf, rfl⟩ := List.mem_map.1 (List.mem_filter.1 hname).1
    exact hslash f (List.mem_append_left _ hf)
  have hfile : '/' ∉ (nested fields last).fileName refs song bypass s last := by
    rw [fileName, List.mem_append, not_or]
    exact ⟨hslash last (by simp), slash_not_mem_renderExtension⟩
  rw [Path.parts_ofString, toList_render_nested refs song bypass s fun f hf =>
      Field.isNumeric_of_text (htext f (List.mem_append_left _ hf)),
    Path.splitOn_flatMap_append hdirectories hfile, List.map_append]
  rfl

end

/-! ## Its length -/

/-- **A generated path fits just if the name of the file does**, which is what is written for
    the last field with the extension: the directories always do.  A move to a path that fits
    does not fail because a name is too long.  One to a path that does not fit always fails,
    and for that, once there is a directory for it. -/
theorem nested_fits_iff (fields : List Field) (last : Field)
    (htext : ∀ f ∈ fields ++ [last], f.conversion = .text)
    (refs : ReferenceData) (song : Song) (bypass : Option String) (platform : Platform) :
    let s : Sanitizer := { platform }
    let t := nested fields last
    let place := t.render refs song bypass s
    (∃ directories : List Name, (Path.ofString place).parts =
        directories ++ [(t.rendered refs song bypass s last ++ renderExtension song).map .char] ∧
      ∀ name ∈ directories, name.bytes.length ≤ maxNameBytes) ∧
    ((Path.ofString place).Fits ↔ String.utf8Len (t.rendered refs song bypass s last) +
      String.utf8Len (renderExtension song) ≤ maxNameBytes) ∧
    ∀ (files : FileTree) (source musicDir : Path) (l : Location) (c : Content),
      files.find source = .ok (l, .file c) →
        ((Path.ofString place).Fits → musicDir.Fits →
          (Text.encode (resolve musicDir place).symbols).length ≤ maxPathBytes →
          ∀ failure, (organizeFile files source musicDir place).2 = .error failure →
            failure.fault? ≠ some .nameTooLong) ∧
        (¬ (Path.ofString place).Fits →
          (∀ path, (organizeFile files source musicDir place).2 ≠ .ok path) ∧
          ∀ files' spot, createParent files (resolve musicDir place) = (files', .ok ()) →
            files'.follow (resolve musicDir place) = .ok spot →
            ∃ failure, organizeFile files source musicDir place = (files', .error failure) ∧
              failure.fault? = some .nameTooLong) := by
  intro s t place
  have hparts : (Path.ofString place).parts = _ := parts_render_nested refs song bypass s htext
  have hwritten : ∀ f ∈ fields ++ [last],
      String.utf8Len (t.rendered refs song bypass s f) ≤ maxNameBytes := fun f hf =>
    utf8Len_rendered t refs song bypass s (htext f hf)
  -- Each directory is what is written for one field, which is cut to fit.
  have hdirectories : ∀ name ∈ (t.directoryNames refs song bypass s fields).map (·.map .char),
      (Name.bytes name).length ≤ maxNameBytes := by
    rw [List.forall_mem_map]
    intro name hname
    obtain ⟨f, hf, rfl⟩ := List.mem_map.1 (List.mem_filter.1 hname).1
    rw [Name.length_bytes_text]
    exact hwritten f (List.mem_append_left _ hf)
  have hfits : (Path.ofString place).Fits ↔ String.utf8Len (t.rendered refs song bypass s last) +
      String.utf8Len (renderExtension song) ≤ maxNameBytes := by
    rw [Path.Fits, hparts, List.forall_mem_append, and_iff_right hdirectories,
      List.forall_mem_singleton, Name.length_bytes_text, fileName, String.utf8Len_append]
  refine ⟨⟨_, hparts, hdirectories⟩, hfits, fun files source musicDir l c hs => ⟨?_, ?_⟩⟩
  · intro hplace hbase hlength failure hfails
    exact organizeFile_fault hs ⟨hlength, hbase.join hplace⟩ hfails
  · intro hlong
    have hends : (Path.ofString place).parts.getLast? ≠ some [] := by
      rw [hparts, List.getLast?_concat]
      intro hempty
      have hnothing := List.map_eq_nil_iff.1 (Option.some.inj hempty)
      rw [fileName, List.append_eq_nil_iff] at hnothing
      rw [hfits, hnothing.1, hnothing.2] at hlong
      exact hlong (Nat.zero_le _)
    exact ⟨not_organizeFile_ok hs hlong, fun _ _ => organizeFile_tooLong hs hlong hends⟩

/-- A song on an album, with a title of some letters. -/
def longTitle (n : Nat) : Song :=
  ((Song.new "a.mp3" "").set .album "B").set .title (String.ofList (List.replicate n 'a'))

theorem utf8Len_replicate (n : Nat) : String.utf8Len (List.replicate n 'a') = n := by
  induction n with
  | zero => rfl
  | succ n ih =>
    rw [List.replicate_succ, String.utf8Len_cons, ih]
    rfl

theorem rendered_longTitle {n : Nat} (hn : n ≤ maxNameBytes) (t : Template) :
    t.rendered {} (longTitle n) none { platform := .linux } .title = List.replicate n 'a' := by
  have hclean : Sanitizer.IsClean { platform := .linux } (List.replicate n 'a') := by
    refine ⟨fun c hc => ?_, ?_, nofun⟩
    · rw [List.eq_of_mem_replicate hc]
      decide
    · rwa [utf8Len_replicate]
  have hvalue : (t.value {} (longTitle n) none .title).toList = List.replicate n 'a' := by
    change (((some (String.ofList (List.replicate n 'a'))).filter (!·.isEmpty)).getD "").toList = _
    cases n with
    | zero => rfl
    | succ n => simp [Option.filter, List.replicate_succ]
  rw [rendered, hvalue]
  exact hclean.clean_eq

theorem fileName_longTitle {n : Nat} (hn : n ≤ maxNameBytes) (t : Template) :
    t.fileName {} (longTitle n) none { platform := .linux } .title =
      List.replicate n 'a' ++ ".mp3".toList := by
  have hextension : (longTitle n).extension? = some "mp3" := by
    change (Path.ofString "a.mp3").extension?.map Name.shown = _
    decide
  rw [fileName, rendered_longTitle hn, renderExtension, hextension]
  rfl

/-- The place that the song is given. -/
def longPlace (n : Nat) : String :=
  (nested [.album] .title).render {} (longTitle n) none { platform := .linux }

theorem resolve_longPlace {n : Nat} (hn : n ≤ maxNameBytes) :
    resolve (.ofString "/music") (longPlace n) =
      ⟨("/music/B/".toList ++ (List.replicate n 'a' ++ ".mp3".toList)).map .char⟩ := by
  have halbum : (nested [.album] .title).directoryNames {} (longTitle n) none
      { platform := .linux } [.album] = [['B']] := by
    change (nested [.album] .title).directoryNames {} (longTitle 0) none
      { platform := .linux } [.album] = _
    decide
  have hsymbols : (Path.ofString (longPlace n)).symbols = .char 'B' :: Path.slash ::
      (List.replicate n 'a' ++ ".mp3".toList).map .char := by
    rw [Path.ofString, Text.symbolsOf, longPlace, toList_render_nested _ _ _ _ (by decide), halbum,
      fileName_longTitle hn]
    rfl
  have hrelative : (Path.ofString (longPlace n)).isAbsolute = false := by
    rw [Bool.eq_false_iff, ne_eq, Path.isAbsolute_iff, hsymbols]
    simp [Path.slash]
  rw [resolve, Path.join, hrelative, hsymbols]
  rfl

theorem find_twoSongs : twoSongs.find (.ofString "/music/a.mp3") =
    .ok ([.ofString "music", .ofString "a.mp3"], .file (.text "a")) := by
  decide +kernel

/-- With the extension, a name of 251 letters fits. -/
theorem nested_fits_iff_longTitle : (Path.ofString (longPlace 251)).Fits ∧
    ∀ failure, (organizeFile twoSongs (.ofString "/music/a.mp3") (.ofString "/music")
      (longPlace 251)).2 = .error failure → failure.fault? ≠ some .nameTooLong := by
  obtain ⟨-, hfits, hmove⟩ :=
    nested_fits_iff [.album] .title (by decide) {} (longTitle 251) none .linux
  have hplace : (Path.ofString (longPlace 251)).Fits := by
    refine hfits.2 ?_
    rw [rendered_longTitle (by decide), utf8Len_replicate]
    decide
  have hlength : (Text.encode (resolve (.ofString "/music") (longPlace 251)).symbols).length ≤
      maxPathBytes := by
    rw [resolve_longPlace (by decide)]
    decide +kernel
  exact ⟨hplace, (hmove _ _ _ _ _ find_twoSongs).1 hplace (by decide +kernel) hlength⟩

/-- There is a directory for the song, once it is created. -/
theorem leads_longPlace : ∃ files spot,
    createParent twoSongs (resolve (.ofString "/music") (longPlace 252)) = (files, .ok ()) ∧
      files.follow (resolve (.ofString "/music") (longPlace 252)) = .ok spot := by
  rw [resolve_longPlace (by decide)]
  generalize hpath : Path.mk (("/music/B/".toList ++
    (List.replicate 252 'a' ++ ".mp3".toList)).map .char) = path
  have hcreated : (createParent twoSongs path).2 = .ok () := by
    rw [← hpath]
    decide +kernel
  have hleads : ((createParent twoSongs path).1.follow path).isOk := by
    rw [← hpath]
    decide +kernel
  rcases hparent : createParent twoSongs path with ⟨files, result⟩
  rw [hparent] at hcreated hleads
  cases hcreated
  cases hfollow : files.follow path with
  | ok spot => exact ⟨files, spot, rfl, hfollow⟩
  | error fault =>
    rw [hfollow] at hleads
    cases hleads

/-- One of 252 letters does not, and the file is not moved for that. -/
theorem extension_does_not_fit :
    (∃ part ∈ (Path.ofString (longPlace 252)).parts, part.bytes.length = 256) ∧
      ∃ failure, (organizeFile twoSongs (.ofString "/music/a.mp3") (.ofString "/music")
        (longPlace 252)).2 = .error failure ∧ failure.fault? = some .nameTooLong := by
  have htext : ∀ f ∈ [Field.album] ++ [.title], f.conversion = .text := by decide
  have hparts := parts_render_nested {} (longTitle 252) none { platform := .linux } htext
  rw [fileName_longTitle (by decide)] at hparts
  have hpart : ∃ part ∈ (Path.ofString (longPlace 252)).parts, part.bytes.length = 256 := by
    refine ⟨_, hparts ▸ List.mem_concat_self, ?_⟩
    rw [Name.length_bytes_text, String.utf8Len_append, utf8Len_replicate]
    rfl
  have hlong : ¬ (Path.ofString (longPlace 252)).Fits := by
    obtain ⟨part, hpart, hlength⟩ := hpart
    intro hfits
    have hbound := hfits part hpart
    rw [hlength] at hbound
    exact absurd hbound (by decide)
  have hends : (Path.ofString (longPlace 252)).parts.getLast? ≠ some [] := by
    rw [longPlace, hparts, List.getLast?_concat]
    intro hempty
    have hname := (List.append_eq_nil_iff.1 (List.map_eq_nil_iff.1 (Option.some.inj hempty))).2
    exact absurd hname (by decide)
  obtain ⟨files, spot, hparent, hfollow⟩ := leads_longPlace
  obtain ⟨failure, hfails, hfault⟩ :=
    organizeFile_tooLong find_twoSongs hlong hends hparent hfollow
  exact ⟨hpart, failure, congrArg Prod.snd hfails, hfault⟩

end Template

end SongLibrary
