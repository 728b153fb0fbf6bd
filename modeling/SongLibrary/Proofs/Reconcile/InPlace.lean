/-
  Files that are at their places.

  The place of a song ends in the extension of its file, which is read out of the location
  again (`extension?_of_usable`): a name that does not begin with a dot has an extension after
  its last dot, whatever dots stand in the tags before it.  So a song whose file is at its
  place has the same place, and its file is not moved again (`rename_inPlace`).
-/
import SongLibrary.Proofs.Reconcile.Pointing
import SongLibrary.Proofs.Template.Parts

namespace SongLibrary

/-- The extension of a name is what follows its last dot, if something stands before that. -/
theorem Name.extension?_append {stem ext : Name} (hstem : stem ≠ []) (hdot : .char '.' ∉ ext) :
    Name.extension? (stem ++ .char '.' :: ext) = some ext := by
  have hreverse : (stem ++ .char '.' :: ext).reverse = ext.reverse ++ .char '.' :: stem.reverse := by
    simp
  have hloud : ∀ x ∈ ext.reverse, (x != .char '.') = true := by
    intro x hx
    rw [bne_iff_ne]
    rintro rfl
    exact hdot (List.mem_reverse.1 hx)
  obtain ⟨last, front, hfront⟩ := List.exists_cons_of_ne_nil (List.reverse_ne_nil_iff.2 hstem)
  unfold Name.extension?
  rw [hreverse, List.span_eq_takeWhile_dropWhile, List.takeWhile_append_of_pos hloud,
    List.dropWhile_append_of_pos hloud, hfront]
  simp

namespace Reconcile

/-- The file name of a usable place is what stands after its last slash. -/
theorem fileName?_of_usable {relative : String} {front : List (List Char)} {c : Char}
    {rest : List Char} (hparts : relative.toList.splitOn '/' = front ++ [c :: rest]) (hdot : c ≠ '.') :
    (Path.ofString relative).fileName? = some ((c :: rest).map .char) := by
  have hsplit : (Path.ofString relative).parts =
      front.map (·.map .char) ++ [(c :: rest).map .char] := by
    rw [Path.parts_ofString, hparts, List.map_append]
    rfl
  have hup : (c :: rest).map Text.Symbol.char ≠ Name.up := by
    simp [Name.up, hdot]
  rw [Path.fileName?, FileTree.names_of_loud hsplit (isSilent_of_visible hdot rest),
    List.getLast?_concat, Option.filter_some, if_pos (by simpa using hup)]

/-- **The extension at the end of a usable place** is that of its file name. -/
theorem extension?_of_usable {front ext : List Char} (hslash : '/' ∉ ext) (hdot : '.' ∉ ext)
    (h : isUsable (String.ofList (front ++ '.' :: ext))) :
    (Path.ofString (String.ofList (front ++ '.' :: ext))).extension? = some (ext.map .char) := by
  obtain ⟨others, c, rest, hparts, hc⟩ := isUsable_iff.1 h
  have hname := fileName?_of_usable hparts hc
  have hafter : '/' ∉ '.' :: ext := by simpa using hslash
  obtain ⟨before, stem, -, hsplit⟩ := Path.splitOn_append front hafter
  rw [String.toList_ofList, hsplit] at hparts
  have hlast : stem ++ '.' :: ext = c :: rest := by
    simpa using (List.append_inj' hparts rfl).2
  -- The name has a stem, since it does not begin with the dot of the extension.
  have hstem : stem ≠ [] := by
    rintro rfl
    exact hc (List.cons.inj hlast).1.symm
  rw [Path.extension?, hname, Option.bind_some, ← hlast, List.map_append, List.map_cons]
  refine Name.extension?_append (by simpa using hstem) ?_
  simpa using hdot

variable {t : Template} {refs : ReferenceData} {song placed : Song} {bypass : Option String}
  {s : Sanitizer}

/-- What is written for the groups of a template depends on the tags of a song alone. -/
theorem renderGroups_of_tags (h : placed.tags = song.tags) :
    t.renderGroups refs placed bypass s = t.renderGroups refs song bypass s := by
  cases placed
  cases song
  cases h
  rfl

/-- The place of a song keeps the extension of its file. -/
theorem extension?_of_placed (hext : song.extension?.isSome)
    (husable : isUsable (t.render refs song bypass s))
    (huri : placed.uri = t.render refs song bypass s) : placed.extension? = song.extension? := by
  obtain ⟨ext, hext⟩ := Option.isSome_iff_exists.1 hext
  obtain ⟨hslash, hdot⟩ := Song.not_mem_extension hext
  have hrender : t.render refs song bypass s =
      String.ofList (t.renderGroups refs song bypass s ++ '.' :: ext.toList) := by
    rw [Template.render, Template.renderExtension, hext]
  rw [hrender] at husable huri
  rw [Song.extension?, huri, extension?_of_usable hslash hdot husable, Option.map_some, hext]
  exact congrArg some (Text.shownText_symbolsOf ext)

theorem render_of_placed (hext : song.extension?.isSome)
    (husable : isUsable (t.render refs song bypass s))
    (huri : placed.uri = t.render refs song bypass s) (htags : placed.tags = song.tags) :
    t.render refs placed bypass s = t.render refs song bypass s := by
  rw [Template.render, renderGroups_of_tags htags, Template.renderExtension,
    extension?_of_placed hext husable huri, ← Template.renderExtension, ← Template.render]

/-- A file that is at its place is left there. -/
theorem rename_of_place {setup : Setup} (h : setup.placeOf placed bypass = placed.uri)
    (husable : isUsable placed.uri) (w : Services) (r : Run) (path : Path) (force : Bool) :
    r.rename setup w placed path bypass force = (placed, r) := by
  unfold Run.rename
  rw [← Setup.placeOf, h]
  split
  · rfl
  · simp [husable]

/-- **A file at its place is never moved again.**  If the place of a song is usable, then the
    place of a record with its tags that points there is the same, and moving the record's
    file to its place does nothing: record, files and counters stay as they are. -/
theorem rename_inPlace (t : Template) (refs : ReferenceData) (song : Song) (bypass : Option String)
    (s : Sanitizer) (hext : song.extension?.isSome) (husable : isUsable (t.render refs song bypass s))
    (placed : Song) (huri : placed.uri = t.render refs song bypass s)
    (htags : placed.tags = song.tags) :
    t.render refs placed bypass s = placed.uri ∧
    ∀ (setup : Setup) (w : Services) (r : Run) (path : Path) (force : Bool),
      setup.template = t → setup.refs = refs → setup.sanitizer = s →
      r.rename setup w placed path bypass force = (placed, r) := by
  have hplace : t.render refs placed bypass s = placed.uri :=
    (render_of_placed hext husable huri htags).trans huri.symm
  refine ⟨hplace, ?_⟩
  rintro setup w r path force rfl rfl rfl
  exact rename_of_place hplace (huri ▸ husable) w r path force

/-- A song with dots in its title, in a file whose name has some as well. -/
def dotted : Song :=
  (Song.new "in/..a.b.mp3" "2020-01-01").set .title "Vol. 2..x"

/-- The file is at its place after one move. -/
theorem rename_inPlace_dotted :
    let setup := sampleSetup .reorganize
    setup.placeOf dotted none = "Vol. 2..x.mp3" ∧
      setup.placeOf { dotted with uri := "Vol. 2..x.mp3" } none = "Vol. 2..x.mp3" ∧
      (Run.new setup sampleFiles).rename setup sampleServices { dotted with uri := "Vol. 2..x.mp3" }
          (.ofString "/music/Vol. 2..x.mp3") none true =
        ({ dotted with uri := "Vol. 2..x.mp3" }, Run.new setup sampleFiles) := by
  intro setup
  have hplace : setup.placeOf dotted none = "Vol. 2..x.mp3" := by decide +kernel
  have husable : isUsable (setup.placeOf dotted none) := by rw [hplace]; decide
  obtain ⟨hstays, hrename⟩ := rename_inPlace setup.template setup.refs dotted none setup.sanitizer
    (by decide +kernel) husable { dotted with uri := "Vol. 2..x.mp3" } hplace.symm rfl
  exact ⟨hplace, hstays, hrename setup sampleServices _ _ true rfl rfl rfl⟩

end Reconcile

end SongLibrary
