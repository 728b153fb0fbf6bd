/-
  A record and its file, when the file is to be moved.

  Moving a file points its record at the new place.  If the move fails, or is not
  even tried, the record stays as it is and so has to stay the file.

  * `Pointed` is what a move does with the record and the files, and the counter
    that tells so (`rename_pointed`);
  * `Paired` says that record and file are still together;
  * `rename_in_step` says when it does, which is for every way that does not lead
    through `..` and is not too long;
  * `rename_loses_step` is a library whose own path leads back out of a directory
    that the move leaves empty.
-/
import SongLibrary.Proofs.FileTree.Spelling
import SongLibrary.Proofs.Organize
import SongLibrary.Proofs.PlainKey
import SongLibrary.Proofs.Reconcile.Distinct
import SongLibrary.Proofs.Reconcile.Outcomes

namespace SongLibrary

open FileTree

/-! ## Places that name a file -/

namespace Reconcile

/-- A usable place ends in a part that does not begin with a dot. -/
theorem isUsable_iff {relative : String} : isUsable relative ↔
    ∃ front c rest, relative.toList.splitOn '/' = front ++ [c :: rest] ∧ c ≠ '.' := by
  unfold isUsable
  constructor
  · intro h
    split at h
    · cases h
    · cases h
    · next c rest hlast =>
      obtain ⟨front, hfront⟩ := List.getLast?_eq_some_iff.1 hlast
      exact ⟨front, c, rest, hfront, by simpa using h⟩
  · rintro ⟨front, c, rest, hparts, hdot⟩
    simp [hparts, hdot]

theorem isSilent_of_visible {c : Char} (hdot : c ≠ '.') (rest : List Char) :
    Name.isSilent ((c :: rest).map .char) = false := by
  simp [Name.isSilent, Name.here, hdot]

/-- A usable place ends in a name. -/
theorem exists_last_of_usable {relative : String} (h : isUsable relative) (musicDir : Path) :
    ∃ front last, (resolve musicDir relative).parts = front ++ [last] ∧ last.isSilent = false ∧
      ∃ c, Text.Symbol.char c ∈ last := by
  obtain ⟨base, hjoin⟩ := musicDir.exists_parts_join (.ofString relative)
  obtain ⟨front, c, rest, hparts, hdot⟩ := isUsable_iff.1 h
  rw [Path.parts_ofString, hparts] at hjoin
  refine ⟨base ++ front.map (·.map .char), (c :: rest).map .char, ?_,
    isSilent_of_visible hdot rest, c, by simp⟩
  rw [resolve, hjoin, List.map_append, List.append_assoc]
  rfl

theorem isEmpty_of_usable {relative : String} (h : isUsable relative) :
    relative.isEmpty = false := by
  rw [String.isEmpty_eq_false_iff]
  rintro rfl
  revert h
  decide

/-- A file is found at a usable place, if that is its path in another spelling. -/
theorem find_of_usable {t : FileTree} {path musicDir : Path} {l : Location} {c : Content}
    {relative : String} (husable : isUsable relative)
    (hsame : (resolve musicDir relative).sameAs path)
    (hlength : (Text.encode (resolve musicDir relative).symbols).length ≤ maxPathBytes)
    (h : t.find path = .ok (l, .file c)) :
    t.find (resolve musicDir relative) = .ok (l, .file c) := by
  obtain ⟨front, last, hparts, hloud, x, hx⟩ := exists_last_of_usable husable musicDir
  have hmem : Text.Symbol.char x ∈ (resolve musicDir relative).symbols := by
    have hlast : last ∈ (resolve musicDir relative).parts := by rw [hparts]; simp
    exact Path.subset_of_mem_splitOn hlast hx
  refine find_of_sameAs hsame hparts hloud ?_ hlength h
  rw [List.isEmpty_eq_false_iff, Text.encode, ne_eq, List.flatMap_eq_nil_iff]
  intro hnone
  have hbytes := congrArg List.length (hnone _ hmem)
  rw [Text.Symbol.bytes, String.length_utf8EncodeChar] at hbytes
  exact absurd hbytes x.utf8Size_pos.ne'

/-! ## What a move does -/

/-- The place that the template gives a song. -/
def Setup.placeOf (s : Setup) (song : Song) (bypass : Option String) : String :=
  s.template.render s.refs song bypass s.sanitizer

/-- A move is wanted: the record does not ask that its file stay, or that is
    overridden, and the place names no file or is another than the record has. -/
def Setup.WantsMove (s : Setup) (song : Song) (bypass : Option String) (force : Bool) : Prop :=
  (song.preventRename = false ∨ force = true) ∧
    (isUsable (s.placeOf song bypass) = false ∨ s.placeOf song bypass ≠ song.uri)

variable (s : Setup) (w : Services) (r : Run)

/-- What a move does with a record and the files, and what counts it. -/
inductive Pointed (song : Song) (path : Path) (bypass : Option String) (force : Bool) :
    Option Counter → Song → FileTree → Prop where
  | unwanted (h : ¬ s.WantsMove song bypass force) : Pointed song path bypass force none song r.files
  | unusable (h : s.WantsMove song bypass force) (hplace : isUsable (s.placeOf song bypass) = false) :
      Pointed song path bypass force (some .bad) song r.files
  | failed {files : FileTree} {failure : Failure} (h : s.WantsMove song bypass force)
      (hplace : isUsable (s.placeOf song bypass))
      (hmove : w.move r.moment r.files path s.musicDir (s.placeOf song bypass) =
        (files, .error failure)) :
      Pointed song path bypass force (some .renameFailed) song files
  | moved {files : FileTree} {place : Path} (h : s.WantsMove song bypass force)
      (hplace : isUsable (s.placeOf song bypass)) (hne : s.placeOf song bypass ≠ song.uri)
      (hmove : w.move r.moment r.files path s.musicDir (s.placeOf song bypass) =
        (files, .ok place)) :
      Pointed song path bypass force (some .renamed) { song with uri := s.placeOf song bypass }
        files

/-- The counters after one of them, if any, has gone up. -/
def Counters.counting (counters : Counters) (counted : Option Counter) : Counters :=
  counted.elim counters counters.increment

theorem rename_pointed (song : Song) (path : Path) (bypass : Option String) (force : Bool)
    {song' : Song} {r' : Run} (h : r.rename s w song path bypass force = (song', r')) :
    ∃ counted, Pointed s w r song path bypass force counted song' r'.files ∧
      r'.counters = r.counters.counting counted := by
  unfold Run.rename at h
  -- A move is not tried if it is prevented, its place is unusable, or the file is there.
  split at h
  · next hprevented =>
    cases h
    refine ⟨none, .unwanted fun hwants => ?_, rfl⟩
    rcases hwants.1 with hwants | hwants <;> simp [hwants] at hprevented
  · next hallowed =>
    replace hallowed : song.preventRename = false ∨ force = true := by
      cases hforce : force <;> simp_all
    rw [← Setup.placeOf] at h
    dsimp only at h
    split at h
    · next hplace =>
      cases h
      replace hplace : isUsable (s.placeOf song bypass) = false := by simpa using hplace
      exact ⟨some .bad, .unusable ⟨hallowed, .inl hplace⟩ hplace, rfl⟩
    · next hplace =>
      replace hplace : isUsable (s.placeOf song bypass) := by simpa using hplace
      split at h
      · next hthere =>
        cases h
        refine ⟨none, .unwanted fun hwants => ?_, rfl⟩
        rcases hwants.2 with hwants | hwants
        · rw [hplace] at hwants
          cases hwants
        · exact hwants hthere
      · next hne =>
        have hwants : s.WantsMove song bypass force := ⟨hallowed, .inr hne⟩
        split at h
        · next files place hmove =>
          cases h
          exact ⟨some .renamed, .moved hwants hplace hne hmove, rfl⟩
        · next files failure hmove =>
          cases h
          exact ⟨some .renameFailed, .failed hwants hplace hmove, rfl⟩

/-! ## The record and the file -/

/-- A record and its file are together: the record is as it was and the file where it was, or
    only the location of the record is another, and the content of the file is there. -/
inductive Paired (musicDir path : Path) (l : Location) (c : Content) (song : Song) :
    Song → FileTree → Prop where
  | stays {t : FileTree} (h : t.find path = .ok (l, .file c)) : Paired musicDir path l c song song t
  | follows {t : FileTree} {relative : String} (hne : relative ≠ song.uri)
      (h : t.read (resolve musicDir relative) = .ok c) :
      Paired musicDir path l c song { song with uri := relative } t

/-- A record that points to another place leads to the content of its file there. -/
theorem Paired.reads {musicDir path : Path} {l : Location} {c : Content} {song song' : Song}
    {t : FileTree} (h : Paired musicDir path l c song song' t) (hne : song'.uri ≠ song.uri) :
    t.read (resolve musicDir song'.uri) = .ok c := by
  cases h with
  | stays _ => exact absurd rfl hne
  | follows _ h => exact h

variable {s w r} {song : Song} {path : Path} {bypass : Option String} {force : Bool}
  {l : Location} {c : Content}

/-- A record points to another place only if its file has been moved, which is counted. -/
theorem Pointed.counted {counted : Option Counter} {song' : Song} {t : FileTree}
    (h : Pointed s w r song path bypass force counted song' t) :
    (counted = some .renamed ↔ song'.uri ≠ song.uri) ∧
      (counted ∈ [some .renamed, some .renameFailed, some .bad] ↔ s.WantsMove song bypass force) ∧
      (counted = none ↔ ¬ s.WantsMove song bypass force) := by
  cases h with
  | unwanted h => simp [h]
  | unusable h _ => simp [h]
  | failed h _ _ => simp [h]
  | moved h _ hne _ => simp [h, hne]

/-- What keeps a record from following its file: the place is the file itself in a spelling
    under which it cannot be read, or the way there is cut off by the clean-up. -/
theorem Pointed.paired_iff (hw : ∀ moment, w.move moment = organizeFile)
    (hs : r.files.find path = .ok (l, .file c)) {counted : Option Counter} {song' : Song}
    {t : FileTree} (h : Pointed s w r song path bypass force counted song' t) :
    Paired s.musicDir path l c song song' t ↔
      (s.WantsMove song bypass force → isUsable (s.placeOf song bypass) →
        ¬ Misspelt r.files path (resolve s.musicDir (s.placeOf song bypass)) c ∧
          ¬ CutsOff r.files path (resolve s.musicDir (s.placeOf song bypass)) s.musicDir) := by
  cases h with
  | unwanted h => exact iff_of_true (.stays hs) fun hwants => absurd hwants h
  | unusable _ hplace =>
    refine iff_of_true (.stays hs) fun _ husable => ?_
    rw [hplace] at husable
    cases husable
  | failed _ hplace hmove =>
    rw [hw] at hmove
    obtain ⟨hfind, hreads⟩ := organizeFile_stays hs (isEmpty_of_usable hplace) hmove
    exact iff_of_true (.stays hfind) fun _ _ => hreads
  | moved hwants hplace hne hmove =>
    rw [hw] at hmove
    have hread := organizeFile_read hs hmove
    constructor
    · exact fun hstep _ _ => hread.1 (hstep.reads hne)
    · exact fun hclear => .follows hne (hread.2 (hclear hwants hplace))

/-- **Record and file stay in step** when a file is to be moved, unless the new place is the
    file itself in a spelling that is too long, or the move removes a directory that the way
    there leads through.  Neither happens on a short way without `..`.  What is counted is
    one of three counters if a move is wanted, and it is `renamed` just if the record points
    to another place. -/
theorem rename_in_step (hw : ∀ moment, w.move moment = organizeFile)
    (hs : r.files.find path = .ok (l, .file c)) {song' : Song} {r' : Run}
    (h : r.rename s w song path bypass force = (song', r')) :
    (Paired s.musicDir path l c song song' r'.files ↔
      (s.WantsMove song bypass force → isUsable (s.placeOf song bypass) →
        ¬ Misspelt r.files path (resolve s.musicDir (s.placeOf song bypass)) c ∧
          ¬ CutsOff r.files path (resolve s.musicDir (s.placeOf song bypass)) s.musicDir)) ∧
      (Name.up ∉ (resolve s.musicDir (s.placeOf song bypass)).names →
        (Text.encode (resolve s.musicDir (s.placeOf song bypass)).symbols).length ≤ maxPathBytes →
        Paired s.musicDir path l c song song' r'.files) ∧
      ∃ counted, r'.counters = r.counters.counting counted ∧
        (counted = some .renamed ↔ song'.uri ≠ song.uri) ∧
        (counted ∈ [some .renamed, some .renameFailed, some .bad] ↔ s.WantsMove song bypass force) ∧
        (counted = none ↔ ¬ s.WantsMove song bypass force) := by
  obtain ⟨counted, hpointed, hcounters⟩ := rename_pointed s w r song path bypass force h
  have hiff := hpointed.paired_iff hw hs
  refine ⟨hiff, fun hup hlength => hiff.2 fun _ hplace => ⟨?_, ?_⟩, counted, hcounters,
    hpointed.counted⟩
  · rintro ⟨hsame, hread⟩
    have hfind := find_of_usable hplace hsame hlength hs
    exact hread (by simp [FileTree.read, hfind])
  · exact not_cutsOff_of_direct hs (isDirect_of_plain hup)

/-- A song is moved to its title, and read there. -/
theorem rename_in_step_sample : ∃ (song' : Song) (r' : Run),
    (Run.new (sampleSetup .reorganize) sampleFiles).rename (sampleSetup .reorganize) sampleServices
      (titled "a.mp3") (.ofString "/music/a.mp3") none true = (song', r') ∧
    (∀ moment, sampleServices.move moment = organizeFile) ∧
    sampleFiles.find (.ofString "/music/a.mp3") =
      .ok ([.ofString "music", .ofString "a.mp3"], .file (.text "a song")) ∧
    song'.uri = "t.mp3" ∧ r'.counters.nonZero = [(.renamed, 1)] ∧
    Paired (.ofString "/music") (.ofString "/music/a.mp3") [.ofString "music", .ofString "a.mp3"]
      (.text "a song") (titled "a.mp3") song' r'.files := by
  have hfind : sampleFiles.find (.ofString "/music/a.mp3") =
      .ok ([.ofString "music", .ofString "a.mp3"], .file (.text "a song")) := by decide +kernel
  refine ⟨_, _, Prod.ext rfl rfl, fun _ => rfl, hfind, by decide +kernel, by decide +kernel, ?_⟩
  exact (@rename_in_step (sampleSetup .reorganize) sampleServices
    (.new (sampleSetup .reorganize) sampleFiles) _ _ none true _ _ (fun _ => rfl) hfind _ _
    (Prod.ext rfl rfl)).2.1 (by decide +kernel) (by decide +kernel)

/-- A library in `/music`, whose path leads back out of a directory. -/
def roundaboutSetup : Setup :=
  .of { library := { orgPath := "%TITLE%", autoOrganize := true } } .reorganize
    (.ofString "/music/x/..") (.ofString "/songs.db") none .linux

/-- A library of one file, in that directory. -/
def roundaboutFiles : FileTree where
  entries :=
    [([.ofString "music"], .directory),
      ([.ofString "music", .ofString "x"], .directory),
      ([.ofString "music", .ofString "x", .ofString "a.mp3"], .file (.text "a song"))]

/-- **A record can lose its file**: the move leaves the directory empty that the path of the
    library leads through, so it is removed, and nothing is read under that path any more. -/
theorem rename_loses_step : ∃ (song' : Song) (r' : Run),
    (Run.new roundaboutSetup roundaboutFiles).rename roundaboutSetup sampleServices
      (titled "x/a.mp3") (resolve roundaboutSetup.musicDir "x/a.mp3") none true = (song', r') ∧
    roundaboutFiles.find (resolve roundaboutSetup.musicDir "x/a.mp3") =
      .ok ([.ofString "music", .ofString "x", .ofString "a.mp3"], .file (.text "a song")) ∧
    roundaboutSetup.placeOf (titled "x/a.mp3") none = "t.mp3" ∧
    song'.uri = "t.mp3" ∧ r'.counters.nonZero = [(.renamed, 1)] ∧
    ¬ Paired roundaboutSetup.musicDir (resolve roundaboutSetup.musicDir "x/a.mp3")
      [.ofString "music", .ofString "x", .ofString "a.mp3"] (.text "a song") (titled "x/a.mp3")
      song' r'.files := by
  refine ⟨_, _, Prod.ext rfl rfl, by decide +kernel, by decide +kernel, by decide +kernel,
    by decide +kernel, ?_⟩
  intro h
  exact absurd (h.reads (by decide +kernel)) (by decide +kernel)

end Reconcile

end SongLibrary
