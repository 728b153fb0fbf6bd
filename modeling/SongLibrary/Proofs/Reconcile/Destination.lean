/-
  Where files are moved to.

  A file is moved to the path of its song, seen from the music directory (`Destined`).
  `destination_within` says when that is inside the music directory: the template's
  literal text is as it stands, but a placeholder may write nothing, or dots, and so make
  a path of a tidy template lead elsewhere (`destination_outside`).
-/
import SongLibrary.Proofs.Organize
import SongLibrary.Proofs.Reconcile.Outcomes
import SongLibrary.Proofs.Template.Parts

namespace SongLibrary

namespace Reconcile

/-- A file has been moved to the place of a song: by itself, or in a run. -/
inductive Destined (s : Setup) (song : Song) (bypass : Option String) (place : Path) : Prop where
  | alone {t t' : FileTree} {source : Path}
      (h : organizeFile t source s.musicDir
        (s.template.render s.refs song bypass s.sanitizer) = (t', .ok place))
  | renamed {w : Services} {r : Run} {path : Path} {force : Bool} (hw : ∀ n, w.move n = organizeFile)
      (h : (r.rename s w song path bypass force).2.history.moves = (path, place) :: r.history.moves)

variable {s : Setup} {song : Song} {bypass : Option String} {place : Path}

/-- **A file is moved to the path of its song, seen from the music directory.** -/
theorem Destined.place_eq (h : Destined s song bypass place) :
    place = s.musicDir.join (.ofString (s.template.render s.refs song bypass s.sanitizer)) := by
  cases h with
  | alone h => exact organizeFile_place h
  | @renamed w r path force hw h =>
    have hstays : r.history.moves ≠ (path, place) :: r.history.moves := fun heq => by
      simpa using congrArg List.length heq
    unfold Run.rename at h
    split at h
    · exact absurd h hstays
    · dsimp only at h
      split at h
      · exact absurd h hstays
      · split at h
        · exact absurd h hstays
        · split at h
          · next files place' hmove =>
            rw [hw] at hmove
            obtain ⟨rfl, -⟩ : place' = place ∧ True := by simpa [Run.count] using h
            exact organizeFile_place hmove
          · exact absurd h hstays

/-- **Where a file is moved**: to the path of its song, seen from the music directory.
    This has no root and no `..`, and so is inside the music directory, just if something
    is written before the first slash and `..` is written between no two slashes.  That is
    so for every tidy template whose placeholders all write something besides dots. -/
theorem destination_within (hbypass : s.template.mentions .bypass = false)
    (h : Destined s song bypass place) :
    place = s.musicDir.join (.ofString (s.template.render s.refs song bypass s.sanitizer)) ∧
      ((Path.ofString (s.template.render s.refs song bypass s.sanitizer)).StaysBelow ↔
        ¬ s.template.IsRooted s.refs song bypass s.sanitizer ∧
          ¬ s.template.Climbs s.refs song bypass s.sanitizer) ∧
      ((Path.ofString (s.template.render s.refs song bypass s.sanitizer)).StaysBelow →
        place.IsWithin s.musicDir) ∧
      (s.template.IsTidy → s.template.IsFilled s.refs song bypass s.sanitizer →
        place.IsWithin s.musicDir) := by
  have hwithin : (Path.ofString (s.template.render s.refs song bypass s.sanitizer)).StaysBelow →
      place.IsWithin s.musicDir := fun hbelow => h.place_eq ▸ hbelow.isWithin s.musicDir
  exact ⟨h.place_eq, Template.staysBelow_render_iff hbypass, hwithin,
    fun ht hf => hwithin (ht.staysBelow_render hbypass hf)⟩

/-- A library whose files are moved to their titles, below those of artist and album. -/
def shelvedSetup : Setup :=
  { sampleSetup .reorganize with template := .compile "Music/%ARTIST%/%ALBUM%/%TITLE%" }

/-- A song of `/music/a.mp3` with an artist and an album. -/
def shelvedSong (artist album : String) : Song :=
  { Song.new "a.mp3" "2020-01-01" with
    tags := .ofList [(.artist, artist), (.album, album), (.title, "t")] }

/-- The file of the sample library may be moved to the place of a song. -/
theorem sample_destined {song : Song} {place : Path}
    (h : (organizeFile sampleFiles (.ofString "/music/a.mp3") shelvedSetup.musicDir
      (shelvedSetup.template.render shelvedSetup.refs song none shelvedSetup.sanitizer)).2 =
        .ok place) : Destined shelvedSetup song none place :=
  .alone (Prod.ext rfl h)

/-- An artist may have a dot at its end. -/
theorem destination_within_sample :
    ∃ place, Destined shelvedSetup (shelvedSong "x." "y") none place ∧
      place = .ofString "/music/Music/x./y/t.mp3" ∧ place.IsWithin shelvedSetup.musicDir := by
  have h : Destined shelvedSetup (shelvedSong "x." "y") none
      (.ofString "/music/Music/x./y/t.mp3") :=
    sample_destined (by decide +kernel)
  exact ⟨_, h, rfl, (destination_within (by decide +kernel) h).2.2.2 (by decide +kernel)
    (by decide +kernel)⟩

/-- **An artist and an album named `..` make a file leave the music directory**, though
    the template is tidy. -/
theorem destination_outside :
    shelvedSetup.template.mentions .bypass = false ∧ shelvedSetup.template.IsTidy ∧
      ∃ place, Destined shelvedSetup (shelvedSong ".." "..") none place ∧
        ¬ (Path.ofString (shelvedSetup.template.render shelvedSetup.refs (shelvedSong ".." "..") none
          shelvedSetup.sanitizer)).StaysBelow ∧
        ¬ place.IsWithin shelvedSetup.musicDir ∧
        sampleFiles.destination place = [.ofString "t.mp3"] := by
  have h : Destined shelvedSetup (shelvedSong ".." "..") none
      (.ofString "/music/Music/../../t.mp3") :=
    sample_destined (by decide +kernel)
  exact ⟨by decide +kernel, by decide +kernel, _, h, by decide +kernel, by decide +kernel,
    by decide +kernel⟩

end Reconcile

end SongLibrary
