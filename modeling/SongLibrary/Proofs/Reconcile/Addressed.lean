/-
  Libraries whose records are at locations of their own.

  * `Setup.Addressed` says what such a library is: files have paths that are text, seen
    from the root, so that the key of a file leads back to it (`Addressed.place_keyOf`);
  * `Setup.Avoids` says that a move takes the place of no record that stays where it is;
  * a property that a run keeps as long as it makes such moves alone is one of every such
    run (`Books.Invariant.avoiding`).
-/
import SongLibrary.Proofs.Keys
import SongLibrary.Proofs.Reconcile.Places

namespace SongLibrary.Reconcile

variable {s : Setup} {w : Services} {files : FileTree} {b b' : Books}

/-! ## Locations -/

/-- A library whose records are at locations of their own, and whose files have paths that
    are text and begin at the root. -/
structure Setup.Addressed (s : Setup) (files : FileTree) : Prop where
  wellFormed : files.WellFormed
  listed : files.Listed
  musicDir : s.musicDir.isAbsolute
  root : s.root.isAbsolute
  text : ∀ p ∈ s.scanned files, p.IsText
  distinct : (s.rows files).Pairwise (·.uri ≠ ·.uri)
  /-- No earlier run has left rows where the new table is written. -/
  leftover : s.mode.isDestructive → s.leftover files = []

/-- **The key of a file leads to its place.** -/
theorem Setup.Addressed.place_keyOf {p : Path} (h : s.Addressed files) (hp : p ∈ s.scanned files) :
    s.place files (keyOf s.musicDir p) = files.destination p := by
  have habsolute : p.isAbsolute := by
    rcases List.mem_append.1 hp with hp | hp
    · exact isAbsolute_of_mem_walk h.listed h.musicDir hp
    · exact isAbsolute_of_mem_walk h.listed h.root hp
  exact FileTree.destination_of_sameAs (sameAs_resolve_keyOf h.musicDir habsolute (h.text p hp))

/-! ## Moves -/

/-- The records that a run keeps or looks up: a rebuild takes no notice of them. -/
def Setup.known (s : Setup) (files : FileTree) : List Row :=
  if s.mode = .rebuild then [] else s.rows files

theorem Setup.mem_of_mem_known {row : Row} (h : row ∈ s.known files) : row ∈ s.rows files := by
  unfold known at h
  split at h
  · cases h
  · exact h

/-- A row with the id and the location of a record. -/
def IsKnown (s : Setup) (files : FileTree) (row : Row) : Prop :=
  ∃ old ∈ s.known files, row.id = old.id ∧ row.uri = old.uri

/-- Records are at locations of their own, and so are rows with their locations. -/
theorem Setup.Addressed.id_eq {row row' : Row} (h : s.Addressed files) (hrow : IsKnown s files row)
    (hrow' : IsKnown s files row') (huri : row.uri = row'.uri) : row.id = row'.id := by
  obtain ⟨old, hold, hid, hsame⟩ := hrow
  obtain ⟨old', hold', hid', hsame'⟩ := hrow'
  have hnodup : ((s.rows files).map Row.uri).Nodup := List.pairwise_map.2 h.distinct
  have heq := List.inj_on_of_nodup_map hnodup (Setup.mem_of_mem_known hold)
    (Setup.mem_of_mem_known hold') (by rw [← hsame, huri, hsame'])
  rw [hid, hid', heq]

/-- A move to a path that leads directly to its end, which is not the place of a record
    whose file is missing.  No such file is moved, and where files are added, none is
    moved to the place of any record. -/
structure Setup.Avoids (s : Setup) (files : FileTree) (move : Path × Path) : Prop where
  leads : files.Leads move.2
  taken : ∀ row ∈ s.known files, s.mode = .checkNew ∨ ¬ files.HasFile (s.place files row.uri) →
    files.destination move.2 ≠ s.place files row.uri
  left : ∀ row ∈ s.known files, ¬ files.HasFile (s.place files row.uri) →
    files.destination move.1 ≠ s.place files row.uri

instance (s : Setup) (files : FileTree) (move : Path × Path) : Decidable (s.Avoids files move) :=
  decidable_of_iff (files.Leads move.2 ∧
      (∀ row ∈ s.known files, s.mode = .checkNew ∨ ¬ files.HasFile (s.place files row.uri) →
        files.destination move.2 ≠ s.place files row.uri) ∧
      ∀ row ∈ s.known files, ¬ files.HasFile (s.place files row.uri) →
        files.destination move.1 ≠ s.place files row.uri)
    ⟨fun ⟨leads, taken, left⟩ => ⟨leads, taken, left⟩, fun h => ⟨h.leads, h.taken, h.left⟩⟩

namespace Books

/-- Moving a file changes the location of its record alone. -/
theorem Moves.cases_uri {song song' : Song} {path : Path} (h : Moves s b song path (song', b')) :
    song' = song ∧ b'.moves = b.moves ∨ ∃ relative, song' = { song with uri := relative } ∧
      b'.moves = (path, resolve s.musicDir relative) :: b.moves := by
  cases h with
  | stays => exact .inl ⟨rfl, rfl⟩
  | failed _ => exact .inl ⟨rfl, rfl⟩
  | @moved _ relative place _ hmove =>
    obtain rfl := organizeFile_place hmove
    exact .inr ⟨relative, rfl, rfl⟩

/-- **A property that a run keeps as long as its moves avoid the places of records** is
    one of every such run. -/
theorem Invariant.avoiding {I : Books → Prop}
    (begin : ∀ {b : Books} {source : Option Source}, Ready s files b → Begins s b source →
      I { b with source })
    (stop : ∀ {b : Books}, I b → I { b with source := none })
    (settle : ∀ {b b' : Books} {c : Candidate} {source : Source}, I b → Takes s b c source →
      Settles s { b with source := some source } c b' → I b')
    (work : ∀ {b b' : Books} {job : Job} {jobs : List Job}, I b → b.jobs = job :: jobs →
      Works s w { b with jobs } job b' → (∀ move ∈ b'.moves, s.Avoids files move) → I b') :
    Invariant s w files fun b => (∀ move ∈ b.moves, s.Avoids files move) → I b where
  begin h hbegins _ := begin h hbegins
  stop h havoids := stop (h havoids)
  settle h htakes hsettles havoids := by
    rw [hsettles.moves] at havoids
    exact settle (h havoids) htakes hsettles
  work h hjobs hworks _ havoids :=
    work (h fun move hmove => havoids move (hworks.moves_subset hmove)) hjobs hworks havoids

end Books

end SongLibrary.Reconcile
