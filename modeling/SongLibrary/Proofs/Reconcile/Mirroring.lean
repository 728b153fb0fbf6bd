/-
  Jobs for new files in trees that differ at the tables.

  A job for a file without a record comes to the same in trees that are the same elsewhere,
  as long as moving its file does (`Run.updateFromFile_refiles`).  `Run.Mirrors` compares a
  rebuild with a run that adds new files in this way: the jobs done one after the other leave
  them as they were to each other (`Run.Mirrors.performAll`).
-/
import SongLibrary.Proofs.FileTree.Blocked
import SongLibrary.Proofs.Reconcile.Concluding
import SongLibrary.Proofs.Reconcile.Previewing

namespace SongLibrary.Reconcile

open FileTree (SameElsewhere)

namespace Setup

variable (s : Setup) (w : Services) (t : FileTree)

/-- The same for a run that adds new files. -/
abbrev adding : Setup :=
  { s with mode := .checkNew }

/-- Where a job for a file without a record tries to move the file, by the tags that it has
    in a tree. -/
def goal? (job : Job) : Option Path :=
  match (t.read job.path).toOption.bind fun content => (w.readTags 0 job.path content).toOption with
  | none => none
  | some parsed =>
    let relative := s.template.render s.refs (s.readSong job "" parsed.tags)
      (s.bypass? job.relative) s.sanitizer
    if s.autoOrganize && !parsed.isEmpty && isUsable relative && relative != job.key then
      some (resolve s.musicDir relative)
    else none

variable {s w t} in
theorem goal?_eq (hw : w.Steady) (n : Nat) {job : Job} {content : Content} {parsed : ParsedTags}
    (hread : t.read job.path = .ok content)
    (hparsed : (w.readTags n job.path content).toOption = some parsed) :
    s.goal? w t job =
      let relative := s.template.render s.refs (s.readSong job "" parsed.tags)
        (s.bypass? job.relative) s.sanitizer
      if s.autoOrganize && !parsed.isEmpty && isUsable relative && relative != job.key then
        some (resolve s.musicDir relative)
      else none := by
  have hread' : (t.read job.path).toOption = some content := by rw [hread]; rfl
  rw [goal?, hread', Option.bind_some, hw.reads 0 n, hparsed]

end Setup

namespace Run

variable {s : Setup} {w : Services} {P : FileTree → FileTree → Prop} {t' : FileTree} {r r' : Run}
  {job : Job}

/-! ## Other files -/

/-- Other files are nothing to storing a song. -/
theorem storeIn_refiles (song : Song) :
    ({ r with files := t' } : Run).storeIn w song =
      (r.storeIn w song).map fun q => { q with files := t' } := by
  unfold storeIn addToTarget saveToPrimary
  dsimp only [asked]
  cases w.tableFails r.moment with
  | true => rfl
  | false =>
    cases r.target with
    | some target => cases hinsert : target.table.insert? song <;> simp [hinsert]
    | none =>
      cases r.primary with
      | none => rfl
      | some primary => cases hsave : primary.table.save? song <;> simp [hsave]

theorem assignId_refiles (song : Song) :
    ({ r with files := t' } : Run).assignId song =
      ((r.assignId song).1, { (r.assignId song).2 with files := t' }) := by
  unfold assignId
  dsimp only
  split <;> rfl

theorem store_refiles (song : Song) (existed : Bool) :
    ({ r with files := t' } : Run).store w song existed =
      { r.store w song existed with files := t' } := by
  obtain ⟨given, r₁, hgiven, hgiven'⟩ : ∃ given r₁,
      (if r.target.isSome then r.assignId song else (song, r)) = (given, r₁) ∧
      (if r.target.isSome then ({ r with files := t' } : Run).assignId song
        else (song, { r with files := t' })) = (given, { r₁ with files := t' }) := by
    split
    · exact ⟨_, _, rfl, assignId_refiles song⟩
    · exact ⟨_, _, rfl, rfl⟩
  unfold store
  dsimp only
  rw [hgiven, hgiven']
  dsimp only
  rw [storeIn_refiles]
  cases r₁.storeIn w given <;> rfl

/-- A file is moved to the same place in both trees, or in neither, and they stay alike. -/
def MovesAlike (P : FileTree → FileTree → Prop) (t t' : FileTree) (source musicDir : Path)
    (relative : String) : Prop :=
  P (organizeFile t source musicDir relative).1 (organizeFile t' source musicDir relative).1 ∧
    (organizeFile t' source musicDir relative).2.toOption =
      (organizeFile t source musicDir relative).2.toOption

/-- Moving the file of a song comes to the same in trees that are alike, if `organizeFile`
    does. -/
theorem rename_refiles (hw : w.Reliable) (h : P r.files t') {song : Song}
    (hfree : song.preventRename = false) (path : Path) (bypass : Option String)
    (hmoves : ∀ relative, s.template.render s.refs song bypass s.sanitizer = relative →
      isUsable relative → relative ≠ song.uri →
      MovesAlike P r.files t' path s.musicDir relative) :
    ∃ (song' : Song) (q : Run) (t₁ t₁' : FileTree),
      r.rename s w song path bypass false = (song', { q with files := t₁ }) ∧
      ({ r with files := t' } : Run).rename s w song path bypass false =
        (song', { q with files := t₁' }) ∧ P t₁ t₁' := by
  unfold rename
  dsimp only
  rw [hfree, Bool.false_and, if_neg Bool.false_ne_true, if_neg Bool.false_ne_true]
  split
  · exact ⟨song, r.count .bad, r.files, t', rfl, rfl, h⟩
  · next husable =>
    split
    · exact ⟨song, r, r.files, t', rfl, rfl, h⟩
    · next hother =>
      obtain ⟨hfiles, hplace⟩ := hmoves _ rfl (by simpa using husable) hother
      rw [hw.move]
      generalize organizeFile r.files path s.musicDir _ = moved at hfiles hplace ⊢
      generalize organizeFile t' path s.musicDir _ = moved' at hfiles hplace ⊢
      obtain ⟨t₁, failure | place⟩ := moved <;> obtain ⟨t₁', failure' | place'⟩ := moved'
      · exact ⟨song, r.asked.count .renameFailed, t₁, t₁', rfl, rfl, hfiles⟩
      · cases hplace
      · cases hplace
      · obtain rfl : place' = place := Option.some.inj hplace
        exact ⟨_, ({ r.asked with history.moves := (path, place') :: r.history.moves } : Run).count
          .renamed, t₁, t₁', rfl, rfl, hfiles⟩

/-- A job for a file without a record comes to the same in trees that are alike, if reading
    and moving the file do. -/
theorem updateFromFile_refiles (hw : w.Steady) (h : P r.files t') (hnew : job.existing = none)
    (hreads : t'.read job.path = r.files.read job.path)
    (hmoves : ∀ relative, resolve s.musicDir relative ∈ s.goal? w r.files job →
      MovesAlike P r.files t' job.path s.musicDir relative) :
    ∃ (q : Run) (t₁ t₁' : FileTree), r.updateFromFile s w job = { q with files := t₁ } ∧
      ({ r with files := t' } : Run).updateFromFile s w job = { q with files := t₁' } ∧
      P t₁ t₁' := by
  unfold updateFromFile readTags
  dsimp only
  rw [hreads]
  cases hread : r.files.read job.path with
  | error _ => exact ⟨r.skip .noTags, r.files, t', rfl, rfl, h⟩
  | ok content =>
    dsimp only
    cases hparsed : (w.readTags r.moment job.path content).toOption with
    | none => exact ⟨r.asked.skip .noTags, r.files, t', rfl, rfl, h⟩
    | some parsed =>
      dsimp only
      split
      · exact ⟨r.asked.skip .noTags, r.files, t', rfl, rfl, h⟩
      · next hsome =>
        simp only [hnew, ite_self, recordFor, reduceCtorEq, if_false]
        -- The song is the same in both trees, and so is the place that its file is to move to.
        obtain ⟨song, q, t₁, t₁', hmoved, hmoved', hsame⟩ : ∃ (song : Song) (q : Run)
            (t₁ t₁' : FileTree),
            (if s.autoOrganize && s.mode.allowsMoves then
              r.asked.asked.rename s w (s.readSong job (w.now r.asked.moment) parsed.tags) job.path
                (s.bypass? job.relative) false
            else (s.readSong job (w.now r.asked.moment) parsed.tags, r.asked.asked)) =
              (song, { q with files := t₁ }) ∧
            (if s.autoOrganize && s.mode.allowsMoves then
              ({ r.asked.asked with files := t' } : Run).rename s w
                (s.readSong job (w.now r.asked.moment) parsed.tags) job.path
                (s.bypass? job.relative) false
            else (s.readSong job (w.now r.asked.moment) parsed.tags,
              { r.asked.asked with files := t' })) = (song, { q with files := t₁' }) ∧ P t₁ t₁' := by
          split
          · next hauto =>
            refine rename_refiles (r := r.asked.asked) hw.toReliable h
              (s.readSong_preventRename job _ parsed.tags) job.path (s.bypass? job.relative) ?_
            intro relative hrelative husable hother
            refine hmoves relative ?_
            -- The place does not depend on the date that the song is given.
            have hdate : s.readSong job (w.now r.asked.moment) parsed.tags =
                { s.readSong job "" parsed.tags with dateAdded := w.now r.asked.moment } := by
              obtain ⟨g, hg⟩ := onTags_fillDerived s.refs s.readingTemplate job.relative
              rw [Setup.readSong, Setup.readSong, hg, hg]
              rfl
            have hrendered : s.template.render s.refs (s.readSong job "" parsed.tags)
                (s.bypass? job.relative) s.sanitizer = relative := by
              rw [← hrelative, hdate]
              rfl
            rw [s.readSong_uri] at hother
            rw [Setup.goal?_eq hw r.moment hread hparsed, hrendered]
            simp [(Bool.and_eq_true_iff.1 hauto).1, hsome, husable, hother]
          · exact ⟨_, r.asked.asked, r.files, t', rfl, rfl, h⟩
        refine ⟨(q.store w song false).count .processed, t₁, t₁', ?_, ?_, hsame⟩
        · exact (congrArg (fun moved : Song × Run =>
            (moved.2.store w moved.1 false).count .processed) hmoved).trans
              (congrArg (count · .processed) (store_refiles song false))
        · exact (congrArg (fun moved : Song × Run =>
            (moved.2.store w moved.1 false).count .processed) hmoved').trans
              (congrArg (count · .processed) (store_refiles song false))

end Run

/-! ## Trees that differ at the tables -/

/-- A path is clear of the tables: no beginning of it leads to the new table, nor one to that
    of the library, if the path goes back somewhere. -/
def Setup.Clear (s : Setup) (t : FileTree) (p : Path) : Prop :=
  t.Avoids p [s.draft t] ∧ (Name.up ∈ p.names → t.Avoids p [s.library t])

instance (s : Setup) (t : FileTree) (p : Path) : Decidable (s.Clear t p) :=
  inferInstanceAs (Decidable (_ ∧ _))

theorem Setup.clear_congr {s : Setup} {t t' : FileTree} (h : t'.workingDir = t.workingDir)
    (p : Path) : s.Clear t' p ↔ s.Clear t p := by
  rw [Clear, Clear, FileTree.Avoids.congr h, FileTree.Avoids.congr h, draft, draft, library,
    library, FileTree.destination_congr h, FileTree.destination_congr h]

/-- Two trees that have come from two others by the same changes, which are the same but for
    the tables. -/
structure Twins (s : Setup) (u u' t t' : FileTree) : Prop extends
    SameElsewhere [s.library u, s.draft u] u u' t t' where
  wellFormed : t.WellFormed
  wellFormed' : t'.WellFormed
  moved : t.workingDir = u.workingDir

namespace Twins

variable {s : Setup} {u u' t t' : FileTree} {source : Path} {relative : String} {l : Location}
  {c : Content}

/-- A path that is clear of the tables keeps away from them, or goes to that of the library. -/
theorem avoids_or_blocked {p : Path} (hclear : s.Clear u p) (hlibrary : u.HasFile (s.library u))
    (hlibrary' : u'.HasFile (s.library u)) :
    u.Avoids p [s.library u, s.draft u] ∨ Name.up ∉ p.names ∧
      ∃ k ∈ [s.library u, s.draft u], u.HasFile k ∧ u'.HasFile k ∧ k <+: u.destination p := by
  have hboth : u.Avoids p [s.library u] → u.Avoids p [s.library u, s.draft u] := by
    intro havoids front hfront hmem
    rcases List.mem_cons.1 hmem with hmem | hmem
    · exact havoids front hfront (List.mem_singleton.2 hmem)
    · exact hclear.1 front hfront hmem
  by_cases hup : Name.up ∈ p.names
  · exact .inl (hboth (hclear.2 hup))
  · rcases FileTree.avoids_or_prefix (t := u) hup (s.library u) with havoids | hprefix
    · exact .inl (hboth havoids)
    · exact .inr ⟨hup, _, List.mem_cons_self, hlibrary, hlibrary', hprefix⟩

theorem organizeFile (h : Twins s u u' t t') (hs : t.find source = .ok (l, .file c))
    (habsolute : source.isAbsolute) (hmusic : s.musicDir.isAbsolute)
    (hsource : u.Avoids source [s.library u, s.draft u]) (hlibrary : u.HasFile (s.library u))
    (hlibrary' : u'.HasFile (s.library u)) (hclear : s.Clear u (resolve s.musicDir relative)) :
    Run.MovesAlike (Twins s u u') t t' source s.musicDir relative := by
  have hworking := h.moved
  have hsource' : t.Avoids source [s.library u, s.draft u] :=
    (FileTree.Avoids.congr hworking).2 hsource
  have htarget := avoids_or_blocked hclear hlibrary hlibrary'
  rw [← FileTree.destination_congr hworking, ← FileTree.Avoids.congr hworking] at htarget
  obtain ⟨hsame, hplace⟩ := h.organizeFile_or_blocked h.wellFormed h.wellFormed' hs habsolute hmusic
    hsource' htarget
  have hs' : t'.find source = .ok (l, .file c) := (h.find_eq hsource').trans hs
  obtain ⟨hwf, hworking₁, -⟩ := organizeFile_elsewhere hs h.wellFormed
    (Eq.refl (SongLibrary.organizeFile t source s.musicDir relative))
  obtain ⟨hwf', -, -⟩ := organizeFile_elsewhere hs' h.wellFormed'
    (Eq.refl (SongLibrary.organizeFile t' source s.musicDir relative))
  exact ⟨⟨hsame, hwf, hwf', hworking₁.trans hworking⟩, hplace⟩

end Twins

/-! ## Jobs one after the other -/

/-- A job for a file that has no record and is not on the way to a table. -/
structure Job.IsAside (s : Setup) (u : FileTree) (job : Job) : Prop where
  existing : job.existing = none
  absolute : job.path.isAbsolute
  avoids : u.Avoids job.path [s.library u, s.draft u]

namespace Run

variable {s : Setup} {w : Services} {u u' : FileTree} {r r' : Run} {job : Job}

variable (s w) in
/-- Where some jobs for files without records try to move these, one after the other. -/
def tried (r : Run) : List Job → List Path
  | [] => []
  | job :: rest => (s.goal? w r.files job).toList ++ (r.perform s w job).tried rest

/-- Where jobs try to move files does not depend on what was counted before. -/
theorem Alike.tried {gap : Int} (hw : w.Steady) (h : Alike (fun _ => "") gap False r r')
    (jobs : List Job) : r'.tried s w jobs = r.tried s w jobs := by
  induction jobs generalizing r r' with
  | nil => rfl
  | cons job rest ih =>
    rw [Run.tried, Run.tried, h.files, ih (h.perform hw job fun _ => Run.blurs_const w gap)]

/-- A rebuild, and a run that adds new files, when they have come to the same: dates aside,
    their files are the same but for the tables, and so are the tables that they write. -/
structure Mirrors (s : Setup) (u u' : FileTree) (r r' : Run) : Prop where
  files : Twins s u u' r.files r'.files
  alike : ∃ gap, Alike (fun _ => "") gap True r { r' with files := r.files }

/-- A job comes to the same in both runs. -/
theorem Mirrors.perform (hw : w.Steady) (hmode : s.mode = .rebuild) (hmusic : s.musicDir.isAbsolute)
    (hlibrary : u.HasFile (s.library u)) (hlibrary' : u'.HasFile (s.library u))
    (h : Mirrors s u u' r r') (hjob : job.IsAside s u)
    (hclear : ∀ target ∈ s.goal? w r.files job, s.Clear u target) :
    Mirrors s u u' (r.perform s w job) (r'.perform s.adding w job) := by
  have havoids : r.files.Avoids job.path [s.library u, s.draft u] :=
    (FileTree.Avoids.congr h.files.moved).2 hjob.avoids
  -- Both are compared with the second run on the files of the first.
  obtain ⟨gap, halike⟩ := h.alike
  have hdone : Alike (fun _ => "") gap True (r.updateFromFile s w job)
      (Run.updateFromFile s.adding w { r' with files := r.files } job) :=
    halike.updateFromFile hw (by rw [hmode, if_pos rfl]) (by simp [hjob.existing])
      (by rw [hmode]; rfl) (fun _ => rfl) fun _ => Run.blurs_const w gap
  obtain ⟨q, t₁, t₁', hfirst, hsecond, hfiles⟩ := updateFromFile_refiles (s := s.adding)
    (P := Twins s u u') (r := { r' with files := r.files }) hw h.files hjob.existing
    (h.files.read_eq havoids) fun relative hgoal => by
      obtain ⟨l, content, hfind⟩ : ∃ l content, r.files.find job.path = .ok (l, .file content) := by
        cases hread : r.files.read job.path with
        | error _ => simp [Setup.goal?, hread, Except.toOption] at hgoal
        | ok content =>
          obtain ⟨l, hfind⟩ := FileTree.read_eq_ok_iff.1 hread
          exact ⟨l, content, hfind⟩
      exact h.files.organizeFile hfind hjob.absolute hmusic hjob.avoids hlibrary hlibrary'
        (hclear _ hgoal)
  have hperform : r.perform s w job = r.updateFromFile s w job := by
    rw [Run.perform, hmode]
  have hperform' : r'.perform s.adding w job = { q with files := t₁' } := hsecond
  rw [hfirst] at hdone
  rw [hperform, hperform']
  have hfiles₁ : (r.updateFromFile s w job).files = t₁ := hdone.files.symm
  exact ⟨hfiles₁ ▸ hfiles, gap, hfiles₁ ▸ hdone⟩

/-- **Some jobs come to the same in both runs**, if none tries to move its file into the way
    of a table. -/
theorem Mirrors.performAll (hw : w.Steady) (hmode : s.mode = .rebuild)
    (hmusic : s.musicDir.isAbsolute) (hlibrary : u.HasFile (s.library u))
    (hlibrary' : u'.HasFile (s.library u)) (h : Mirrors s u u' r r') {jobs : List Job}
    (hjobs : ∀ job ∈ jobs, job.IsAside s u)
    (hclear : ∀ target ∈ r.tried s w jobs, s.Clear u target) :
    Mirrors s u u' (r.performAll s w jobs) (r'.performAll s.adding w jobs) := by
  induction jobs generalizing r r' with
  | nil => exact h
  | cons job rest ih =>
    obtain ⟨hjob, hrest⟩ := List.forall_mem_cons.1 hjobs
    rw [tried, List.forall_mem_append] at hclear
    have hnext := h.perform hw hmode hmusic hlibrary hlibrary' hjob
      fun target hgoal => hclear.1 target (by simpa using hgoal)
    exact ih hnext hrest hclear.2

/-- What both have counted besides does not matter, if it is the same. -/
theorem Mirrors.of_ahead {a a' : Run} {gap gap' : Int} {more : Counter → UInt64}
    (h : Mirrors s u u' a a') (ha : Ahead (fun _ => "") gap more False a r)
    (ha' : Ahead (fun _ => "") gap' more False a' r') : Mirrors s u u' r r' := by
  obtain ⟨between, halike⟩ := h.alike
  refine ⟨ha.files ▸ ha'.files ▸ h.files, (r'.moment : Int) - r.moment, rfl, ?_, ?_, ?_, ?_, ?_⟩
  · exact ha'.nextId.trans (halike.nextId.trans ha.nextId.symm)
  · intro counter hc
    have hsame : a'.counters.get counter = a.counters.get counter := Alike.counts halike hc
    rw [UInt64.add_zero, ha.counts counter hc, ← hsame]
    exact ha'.counts counter hc
  · exact ha'.table.trans (halike.table.trans ha.table.symm)
  · have hkind := ha.kind.resolve_right fun h => h.1
    have hkind' := ha'.kind.resolve_right fun h => h.1
    refine halike.kind.imp (fun hsame => ?_) fun hnew => ⟨trivial, ha.nextId.trans hnew.2⟩
    exact hkind'.trans (hsame.trans hkind.symm)
  · dsimp only
    omega

end Run

end SongLibrary.Reconcile
