/-
  What the operations of a run come to.

  For each operation, the states it can give, with what led there:

  * `nextCandidate_keeps` and `existingRecord_keeps` for looking at candidates;
  * `Copied`, `Stored` and `Renamed` for what is done with a record and its file
    (`copyRecord_cases`, `store_cases`, `rename_cases`);
  * `FromFile` for reading the tags of a file into its record (`updateFromFile_cases`);
  * `Deed` for the single things that doing a job consists of: every job is some
    deeds, after which its candidate is counted (`perform_deeds`);
  * `Look` for the single things that looking at candidates consists of
    (`pull_looks`);
  * `Acted` and `Faulted` for a step, by the phase of the run (`act_cases`,
    `act_error_cases`).
-/
import Mathlib.Logic.Relation
import SongLibrary.Proofs.Reconcile.Filling
import SongLibrary.Proofs.Reconcile.Reachable

namespace SongLibrary.Reconcile

/-- Whether a counter tells more about candidates that other counters count. -/
def Counter.isDetail : Counter → Bool
  | alreadyInTable | new | updated | renamed | renameFailed | writtenTags | bad => true
  | _ => false

namespace Setup

variable (s : Setup) (job : Job)

/-- The record that there was for a file, unless the run builds the library anew. -/
def recordBefore? : Option Song :=
  if s.mode = .rebuild then none else job.existing

/-- The record of a file with some tags: the one that there was, or a new one. -/
def recordWith (date : String) (tags : TagMap) : Song :=
  match s.recordBefore? job with
  | some old => { old with uri := job.key, tags }
  | none => { Song.new job.key date with tags }

variable {s job}

theorem recordBefore?_of_none (h : job.existing = none) : s.recordBefore? job = none := by
  rw [recordBefore?, h, ite_self]

theorem recordBefore?_of_ne (h : s.mode ≠ .rebuild) : s.recordBefore? job = job.existing :=
  if_neg h

theorem existing_of_recordBefore? {song : Song} (h : s.recordBefore? job = some song) :
    job.existing = some song := by
  unfold recordBefore? at h
  split at h
  · cases h
  · exact h

theorem recordWith_uri (date : String) (tags : TagMap) : (s.recordWith job date tags).uri = job.key := by
  unfold recordWith
  split <;> rfl

theorem recordWith_id (date : String) (tags : TagMap) :
    (s.recordWith job date tags).id = (s.recordBefore? job).bind Song.id := by
  unfold recordWith
  split <;> next h => rw [h]; rfl

end Setup

namespace Run

variable (s : Setup) (w : Services) (r : Run)

/-! ## Candidates -/

/-- Looking for a candidate moves the source on, after at most one question. -/
theorem nextCandidate_keeps :
    ∃ source moment, (r.nextCandidate s w).1 = { r with source, moment } := by
  unfold nextCandidate
  split
  · exact ⟨r.source, r.moment, rfl⟩
  · exact ⟨r.source, r.moment, rfl⟩
  · next path paths _ => exact ⟨some (.files paths), r.moment, rfl⟩
  · next visit _ =>
    split
    · exact ⟨r.source, r.moment + 1, rfl⟩
    · split
      · exact ⟨r.source, r.moment, rfl⟩
      · next primary _ =>
        dsimp only
        by_cases hpage : visit.needsPage <;> simp only [hpage, if_true, Bool.false_eq_true, if_false]
        · split
          · next visit' _ => exact ⟨some (.table visit'), r.moment + 1, rfl⟩
          · next visit' _ => exact ⟨some (.table visit'), r.moment + 1, rfl⟩
        · split
          · next visit' _ => exact ⟨some (.table visit'), r.moment, rfl⟩
          · next visit' _ => exact ⟨some (.table visit'), r.moment, rfl⟩

/-- Looking for a record asks at most one question. -/
theorem existingRecord_keeps (c : Candidate) :
    ∃ moment, (r.existingRecord s w c).1 = { r with moment } := by
  unfold existingRecord
  split
  · exact ⟨r.moment, rfl⟩
  · split
    · exact ⟨r.moment, rfl⟩
    · split
      · exact ⟨r.moment + 1, rfl⟩
      · split <;> exact ⟨r.moment + 1, rfl⟩

theorem nextCandidate_error {r' : Run} {failure : Failure}
    (h : r.nextCandidate s w = (r', .error failure)) : failure = .database := by
  unfold nextCandidate at h
  split at h
  · cases h
  · cases h
  · cases h
  · split at h
    · cases h
      rfl
    · split at h
      · cases h
        rfl
      · dsimp only at h
        split at h <;> cases h

theorem existingRecord_error {c : Candidate} {r' : Run} {failure : Failure}
    (h : r.existingRecord s w c = (r', .error failure)) : failure = .database := by
  unfold existingRecord at h
  split at h
  · cases h
  · split at h
    · cases h
    · split at h
      · cases h
        rfl
      · split at h
        · cases h
          rfl
        · cases h

/-- Taking candidates fails only when a table does. -/
theorem pull_error {n : Nat} {r r' : Run} {failure : Failure}
    (h : pull s w n r = (r', .error failure)) : failure = .database := by
  induction n generalizing r with
  | zero => cases h
  | succ n ih =>
    unfold pull at h
    split at h
    · cases h
    · split at h
      · next hnext =>
        cases h
        exact nextCandidate_error s w r hnext
      · cases h
      · next r₁ c _ =>
        split at h
        · next hclassify =>
          cases h
          unfold classify at hclassify
          simp only at hclassify
          split at hclassify
          · cases hclassify
          · split at hclassify
            · cases hclassify
            · split at hclassify
              · next hexisting =>
                cases hclassify
                exact existingRecord_error s w _ hexisting
              · cases hclassify
        · next r₂ _ => exact ih h

/-! ## Records -/

/-- A song is in the new table. -/
theorem addToTarget_cases {song : Song} {r' : Run} (h : r.addToTarget song = some r') :
    ∃ target id table, r.target = some target ∧ target.table.insert? song = some (id, table) ∧
      r' = { r with
        target := some { target with table }
        history.written := song.row id :: r.history.written } := by
  simp only [addToTarget, Option.bind_eq_bind, Option.bind_eq_some_iff, Option.pure_def,
    Option.some.injEq] at h
  obtain ⟨target, htarget, ⟨id, table⟩, hinsert, rfl⟩ := h
  exact ⟨target, id, table, htarget, hinsert, rfl⟩

/-- A song is in the table of the library. -/
theorem saveToPrimary_cases {song : Song} {r' : Run} (h : r.saveToPrimary song = some r') :
    ∃ primary how table, r.primary = some primary ∧ primary.table.save? song = some (how, table) ∧
      r' = { r with primary := some { primary with table } } := by
  simp only [saveToPrimary, Option.bind_eq_bind, Option.bind_eq_some_iff, Option.pure_def,
    Option.some.injEq] at h
  obtain ⟨primary, hprimary, ⟨how, table⟩, hsave, rfl⟩ := h
  exact ⟨primary, how, table, hprimary, hsave, rfl⟩

/-- What copying a record does before the candidate is counted. -/
inductive Copied (song : Song) : Run → Prop where
  /-- The record copied last has the same location. -/
  | repeated (h : r.lastCopied = some song.uri) : Copied song r
  | added {target : OpenTable} {id : Int64} {table : SongTable} (h : r.target = some target)
      (hinsert : target.table.insert? song = some (id, table)) : Copied song
        { r.asked with
          lastCopied := some song.uri
          target := some { target with table }
          history.written := song.row id :: r.history.written }
  | failed : Copied song ({ r.asked with lastCopied := some song.uri }.count .bad)

theorem copyRecord_cases (song : Song) :
    ∃ r₁, Copied r song r₁ ∧ r.copyRecord w song = r₁.count .processed := by
  unfold copyRecord
  split
  · next h => exact ⟨r, .repeated h, rfl⟩
  · dsimp only
    split
    · next r₁ h =>
      split at h
      · cases h
      · obtain ⟨target, id, table, htarget, hinsert, rfl⟩ := addToTarget_cases _ h
        exact ⟨_, .added htarget hinsert, rfl⟩
    · exact ⟨_, .failed, rfl⟩

/-- What storing a song does before it is counted. -/
inductive Stored (song : Song) : Run → Prop where
  | failed (moment : Nat) (nextId : Option Int64)
      (h : w.tableFails r.moment = true ∨ r.target.isSome ∨
        ∀ primary ∈ r.primary, primary.table.save? song = none) :
      Stored song { r with moment, nextId }
  /-- The song is in the new table, perhaps under an id that it had not before. -/
  | added {target : OpenTable} {table : SongTable} {id : Int64} (given : Option Int64)
      (moment : Nat) (nextId : Option Int64) (h : r.target = some target)
      (hinsert : target.table.insert? { song with id := given } = some (id, table)) : Stored song
        { r with
          moment, nextId
          target := some { target with table }
          history.written := song.row id :: r.history.written }
  /-- The song is in the table of the library. -/
  | saved {primary : OpenTable} {table : SongTable} {how : SongTable.Saved} (moment : Nat)
      (ht : r.target = none) (h : r.primary = some primary)
      (hsave : primary.table.save? song = some (how, table)) : Stored song
        { r with moment, primary := some { primary with table } }

theorem assignId_cases (song : Song) :
    ∃ given nextId, r.assignId song = ({ song with id := given }, { r with nextId }) := by
  unfold assignId
  split
  · next id _ _ => exact ⟨some id, some (id + 1), rfl⟩
  · exact ⟨song.id, r.nextId, rfl⟩

/-- A song that is stored is in the table that the run writes. -/
theorem storeIn_cases {song : Song} {r' : Run} (h : r.storeIn w song = some r') :
    (r.target.isSome ∧ r.asked.addToTarget song = some r') ∨
      (r.target = none ∧ r.asked.saveToPrimary song = some r') := by
  unfold storeIn at h
  split at h
  · cases h
  · split at h
    · next ht => exact .inl ⟨ht, h⟩
    · next ht => exact .inr ⟨by simpa [asked] using ht, h⟩

/-- A song that cannot be stored in the table of the library: the operation
    fails, or the table does not take the song. -/
theorem storeIn_eq_none {song : Song} (h : r.storeIn w song = none) :
    w.tableFails r.moment = true ∨ r.target.isSome ∨
      ∀ primary ∈ r.primary, primary.table.save? song = none := by
  unfold storeIn at h
  split at h
  · next hfails => exact .inl hfails
  · split at h
    · next ht => exact .inr (.inl ht)
    · refine .inr (.inr ?_)
      intro primary hprimary
      refine Option.eq_none_iff_forall_ne_some.2 ?_
      rintro ⟨how, table⟩ hsave
      simp [saveToPrimary, asked, Option.mem_def.1 hprimary, hsave] at h

theorem store_cases (song : Song) (existed : Bool) :
    ∃ r₁ counter, Stored w r song r₁ ∧ counter ∈ [.updated, .new, .bad] ∧
      r.store w song existed = r₁.count counter := by
  have hcounter : (if existed then Counter.updated else .new) ∈ [Counter.updated, .new, .bad] := by
    cases existed <;> decide
  unfold store
  by_cases ht : r.target.isSome
  · obtain ⟨given, nextId, hgiven⟩ := r.assignId_cases song
    simp only [ht, if_true, hgiven]
    split
    · next r₁ h =>
      rcases storeIn_cases w _ h with ⟨-, h⟩ | ⟨hnone, -⟩
      · obtain ⟨target, id, table, htarget, hinsert, rfl⟩ := addToTarget_cases _ h
        exact ⟨_, _, .added given (r.moment + 1) nextId htarget hinsert, hcounter, rfl⟩
      · simp [show r.target = none from hnone] at ht
    · exact ⟨_, .bad, .failed (r.moment + 1) nextId (.inr (.inl ht)), by decide, rfl⟩
  · simp only [ht, Bool.false_eq_true, if_false]
    split
    · next r₁ h =>
      rcases storeIn_cases w _ h with ⟨hsome, -⟩ | ⟨hnone, h⟩
      · exact absurd hsome ht
      · obtain ⟨primary, how, table, hprimary, hsave, rfl⟩ := saveToPrimary_cases _ h
        exact ⟨_, _, .saved (r.moment + 1) hnone hprimary hsave, hcounter, rfl⟩
    · next h =>
      exact ⟨_, .bad, .failed (r.moment + 1) r.nextId (storeIn_eq_none w r h), by decide, rfl⟩

/-- Storing a song moves no file. -/
theorem store_moves (song : Song) (existed : Bool) : (r.store w song existed).files = r.files ∧
    (r.store w song existed).history.moves = r.history.moves := by
  obtain ⟨r₁, counter, hstored, -, heq⟩ := r.store_cases w song existed
  rw [heq]
  cases hstored <;> exact ⟨rfl, rfl⟩

/-! ## Files -/

/-- What moving a file does before that is counted: the song, and the state. -/
inductive Renamed (song : Song) (path : Path) : Song × Run → Prop where
  | stays : Renamed song path (song, r)
  | failed {files : FileTree} {relative : String} {failure : Failure}
      (h : w.move r.moment r.files path s.musicDir relative = (files, .error failure)) :
      Renamed song path (song, { r.asked with files })
  | moved {files : FileTree} {relative : String} {place : Path} (hne : relative ≠ song.uri)
      (h : w.move r.moment r.files path s.musicDir relative = (files, .ok place)) :
      Renamed song path ({ song with uri := relative },
        { r.asked with files, history.moves := (path, place) :: r.history.moves })

theorem rename_cases (song : Song) (path : Path) (bypass : Option String) (force : Bool) :
    ∃ song' r₁, Renamed s w r song path (song', r₁) ∧
      (r.rename s w song path bypass force = (song', r₁) ∨
        ∃ counter ∈ [.bad, .renamed, .renameFailed],
          r.rename s w song path bypass force = (song', r₁.count counter)) := by
  unfold rename
  split
  · exact ⟨song, r, .stays, .inl rfl⟩
  · dsimp only
    split
    · exact ⟨song, r, .stays, .inr ⟨.bad, by decide, rfl⟩⟩
    · split
      · exact ⟨song, r, .stays, .inl rfl⟩
      · next hne =>
        split
        · next files place h => exact ⟨_, _, .moved hne h, .inr ⟨.renamed, by decide, rfl⟩⟩
        · next files failure h => exact ⟨_, _, .failed h, .inr ⟨.renameFailed, by decide, rfl⟩⟩

/-- The record that tags are read into has the key of the job for its location. -/
theorem recordFor_cases (job : Job) (existing : Option Song) :
    ∃ moment, (r.recordFor w job existing).2 = { r with moment } := by
  unfold recordFor
  split
  · exact ⟨r.moment, rfl⟩
  · exact ⟨r.moment + 1, rfl⟩

/-- Reading tags asks at most one question; tags that are read are those of the
    file's content. -/
theorem readTags_cases (path : Path) :
    ∃ moment, (r.readTags w path).2 = { r with moment } ∧
      ∀ parsed ∈ (r.readTags w path).1, ∃ content, r.files.read path = .ok content ∧
        w.readTags r.moment path content = .ok parsed := by
  unfold readTags
  split
  · exact ⟨r.moment, rfl, by simp⟩
  · next content h =>
    refine ⟨r.moment + 1, rfl, fun parsed hparsed => ⟨content, h, ?_⟩⟩
    cases htags : w.readTags r.moment path content with
    | ok _ => simpa [htags, Except.toOption] using hparsed
    | error _ => simp [htags, Except.toOption] at hparsed

/-- Filling in changes tags alone. -/
theorem fillDerived_tags (refs : ReferenceData) (t : Template) (relative : String) (song : Song) :
    ∃ tags, fillDerived refs t relative song = { song with tags } :=
  (onTags_fillDerived refs t relative).elim fun g hg => ⟨g song.tags, hg song⟩

/-- The record that the tags of a file are read into, once they are filled in. -/
theorem filled_eq_recordWith (job : Job) (tags : TagMap) : ∃ date filled,
    fillDerived s.refs s.readingTemplate job.relative
      { (r.recordFor w job (s.recordBefore? job)).1 with tags } = s.recordWith job date filled := by
  obtain ⟨filled, heq⟩ := fillDerived_tags s.refs s.readingTemplate job.relative
    { (r.recordFor w job (s.recordBefore? job)).1 with tags }
  refine ⟨w.now r.moment, filled, ?_⟩
  rw [heq, Setup.recordWith]
  cases s.recordBefore? job <;> rfl

/-- What reading the tags of a file into its record comes to: there are none with a length, or
    the record with these is stored, if it is another than before, and its file may be moved
    first. -/
inductive FromFile (job : Job) : Run → Prop where
  | noTags (moment : Nat) : FromFile job ({ r with moment }.skip .noTags)
  | kept {content : Content} {parsed : ParsedTags} {date : String} {tags : TagMap} {moment : Nat}
      {song : Song} {r₁ : Run} (hread : r.files.read job.path = .ok content)
      (htags : w.readTags r.moment job.path content = .ok parsed)
      (hmoved : (s.autoOrganize ∧ s.mode.allowsMoves) ∧
          { r with moment }.rename s w (s.recordWith job date tags) job.path
            (s.bypass? job.relative) false = (song, r₁) ∨
        song = s.recordWith job date tags ∧ r₁ = { r with moment }) :
      FromFile job ((if s.recordBefore? job = some song then r₁
        else r₁.store w song (s.recordBefore? job).isSome).count .processed)

theorem updateFromFile_cases (job : Job) : FromFile s w r job (r.updateFromFile s w job) := by
  obtain ⟨moment, hasked, htags⟩ := r.readTags_cases w job.path
  unfold updateFromFile
  split
  · next r₁ hnone =>
    rw [hnone] at hasked
    subst hasked
    exact .noTags moment
  · next parsed r₁ hsome =>
    rw [hsome] at hasked htags
    subst hasked
    obtain ⟨content, hread, hparsed⟩ := htags parsed rfl
    split
    · exact .noTags moment
    · obtain ⟨moment', hrecord⟩ := recordFor_cases w { r with moment } job (s.recordBefore? job)
      obtain ⟨date, tags, hfilled⟩ := filled_eq_recordWith s w { r with moment } job parsed.tags
      rw [← Setup.recordBefore?]
      dsimp only
      rw [hrecord, hfilled]
      split
      · next horganize => exact .kept hread hparsed (.inl ⟨Bool.and_eq_true_iff.1 horganize, rfl⟩)
      · exact .kept hread hparsed (.inr ⟨rfl, rfl⟩)

/-! ## Jobs -/

/-- A single thing that is done for a job. -/
inductive Deed (job : Job) : Run → Run → Prop where
  | ask {r : Run} (moment : Nat) : Deed job r { r with moment }
  | note {r : Run} {counter : Counter} (h : counter.isDetail) : Deed job r (r.count counter)
  | store {r r' : Run} (song : Song) (h : Stored w r song r') : Deed job r r'
  /-- The file is moved, where the mode moves files.  A run that adds files has
      read the tags of the file. -/
  | move {r r' : Run} {song song' : Song} (h : Renamed s w r song job.path (song', r'))
      (hmode : s.mode = .reorganize ∨ s.mode.allowsMoves ∧ ∃ content moment parsed,
        r.files.read job.path = .ok content ∧ w.readTags moment job.path content = .ok parsed) :
      Deed job r r'
  /-- The file is written, which is read before. -/
  | write {r : Run} {before content : Content} {files : FileTree}
      (hread : r.files.read job.path = .ok before)
      (h : r.files.write job.path content = .ok files) (hmode : s.mode = .writeTags) :
      Deed job r { r with files }

/-- Some things that are done for a job. -/
abbrev Deeds (job : Job) : Run → Run → Prop :=
  Relation.ReflTransGen (Deed s w job)

variable {s w r} {job : Job}

theorem Deeds.store {r' : Run} (h : Deeds s w job r r') (song : Song) (existed : Bool) :
    Deeds s w job r (r'.store w song existed) := by
  obtain ⟨r₁, counter, hstored, hcounter, heq⟩ := r'.store_cases w song existed
  rw [heq]
  refine (h.tail (.store song hstored)).tail (.note ?_)
  simp only [List.mem_cons, List.not_mem_nil, or_false] at hcounter
  rcases hcounter with rfl | rfl | rfl <;> rfl

theorem Deeds.rename {r' : Run} (h : Deeds s w job r r') (song : Song) (bypass : Option String)
    (force : Bool)
    (hmode : s.mode = .reorganize ∨ s.mode.allowsMoves ∧ ∃ content moment parsed,
      r'.files.read job.path = .ok content ∧ w.readTags moment job.path content = .ok parsed) :
    Deeds s w job r (r'.rename s w song job.path bypass force).2 := by
  obtain ⟨song', r₁, hrenamed, heq⟩ := r'.rename_cases s w song job.path bypass force
  have h₁ := h.tail (.move hrenamed hmode)
  rcases heq with heq | ⟨counter, hcounter, heq⟩ <;> rw [heq]
  · exact h₁
  · refine h₁.tail (.note ?_)
    simp only [List.mem_cons, List.not_mem_nil, or_false] at hcounter
    rcases hcounter with rfl | rfl | rfl <;> rfl

/-- How doing a job ends, after its deeds: the candidate is processed, or skipped
    for want of tags. -/
inductive Settled (r : Run) : Run → Prop where
  | processed : Settled r (r.count .processed)
  | noTags : Settled r (r.skip .noTags)

theorem updateFromFile_deeds :
    ∃ r₁, Deeds s w job r r₁ ∧ Settled r₁ (r.updateFromFile s w job) := by
  have hcases := r.updateFromFile_cases s w job
  generalize r.updateFromFile s w job = r' at hcases
  cases hcases with
  | noTags moment => exact ⟨_, .single (.ask moment), .noTags⟩
  | @kept content parsed date tags moment song r₁ hread htags hmoved =>
    have hasked : Deeds s w job r { r with moment } := .single (.ask moment)
    have hdeeds : Deeds s w job r r₁ := by
      rcases hmoved with ⟨⟨-, hallows⟩, hrename⟩ | ⟨-, rfl⟩
      · have hrenamed := hasked.rename (s.recordWith job date tags) (s.bypass? job.relative) false <|
          .inr ⟨hallows, content, r.moment, parsed, hread, htags⟩
        rwa [hrename] at hrenamed
      · exact hasked
    refine ⟨_, ?_, .processed⟩
    split
    · exact hdeeds
    · exact hdeeds.store _ _

theorem writeTags_deeds (hmode : s.mode = .writeTags) :
    ∃ r₁, Deeds s w job r r₁ ∧ Settled r₁ (r.writeTags w job) := by
  obtain ⟨moment, hasked, -⟩ := r.readTags_cases w job.path
  unfold writeTags
  split
  · exact ⟨r, .refl, .processed⟩
  · next song _ =>
    split
    · next r₁ hread =>
      rw [hread] at hasked
      subst hasked
      exact ⟨_, .single (.ask moment), .noTags⟩
    · next parsed r₁ hread =>
      rw [hread] at hasked
      subst hasked
      refine ⟨_, ?_, .processed⟩
      have hasked : ∀ moment, Deeds s w job r { r with moment } := fun m => .single (.ask m)
      unfold writeInto
      split
      · exact (hasked moment).tail (.note rfl)
      · next before hbefore =>
        split
        · exact (hasked (moment + 1)).tail (.note rfl)
        · exact hasked (moment + 1)
        · split
          · exact (hasked (moment + 1)).tail (.note rfl)
          · next files hfiles =>
            exact ((hasked (moment + 1)).tail (.write hbefore hfiles hmode)).tail (.note rfl)

theorem updateFromTracks_deeds :
    ∃ r₁, Deeds s w job r r₁ ∧ Settled r₁ (r.updateFromTracks w job) := by
  unfold updateFromTracks
  split
  · exact ⟨r, .refl, .processed⟩
  · have hasked : Deeds s w job r r.asked := .single (.ask (r.moment + 1))
    split
    · exact ⟨r.asked, hasked, .processed⟩
    · refine ⟨_, ?_, .processed⟩
      split
      · exact hasked
      · exact hasked.store _ true

theorem reorganize_deeds (hmode : s.mode = .reorganize) :
    ∃ r₁, Deeds s w job r r₁ ∧ Settled r₁ (r.reorganize s w job) := by
  unfold reorganize
  split
  · exact ⟨r, .refl, .processed⟩
  · next existing _ =>
    refine ⟨_, ?_, .processed⟩
    have hnothing : Deeds s w job r r := .refl
    have hrenamed := hnothing.rename existing (s.bypass? job.relative) true (.inl hmode)
    split
    · exact hrenamed
    · exact hrenamed.store _ true

variable (s w r job) in
/-- **A job is some deeds, after which its candidate is counted once.** -/
theorem perform_deeds : ∃ r₁, Deeds s w job r r₁ ∧ Settled r₁ (r.perform s w job) := by
  unfold perform
  split
  · next hmode => exact writeTags_deeds hmode
  · exact updateFromTracks_deeds
  · next hmode => exact reorganize_deeds hmode
  all_goals exact updateFromFile_deeds

/-- The second state differs from the first in what jobs and candidates change:
    it is in the same phase, and was stopped if the first was. -/
structure SameCourse (r r' : Run) : Prop where
  phase : r'.phase = r.phase
  stopped : r'.stopped = r.stopped

theorem SameCourse.trans {r₁ r₂ r₃ : Run} (h : SameCourse r₁ r₂) (h' : SameCourse r₂ r₃) :
    SameCourse r₁ r₃ :=
  ⟨h'.phase.trans h.phase, h'.stopped.trans h.stopped⟩

theorem Deed.sameCourse {r' : Run} (h : Deed s w job r r') : SameCourse r r' := by
  cases h with
  | ask _ => exact ⟨rfl, rfl⟩
  | note _ => exact ⟨rfl, rfl⟩
  | store _ hstored => cases hstored <;> exact ⟨rfl, rfl⟩
  | move hrenamed _ => cases hrenamed <;> exact ⟨rfl, rfl⟩
  | write _ _ _ => exact ⟨rfl, rfl⟩

theorem Deeds.sameCourse {r' : Run} (h : Deeds s w job r r') : SameCourse r r' := by
  induction h with
  | refl => exact ⟨rfl, rfl⟩
  | tail _ hd ih => exact ih.trans hd.sameCourse

theorem Settled.sameCourse {r' : Run} (h : Settled r r') : SameCourse r r' := by
  cases h <;> exact ⟨rfl, rfl⟩

theorem performNext_sameCourse : SameCourse r (r.performNext s w) := by
  unfold performNext
  split
  · exact ⟨rfl, rfl⟩
  · next job queue _ =>
    obtain ⟨r₁, hdeeds, hsettled⟩ :=
      perform_deeds s w { r with queue, history.taken := job :: r.history.taken } job
    have hdone := hdeeds.sameCourse.trans hsettled.sameCourse
    exact ⟨hdone.phase, hdone.stopped⟩

/-! ## Looking at candidates -/

/-- A single thing that is done in looking at candidates. -/
inductive Look (s : Setup) : Run → Run → Prop where
  | next {r : Run} (source : Option Source) (moment : Nat) : Look s r { r with source, moment }
  | find {r : Run} (c : Candidate) :
      Look s r ({ r with history.found := c :: r.history.found }.count .found)
  | count {r : Run} (counter : Counter) : Look s r (r.count counter)
  | skip {r : Run} (reason : Counter) : Look s r (r.skip reason)
  | copy {r r' : Run} (song : Song) (h : Copied r song r')
      (hmode : ∃ checkNew, s.mode = .compact checkNew) : Look s r r'
  | put {r : Run} {job : Job} {queue : Queue Job} (counters : Counters)
      (h : r.queue.push job = some queue) : Look s r { r with queue, counters }

/-- Some things that are done in looking at candidates. -/
abbrev Looks (s : Setup) : Run → Run → Prop :=
  Relation.ReflTransGen (Look s)

theorem Look.sameCourse {r' : Run} (h : Look s r r') : SameCourse r r' := by
  cases h with
  | copy _ hcopied _ => cases hcopied <;> exact ⟨rfl, rfl⟩
  | _ => exact ⟨rfl, rfl⟩

theorem Looks.sameCourse {r' : Run} (h : Looks s r r') : SameCourse r r' := by
  induction h with
  | refl => exact ⟨rfl, rfl⟩
  | tail _ hl ih => exact ih.trans hl.sameCourse

theorem enqueue_looks (c : Candidate) (existing : Option Song) :
    Looks s r (r.enqueue s c existing) := by
  unfold enqueue
  split
  · exact .single (.skip .badFileName)
  · split
    · exact .refl
    · next queue hpush => exact .single (.put _ hpush)

theorem settle_looks (c : Candidate) (existing : Option Song) :
    Looks s r (r.settle s w c existing) := by
  have hcounted : Looks s r (r.count .alreadyInTable) := .single (.count .alreadyInTable)
  unfold settle
  split
  · exact enqueue_looks c none
  · exact hcounted.tail (.count .processed)
  · next song checkNew hmode =>
    obtain ⟨r₁, hcopied, heq⟩ := copyRecord_cases w (r.count .alreadyInTable) song
    rw [heq]
    exact (hcounted.tail (.copy song hcopied ⟨_, hmode⟩)).tail (.count .processed)
  · exact hcounted.trans (enqueue_looks c _)

theorem classify_looks (c : Candidate) : Looks s r (r.classify s w c).1 := by
  have hfound : Looks s r ({ r with history.found := c :: r.history.found }.count .found) :=
    .single (.find c)
  unfold classify
  generalize { r with history.found := c :: r.history.found }.count .found = r₁ at hfound ⊢
  dsimp only
  split
  · exact hfound.tail (.skip _)
  · split
    · exact hfound.tail (.skip .missing)
    · obtain ⟨moment, hkeeps⟩ := r₁.existingRecord_keeps s w c
      have hasked : Looks s r { r₁ with moment } := hfound.tail (.next r₁.source moment)
      split
      · next hexisting =>
        rw [hexisting] at hkeeps
        subst hkeeps
        exact hasked
      · next r₂ existing hexisting =>
        rw [hexisting] at hkeeps
        subst hkeeps
        exact hasked.trans (settle_looks c existing)

/-- **Taking candidates is looking at them**, also if it fails. -/
theorem pull_looks (n : Nat) : Looks s r (pull s w n r).1 := by
  induction n generalizing r with
  | zero => exact .refl
  | succ n ih =>
    unfold pull
    split
    · exact .refl
    · obtain ⟨source, moment, hkeeps⟩ := r.nextCandidate_keeps s w
      have hnext : Looks s r { r with source, moment } := .single (.next source moment)
      split
      · next hcandidate =>
        rw [hcandidate] at hkeeps
        subst hkeeps
        exact hnext
      · next hcandidate =>
        rw [hcandidate] at hkeeps
        subst hkeeps
        exact hnext.tail (.next none moment)
      · next r₁ c hcandidate =>
        rw [hcandidate] at hkeeps
        subst hkeeps
        have hlooked := hnext.trans (classify_looks (w := w) c)
        split
        · next hclassify =>
          rw [hclassify] at hlooked
          exact hlooked
        · next hclassify =>
          rw [hclassify] at hlooked
          exact hlooked.trans ih

variable (r)

/-! ## Reports -/

theorem reportProgress_keeps :
    ∃ reported sent, r.reportProgress = { r with reported, sent } := by
  unfold reportProgress
  split
  · exact ⟨r.reported, r.sent, rfl⟩
  · exact ⟨_, _, rfl⟩

theorem foldl_send_keeps (lines : List String) :
    ∃ sent, lines.foldl (fun r line => r.send (.status line)) r = { r with sent } := by
  induction lines generalizing r with
  | nil => exact ⟨r.sent, rfl⟩
  | cons line rest ih =>
    obtain ⟨sent, h⟩ := ih (r.send (.status line))
    exact ⟨sent, h⟩

/-- The report ends the run, and raises the high-water mark of the queue. -/
theorem report_keeps (discarded : Bool) :
    ∃ sent, r.report discarded = { r with
      counters := r.counters.raise .queueHighWater (.ofNat r.queue.highWater)
      sent, phase := .done } := by
  unfold report
  dsimp only
  generalize r.counters.raise .queueHighWater (.ofNat r.queue.highWater) = counters
  obtain ⟨sent, h⟩ := foldl_send_keeps { r with counters } counters.summary
  rw [h]
  split
  · exact ⟨_, rfl⟩
  · split <;> exact ⟨_, rfl⟩

/-! ## Phases -/

variable {r} {r' : Run}

theorem start_phase (h : r.start s w = (r', .ok ())) : r'.phase = .prepare := by
  have hprimary : ∀ {r : Run}, r.openPrimary s w = (r', .ok ()) → r'.phase = .prepare := by
    intro r h
    unfold openPrimary at h
    split at h
    · cases h
    · cases h
      rfl
  unfold start at h
  split at h
  · split at h
    · cases h
    · exact hprimary h
  · exact hprimary h

theorem prepare_phase (h : r.prepare s w = (r', .ok ())) : r'.phase = .gather := by
  unfold prepare at h
  split at h
  · cases h
  · split at h
    · cases h
    · cases h
      rfl

theorem gather_phase (hphase : r.phase = .gather) (h : r.gather s w = (r', .ok ())) :
    r'.phase = .gather ∨ r'.phase = .drain := by
  unfold gather at h
  split at h
  · cases h
  · next r₁ hpull =>
    cases h
    have hlooked := (pull_looks (s := s) (w := w) (r := r) s.batch).sameCourse
    rw [hpull] at hlooked
    obtain ⟨reported, sent, hkeeps⟩ := reportProgress_keeps
      ((if r₁.source.isNone then { r₁ with phase := .drain } else r₁).performNext s w)
    rw [hkeeps]
    dsimp only
    rw [performNext_sameCourse.phase]
    split
    · exact .inr rfl
    · exact .inl (hlooked.phase.trans hphase)

theorem drain_phase (hphase : r.phase = .drain) :
    (r.drain s w).phase = .drain ∨ (r.drain s w).phase = .finish := by
  unfold drain
  split
  · exact .inr rfl
  · obtain ⟨reported, sent, hkeeps⟩ := (r.performNext s w).reportProgress_keeps
    rw [hkeeps]
    exact .inl (performNext_sameCourse.phase.trans hphase)

/-- What finishing a run comes to: an operation fails, or both tables are closed
    and the new one is kept in the end. -/
inductive Finished (s : Setup) (w : Services) (r : Run) : Run × Except Failure Unit → Prop where
  | targetFails {r₁ : Run} {failure : Failure}
      (h₁ : { r with source := none }.closeTarget w = (r₁, .error failure)) :
      Finished s w r (r₁, .error failure)
  | primaryFails {r₁ r₂ : Run} {failure : Failure}
      (h₁ : { r with source := none }.closeTarget w = (r₁, .ok ()))
      (h₂ : r₁.closePrimary w = (r₂, .error failure)) : Finished s w r (r₂, .error failure)
  | renameFails {r₁ r₂ r₃ : Run} {failure : Failure}
      (h₁ : { r with source := none }.closeTarget w = (r₁, .ok ()))
      (h₂ : r₁.closePrimary w = (r₂, .ok ())) (hnew : r.target.isSome ∧ r₂.stopped = false)
      (h₃ : r₂.replaceTable s w = (r₃, .error failure)) : Finished s w r (r₃, .error failure)
  /-- The new table is in the place of the old one. -/
  | replaced {r₁ r₂ r₃ : Run} (h₁ : { r with source := none }.closeTarget w = (r₁, .ok ()))
      (h₂ : r₁.closePrimary w = (r₂, .ok ())) (hnew : r.target.isSome ∧ r₂.stopped = false)
      (h₃ : r₂.replaceTable s w = (r₃, .ok ())) : Finished s w r (r₃.report false, .ok ())
  /-- There is no new table, or it has been given up. -/
  | kept {r₁ r₂ : Run} (h₁ : { r with source := none }.closeTarget w = (r₁, .ok ()))
      (h₂ : r₁.closePrimary w = (r₂, .ok ())) (hold : r.target = none ∨ r₂.stopped) :
      Finished s w r (r₂.report r.target.isSome, .ok ())

theorem finish_cases (s : Setup) (w : Services) (r : Run) : Finished s w r (r.finish s w) := by
  unfold finish
  dsimp only
  split
  · next h₁ => exact .targetFails h₁
  · next r₁ h₁ =>
    split
    · next h₂ => exact .primaryFails h₁ h₂
    · next r₂ h₂ =>
      split
      · next hnew =>
        replace hnew : r.target.isSome ∧ r₂.stopped = false := by simpa using hnew
        split
        · next h₃ => exact .renameFails h₁ h₂ hnew h₃
        · next h₃ => exact .replaced h₁ h₂ hnew h₃
      · next hold =>
        refine .kept h₁ h₂ ?_
        cases ht : r.target <;> simp_all

/-- What finishing a run changes. -/
theorem finish_keeps (s : Setup) (w : Services) (r : Run) :
    ∃ files primary target phase counters sent moment, (r.finish s w).1 =
      { r with files, primary, target, phase, counters, sent, moment, source := none } := by
  let P (r' : Run) : Prop := ∃ files primary target phase counters sent moment,
    r' = { r with files, primary, target, phase, counters, sent, moment, source := none }
  have hreport : ∀ {r₁ : Run} (discarded : Bool), P r₁ → P (r₁.report discarded) := by
    rintro _ discarded ⟨_, _, _, _, _, _, _, rfl⟩
    obtain ⟨_, hkeeps⟩ := report_keeps _ discarded
    exact ⟨_, _, _, _, _, _, _, hkeeps⟩
  refine of_andThen (P := P) ?_ fun r₁ h₁ => ?_
  · obtain ⟨_, _, _, hkeeps⟩ := closeTarget_keeps (w := w) (r := { r with source := none })
    exact ⟨_, _, _, _, _, _, _, hkeeps⟩
  · refine of_andThen (P := P) ?_ fun r₂ h₂ => ?_
    · obtain ⟨_, _, _, hkeeps⟩ := closePrimary_keeps (w := w) (r := r₁)
      obtain ⟨_, _, _, _, _, _, _, rfl⟩ := h₁
      exact ⟨_, _, _, _, _, _, _, hkeeps⟩
    · split
      · refine of_andThen (P := P) ?_ fun r₃ h₃ => hreport false h₃
        obtain ⟨_, _, hkeeps⟩ := replaceTable_filesOnly (s := s) (w := w) (r := r₂)
        obtain ⟨_, _, _, _, _, _, _, rfl⟩ := h₂
        exact ⟨_, _, _, _, _, _, _, hkeeps⟩
      · exact hreport _ h₂

/-- Finishing a run adds nothing to its history. -/
theorem finish_history (s : Setup) (w : Services) (r : Run) :
    (r.finish s w).1.history = r.history := by
  obtain ⟨_, _, _, _, _, _, _, hkeeps⟩ := r.finish_keeps s w
  rw [hkeeps]

theorem report_phase (r : Run) (discarded : Bool) : (r.report discarded).phase = .done := by
  obtain ⟨sent, hkeeps⟩ := r.report_keeps discarded
  rw [hkeeps]

theorem report_files (r : Run) (discarded : Bool) : (r.report discarded).files = r.files := by
  obtain ⟨sent, hkeeps⟩ := r.report_keeps discarded
  rw [hkeeps]

theorem finish_phase (h : r.finish s w = (r', .ok ())) : r'.phase = .done := by
  have hfinished := r.finish_cases s w
  rw [h] at hfinished
  generalize hresult : (r', Except.ok ()) = result at hfinished
  cases hfinished with
  | replaced _ _ _ _ =>
    cases hresult
    exact report_phase _ _
  | kept _ _ _ =>
    cases hresult
    exact report_phase _ _
  | _ => cases hresult

/-! ## Steps -/

/-- What a run does where it acts without failing, by the phase that it is in, with the
    phase that comes after it. -/
inductive Acted (s : Setup) (w : Services) (r : Run) : Run → Prop where
  | start {r' : Run} (hphase : r.phase = .start) (h : r.start s w = (r', .ok ()))
      (hnext : r'.phase = .prepare) : Acted s w r r'
  | prepare {r' : Run} (hphase : r.phase = .prepare) (h : r.prepare s w = (r', .ok ()))
      (hnext : r'.phase = .gather) : Acted s w r r'
  | gather {r' : Run} (hphase : r.phase = .gather) (h : r.gather s w = (r', .ok ()))
      (hnext : r'.phase = .gather ∨ r'.phase = .drain) : Acted s w r r'
  | drain (hphase : r.phase = .drain)
      (hnext : (r.drain s w).phase = .drain ∨ (r.drain s w).phase = .finish) :
      Acted s w r (r.drain s w)
  | finish {r' : Run} (hphase : r.phase = .finish) (h : r.finish s w = (r', .ok ()))
      (hnext : r'.phase = .done) : Acted s w r r'
  /-- A run that is over stays as it is. -/
  | done (hphase : r.phase = .done) : Acted s w r r

theorem act_cases (h : r.act s w = (r', .ok ())) : Acted s w r r' := by
  unfold act at h
  split at h
  · next hphase => exact .start hphase h (start_phase h)
  · next hphase => exact .prepare hphase h (prepare_phase h)
  · next hphase => exact .gather hphase h (gather_phase hphase h)
  · next hphase =>
    cases h
    exact .drain hphase (drain_phase hphase)
  · next hphase => exact .finish hphase h (finish_phase h)
  · next hphase =>
    cases h
    exact .done hphase

/-- What fails where a run fails: doing what is left to do does not, nor does a run that
    is over. -/
inductive Faulted (s : Setup) (w : Services) (r : Run) (failure : Failure) (r' : Run) : Prop where
  | start (hphase : r.phase = .start) (h : r.start s w = (r', .error failure))
  | prepare (hphase : r.phase = .prepare) (h : r.prepare s w = (r', .error failure))
  | gather (hphase : r.phase = .gather) (h : r.gather s w = (r', .error failure))
  | finish (hphase : r.phase = .finish) (h : r.finish s w = (r', .error failure))

theorem act_error_cases {failure : Failure} (h : r.act s w = (r', .error failure)) :
    Faulted s w r failure r' := by
  unfold act at h
  split at h
  · next hphase => exact .start hphase h
  · next hphase => exact .prepare hphase h
  · next hphase => exact .gather hphase h
  · cases h
  · next hphase => exact .finish hphase h
  · cases h

/-- What ends a run is finishing it. -/
theorem finish_of_done (h : r.act s w = (r', .ok ())) (hgoing : r.phase ≠ .done)
    (hdone : r'.phase = .done) : r.phase = .finish ∧ r.finish s w = (r', .ok ()) := by
  cases act_cases h with
  | start _ _ hnext => cases hnext.symm.trans hdone
  | prepare _ _ hnext => cases hnext.symm.trans hdone
  | gather _ _ hnext => rcases hnext with hnext | hnext <;> cases hnext.symm.trans hdone
  | drain _ hnext => rcases hnext with hnext | hnext <;> cases hnext.symm.trans hdone
  | finish hphase h _ => exact ⟨hphase, h⟩
  | done hphase => exact absurd hphase hgoing

end Run

end SongLibrary.Reconcile
