/-
  Looking at candidates.

  `Run.classify` settles a candidate at once or puts a job into the queue.  A
  candidate is skipped for a reason of the classifier, or because its file is
  missing; one that has a record is settled where a run adds files, and copied
  where a run copies records; and a file with a bad name is skipped.
-/
import SongLibrary.Location
import SongLibrary.Reconcile.Run

namespace SongLibrary.Reconcile

/-- The counter of a reason to leave a file out. -/
def SkipReason.counter : SkipReason → Counter
  | .nonAudio => .skipNonAudio
  | .originalBackup => .skipOriginalBackup
  | .markedDeleted => .skipDeleted
  | .legacyDirectory => .skipLegacyDirectory

namespace Run

variable (s : Setup) (w : Services) (r : Run)

/-- The next candidate, if there is one. -/
def nextCandidate : Run × Except Failure (Option Candidate) :=
  match r.source with
  | none | some (.files []) => (r, .ok none)
  | some (.files (path :: paths)) =>
    ({ r with source := some (.files paths) }, .ok (some ⟨path, keyOf s.musicDir path, none⟩))
  | some (.table visit) =>
    if visit.needsPage && w.tableFails r.moment then (r.asked, .error .database)
    else
      match r.primary with
      | none => (r, .error .database)
      | some primary =>
        let r := if visit.needsPage then r.asked else r
        match visit.next primary.table with
        | (none, visit) => ({ r with source := some (.table visit) }, .ok none)
        | (some song, visit) =>
          ({ r with source := some (.table visit) },
            .ok (some ⟨resolve s.musicDir song.uri, song.uri, some song⟩))

/-- The record of a candidate: its own, or the one the table has. -/
def existingRecord (c : Candidate) : Run × Except Failure (Option Song) :=
  if s.mode = .rebuild then (r, .ok none)
  else
    match c.record with
    | some song => (r, .ok (some song))
    | none =>
      if w.tableFails r.moment then (r.asked, .error .database)
      else
        match r.primary with
        | none => (r.asked, .error .database)
        | some primary => (r.asked, .ok (primary.table.songAt? c.key))

/-- Copy a record into the new table, unless the record copied last has the same
    location. -/
def copyRecord (song : Song) : Run :=
  if r.lastCopied = some song.uri then r.count .processed
  else
    let r := { r with lastCopied := some song.uri }
    let copied := if w.tableFails r.moment then none else r.asked.addToTarget song
    match copied with
    | some r => r.count .processed
    | none => (r.asked.count .bad).count .processed

/-- Put a job for a candidate into the queue, unless its name is bad. -/
def enqueue (c : Candidate) (existing : Option Song) : Run :=
  if s.classifier.isBadName c.path then r.skip .badFileName
  else
    match r.queue.push ⟨c.path, c.key, pathFrom s.root c.path, existing⟩ with
    | none => r
    | some queue =>
      let r := { r with queue }.count .queued
      { r with counters := r.counters.raise .queueHighWater (.ofNat queue.highWater) }

/-- Settle a candidate that is to be kept, or put a job for it into the queue. -/
def settle (c : Candidate) (existing : Option Song) : Run :=
  match existing, s.mode with
  | none, _ => r.enqueue s c none
  | some _, .checkNew => (r.count .alreadyInTable).count .processed
  | some song, .compact _ => (r.count .alreadyInTable).copyRecord w song
  | some song, _ => (r.count .alreadyInTable).enqueue s c (some song)

/-- Settle a candidate, or put a job for it into the queue. -/
def classify (c : Candidate) : Run × Except Failure Unit :=
  let r := { r with history.found := c :: r.history.found }.count .found
  match s.classifier.skipReason? c.path c.record.isNone with
  | some reason => (r.skip (SkipReason.counter reason), .ok ())
  | none =>
    if c.record.isSome && !r.files.pathExists c.path then (r.skip .missing, .ok ())
    else
      match r.existingRecord s w c with
      | (r, .error failure) => (r, .error failure)
      | (r, .ok existing) => (r.settle s w c existing, .ok ())

/-- Take candidates, `n` at most, while the queue has room. -/
def pull : Nat → Run → Run × Except Failure Unit
  | 0, r => (r, .ok ())
  | n + 1, r =>
    if !r.queue.hasRoom then (r, .ok ())
    else
      match r.nextCandidate s w with
      | (r, .error failure) => (r, .error failure)
      | (r, .ok none) => ({ r with source := none }, .ok ())
      | (r, .ok (some c)) =>
        match r.classify s w c with
        | (r, .error failure) => (r, .error failure)
        | (r, .ok ()) => pull n r

end Run

end SongLibrary.Reconcile
