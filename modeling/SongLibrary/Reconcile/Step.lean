/-
  The steps of a run.

  A run opens its tables, finds out where candidates come from, looks at
  candidates and does jobs, does the jobs that are left, and closes its tables.
  `Run.step` does a slice of that.  A step fails only when a table does; then the
  failure is reported and the run is over.
-/
import SongLibrary.FileTree.Walk
import SongLibrary.Reconcile.Candidate
import SongLibrary.Reconcile.Job

namespace SongLibrary.Reconcile.Run

variable (s : Setup) (w : Services) (r : Run)

/-! ## Files of tables -/

/-- Open the table in a file. -/
def openTable (path : Path) : Run × Except Failure OpenTable :=
  let failure := Failure.context ("opening database " ++ path.shown) .database
  if w.tableFails r.moment then (r.asked, .error failure)
  else
    match r.files.openTable path with
    | (files, none) => ({ r.asked with files }, .error failure)
    | (files, some table) =>
      let location := r.files.tableFile? path
      let r := { r.asked with files }
      if w.tableFails r.moment then (r.asked, .error .database)
      else (r.asked, .ok ⟨path, location, table⟩)

/-- Write a table into its file. -/
def commit (t : OpenTable) : Run × Except Failure Unit :=
  if w.tableFails r.moment then
    (r.asked, .error (.context ("committing " ++ t.path.shown) .database))
  else
    match t.location with
    | none => (r.asked, .ok ())
    | some l => ({ r.asked with files := r.files.keepTable l t.table }, .ok ())

/-- Remove a file, if it is there. -/
def removeFile (path : Path) : Run × Except Failure Unit :=
  let removed : Except Fault FileTree := match w.fileFault? r.moment with
    | some fault => .error fault
    | none => r.files.removeFile path
  match removed with
  | .ok files => ({ r.asked with files }, .ok ())
  | .error .notFound => (r.asked, .ok ())
  | .error fault => (r.asked, .error (.context ("removing " ++ path.shown) (.io fault)))

/-- Forget the changes of a table, and remove its file. -/
def discard (t : OpenTable) : Run × Except Failure Unit :=
  if w.tableFails r.moment then (r.asked, .error .database)
  else r.asked.removeFile w t.path

/-- Put the new table in the place of the old one. -/
def replaceTable : Run × Except Failure Unit :=
  let renamed : Except Fault FileTree := match w.fileFault? r.moment with
    | some fault => .error fault
    | none => r.files.rename s.newDatabasePath s.databasePath
  match renamed with
  | .ok files => ({ r.asked with files }, .ok ())
  | .error fault =>
    (r.asked, .error (.context ("replacing " ++ s.databasePath.shown) (.io fault)))

/-! ## Opening the tables -/

/-- Open a new table in the place of what an earlier run left. -/
def openTarget : Run × Except Failure Unit :=
  match r.removeFile w s.newDatabasePath with
  | (r, .error failure) => (r, .error failure)
  | (r, .ok ()) =>
    match r.removeFile w (s.newDatabasePath.addSuffix "-journal") with
    | (r, .error failure) => (r, .error failure)
    | (r, .ok ()) =>
      match r.openTable w s.newDatabasePath with
      | (r, .error failure) => (r, .error failure)
      | (r, .ok table) => ({ r with target := some table }, .ok ())

/-- Open the table of the library. -/
def openPrimary : Run × Except Failure Unit :=
  match r.openTable w s.databasePath with
  | (r, .error failure) => (r, .error failure)
  | (r, .ok table) => ({ r with primary := some table, phase := .prepare }, .ok ())

/-- Open the tables. -/
def start : Run × Except Failure Unit :=
  if s.mode.isDestructive then
    match r.openTarget s w with
    | (r, .error failure) => (r, .error failure)
    | (r, .ok ()) => r.openPrimary s w
  else r.openPrimary s w

/-! ## Preparing -/

/-- The id of the first song that a copying run adds. -/
def chooseNextId : Run × Except Failure Unit :=
  match s.mode with
  | .compact _ =>
    if w.tableFails r.moment then (r.asked, .error .database)
    else
      match r.primary with
      | none => (r.asked, .error .database)
      | some primary => ({ r.asked with nextId := some (primary.table.maxId + 1) }, .ok ())
  | _ => (r, .ok ())

/-- The number of songs that a page of the table has. -/
def pageSize : Nat := 200

/-- Find out where candidates come from. -/
def openSource : Run × Except Failure Unit :=
  if r.stopped then (r, .ok ())
  else
    match s.mode.origin with
    | .fileTree =>
      let paths := r.files.walk s.root
      ({ r with source := some (.files paths), total := paths.length }, .ok ())
    | .table order =>
      if w.tableFails r.moment then (r.asked, .error .database)
      else
        match r.primary with
        | none => (r.asked, .error .database)
        | some primary =>
          let visit := primary.table.visit order pageSize
          ({ r.asked with source := some (.table visit), total := visit.total }, .ok ())

/-- Find out where candidates come from, and report that nothing is done. -/
def prepare : Run × Except Failure Unit :=
  match r.chooseNextId s w with
  | (r, .error failure) => (r, .error failure)
  | (r, .ok ()) =>
    match r.openSource s w with
    | (r, .error failure) => (r, .error failure)
    | (r, .ok ()) => ({ r.send (.progress 0) with phase := .gather }, .ok ())

/-! ## Candidates and jobs -/

/-- Look at candidates, and do a job. -/
def gather : Run × Except Failure Unit :=
  match pull s w s.batch r with
  | (r, .error failure) => (r, .error failure)
  | (r, .ok ()) =>
    let r := if r.source.isNone then { r with phase := .drain } else r
    ((r.performNext s w).reportProgress, .ok ())

/-- Do a job that is left. -/
def drain : Run :=
  if r.queue.isEmpty then { r with phase := .finish } else (r.performNext s w).reportProgress

/-! ## Closing the tables -/

/-- Close the new table: keep it, or forget it if the run was stopped before it
    saw every candidate. -/
def closeTarget : Run × Except Failure Unit :=
  match r.target with
  | none => (r, .ok ())
  | some target =>
    let r := { r with target := none }
    if r.stopped then r.discard w target else r.commit w target

/-- Close the table of the library. -/
def closePrimary : Run × Except Failure Unit :=
  match r.primary with
  | none => (r, .ok ())
  | some primary => { r with primary := none }.commit w primary

/-- Report the counters and how the run ended. -/
def report (discarded : Bool) : Run :=
  let counters := r.counters.raise .queueHighWater (.ofNat r.queue.highWater)
  let r := counters.summary.foldl (fun r line => r.send (.status line)) { r with counters }
  let r :=
    if discarded then r.send (.status "Stopped by user, database unchanged")
    else if r.stopped then r.send (.status "Stopped by user")
    else (r.send (.progress 1)).send (.status "Complete")
  { r.send .finish with phase := .done }

/-- Close the tables, and report. -/
def finish : Run × Except Failure Unit :=
  let hasTarget := r.target.isSome
  match { r with source := none }.closeTarget w with
  | (r, .error failure) => (r, .error failure)
  | (r, .ok ()) =>
    match r.closePrimary w with
    | (r, .error failure) => (r, .error failure)
    | (r, .ok ()) =>
      if hasTarget && !r.stopped then
        match r.replaceTable s w with
        | (r, .error failure) => (r, .error failure)
        | (r, .ok ()) => (r.report false, .ok ())
      else (r.report hasTarget, .ok ())

/-! ## Steps -/

/-- Whether a run is over. -/
inductive Progress where
  | continue
  | done
  deriving DecidableEq, Repr

/-- What the phase of a run asks for. -/
def act : Run × Except Failure Unit :=
  match r.phase with
  | .start => r.start s w
  | .prepare => r.prepare s w
  | .gather => r.gather s w
  | .drain => (r.drain s w, .ok ())
  | .finish => r.finish s w
  | .done => (r, .ok ())

/-- Whether the run is over. -/
def progress : Progress :=
  if r.phase = .done then .done else .continue

/-- Report a failure and end the run. -/
def fail (failure : Failure) : Run :=
  { (r.send (.status ("Failed: " ++ failure.message))).send .finish with phase := .done }

/-- Do a slice of work. -/
def step : Run × Except Failure Progress :=
  match r.act s w with
  | (r, .ok ()) => (r, .ok r.progress)
  | (r, .error failure) => (r.fail failure, .error failure)

end SongLibrary.Reconcile.Run
