/-
  The state of a run.

  * `Setup` is what is settled before a run begins;
  * `Run` is the state between two steps: the files, the phase, the counters,
    the queue of jobs, the tables that are open, where candidates come from, and
    the messages sent;
  * `Run.requestStop` makes a run take no more candidates.  Jobs in the queue
    are still done.
-/
import SongLibrary.Classifier
import SongLibrary.Reconcile.Counters
import SongLibrary.Reconcile.Message
import SongLibrary.Reconcile.Mode
import SongLibrary.Reconcile.Queue
import SongLibrary.Reconcile.Services
import SongLibrary.SongTable.File
import SongLibrary.Template.Basic

namespace SongLibrary.Reconcile

/-! ## What is settled before -/

/-- What is settled before a run begins. -/
structure Setup where
  mode : Mode
  musicDir : Path
  databasePath : Path
  /-- The directory to scan in place of the music directory. -/
  scanDir : Option Path := none
  /-- Whether files are moved to their places when they are added. -/
  autoOrganize : Bool
  /-- The number of candidates taken in a step. -/
  batch : Nat
  queueLimit : Nat
  template : Template
  /-- The template that paths are read with, if it is another. -/
  oldTemplate : Option Template
  sanitizer : Sanitizer
  refs : ReferenceData
  classifier : Classifier

namespace Setup

/-- What a configuration settles. -/
def of (config : Config) (mode : Mode) (musicDir databasePath : Path) (scanDir : Option Path)
    (platform : Platform) : Setup :=
  let template := Template.compile config.library.orgPath
  { mode, musicDir, databasePath, scanDir, template
    autoOrganize := config.library.autoOrganize
    batch := max config.reconcile.filenameBatch 1
    queueLimit := config.reconcile.queueLimit
    oldTemplate :=
      if template.mentions .bypass then config.library.bypassOrgPath.map Template.compile else none
    sanitizer := { platform }
    refs := config.reference
    classifier := .new config.library musicDir platform }

variable (s : Setup)

/-- The directory that is scanned. -/
def root : Path := s.scanDir.getD s.musicDir

/-- The template that paths are read with. -/
def readingTemplate : Template := s.oldTemplate.getD s.template

/-- The path of the table that a destructive run writes. -/
def newDatabasePath : Path := s.databasePath.addSuffix ".new"

end Setup

/-! ## The state -/

/-- What a run does next. -/
inductive Phase where
  /-- Open the tables. -/
  | start
  /-- Find out where candidates come from. -/
  | prepare
  /-- Look at candidates, and do jobs. -/
  | gather
  /-- Do the jobs that are left. -/
  | drain
  /-- Close the tables, and report. -/
  | finish
  | done
  deriving DecidableEq, Repr

/-- A file that may have to be dealt with. -/
structure Candidate where
  path : Path
  key : String
  /-- The record, if the candidate comes from the table. -/
  record : Option Song

/-- A file that has to be dealt with. -/
structure Job where
  path : Path
  key : String
  /-- The path of the file from the directory that is scanned. -/
  relative : String
  /-- The record there is for the file. -/
  existing : Option Song
  deriving DecidableEq

/-- Where candidates come from. -/
inductive Source where
  | files (paths : List Path)
  | table (visit : SongTable.Visit)

/-- A table with the changes of a run, which the file has only in the end. -/
structure OpenTable where
  path : Path
  /-- Where its file is, if it has one. -/
  location : Option Location
  table : SongTable

/-- What a run has done so far, the last first.  Nothing a run does depends on
    it. -/
structure History where
  /-- The candidates found. -/
  found : List Candidate := []
  /-- The jobs taken out of the queue. -/
  taken : List Job := []
  /-- The files moved, each with its new place. -/
  moves : List (Path × Path) := []
  /-- The rows written to the new table. -/
  written : List Row := []

/-- The state of a run. -/
structure Run where
  files : FileTree
  phase : Phase := .start
  counters : Counters := .zero
  queue : Queue Job
  /-- The table of the library. -/
  primary : Option OpenTable := none
  /-- The new table of a destructive run. -/
  target : Option OpenTable := none
  source : Option Source := none
  /-- The number of candidates there will be. -/
  total : Nat := 0
  /-- The location of the record copied last. -/
  lastCopied : Option String := none
  /-- The id of the next song that a copying run adds. -/
  nextId : Option Int64 := none
  /-- The progress reported last. -/
  reported : Float := 0
  stopped : Bool := false
  /-- The messages sent so far. -/
  sent : List Message := []
  /-- The number of questions asked so far. -/
  moment : Nat := 0
  history : History := {}

namespace Run

/-- A run that has not begun. -/
def new (s : Setup) (files : FileTree) : Run :=
  { files, queue := .empty s.queueLimit }

variable (r : Run)

/-- Count one more. -/
def count (counter : Counter) : Run :=
  { r with counters := r.counters.increment counter }

/-- Count a candidate as skipped. -/
def skip (reason : Counter) : Run :=
  { r with counters := r.counters.skip reason }

/-- Send a message. -/
def send (message : Message) : Run :=
  { r with sent := r.sent ++ [message] }

/-- Take note that a question was asked. -/
def asked : Run :=
  { r with moment := r.moment + 1 }

/-- Take no more candidates. -/
def requestStop : Run :=
  if r.stopped then r
  else { r with stopped := true, queue := r.queue.close, source := none }

/-- Add a song to the new table. -/
def addToTarget (song : Song) : Option Run := do
  let target ← r.target
  let (id, table) ← target.table.insert? song
  return { r with
    target := some { target with table }
    history.written := song.row id :: r.history.written }

/-- React to a message from the managing process. -/
def control (message : Control) : Run :=
  if message.stops then r.requestStop else r

/-- React to several messages. -/
def controls (messages : List Control) : Run :=
  messages.foldl control r

/-- Report the progress of a run, if it is a hundredth more than last time. -/
def reportProgress : Run :=
  if r.total = 0 then r
  else
    let part := r.counters.settled.toFloat / r.total.toFloat
    let part := if part > 1 then 1 else part
    let isDue := decide (part - r.reported ≥ 0.01)
    { r with
      reported := if isDue then part else r.reported
      sent := if isDue then r.sent ++ [.progress part] else r.sent }

end Run

end SongLibrary.Reconcile
