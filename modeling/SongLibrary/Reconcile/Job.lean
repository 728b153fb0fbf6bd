/-
  Doing a job.

  A job reads the tags of a file into its record, writes the record's tags into
  the file, takes over fields of the track list, or moves the file, as the mode
  of the run says.  Whatever goes wrong is counted and stays with the one file;
  in the end the file is counted once, as processed or skipped.
-/
import SongLibrary.Reconcile.Derive
import SongLibrary.Reconcile.Run
import SongLibrary.Template.Rendering

namespace SongLibrary.Reconcile

/-- Whether a path names a file: its last part is not empty and does not begin
    with a dot. -/
def isUsable (relative : String) : Bool :=
  match (relative.toList.splitOn '/').getLast? with
  | none | some [] => false
  | some (c :: _) => c != '.'

/-- The piece of a path that `%BYPASS%` stands for, if the template has it. -/
def Setup.bypass? (s : Setup) (relative : String) : Option String :=
  if s.template.mentions .bypass then s.readingTemplate.extractBypass? relative else none

namespace Run

variable (s : Setup) (w : Services) (r : Run)

/-! ## Storing -/

/-- The song with the next id, if it has none and a copying run has one. -/
def assignId (song : Song) : Song × Run :=
  match song.id, r.nextId with
  | none, some id => ({ song with id := some id }, { r with nextId := some (id + 1) })
  | _, _ => (song, r)

/-- Save a song in the table of the library. -/
def saveToPrimary (song : Song) : Option Run := do
  let primary ← r.primary
  let (_, table) ← primary.table.save? song
  return { r with primary := some { primary with table } }

/-- Store a song in the table that the run writes, unless that fails. -/
def storeIn (song : Song) : Option Run :=
  if w.tableFails r.moment then none
  else if r.target.isSome then r.asked.addToTarget song
  else r.asked.saveToPrimary song

/-- Store a song in the table that the run writes.  `existed` tells whether the
    table of the library has a record of it. -/
def store (song : Song) (existed : Bool) : Run :=
  let (song, r) := if r.target.isSome then r.assignId song else (song, r)
  match r.storeIn w song with
  | some r => r.count (if existed then .updated else .new)
  | none => r.asked.count .bad

/-! ## Moving -/

/-- Move a file to its place, and point its record there.  A record may ask that
    its file stay, which `force` overrides. -/
def rename (song : Song) (path : Path) (bypass : Option String) (force : Bool) : Song × Run :=
  if song.preventRename && !force then (song, r)
  else
    let relative := s.template.render s.refs song bypass s.sanitizer
    if !isUsable relative then (song, r.count .bad)
    else if relative = song.uri then (song, r)
    else
      match w.move r.moment r.files path s.musicDir relative with
      | (files, .ok place) =>
        ({ song with uri := relative },
          { r.asked with files, history.moves := (path, place) :: r.history.moves }.count .renamed)
      | (files, .error _) => (song, { r.asked with files }.count .renameFailed)

/-! ## Reading tags -/

/-- Read the tags of a file. -/
def readTags (path : Path) : Option ParsedTags × Run :=
  match r.files.read path with
  | .error _ => (none, r)
  | .ok content => ((w.readTags r.moment path content).toOption, r.asked)

/-- The record that the tags of a file are read into: the one there is, or a new
    one. -/
def recordFor (job : Job) (existing : Option Song) : Song × Run :=
  match existing with
  | some song => ({ song with uri := job.key }, r)
  | none => (Song.new job.key (w.now r.moment), r.asked)

/-- Read the tags of a file into its record. -/
def updateFromFile (job : Job) : Run :=
  match r.readTags w job.path with
  | (none, r) => r.skip .noTags
  | (some parsed, r) =>
    if parsed.isEmpty then r.skip .noTags
    else
      let existing := if s.mode = .rebuild then none else job.existing
      let (song, r) := r.recordFor w job existing
      let song :=
        fillDerived s.refs s.readingTemplate job.relative { song with tags := parsed.tags }
      let (song, r) :=
        if s.autoOrganize && s.mode.allowsMoves then
          r.rename s w song job.path (s.bypass? job.relative) false
        else (song, r)
      let r := if existing = some song then r else r.store w song existing.isSome
      r.count .processed

/-! ## Writing tags -/

/-- Write the tags of a record into a file whose tags are given. -/
def writeInto (path : Path) (desired : TagMap) (parsed : ParsedTags) : Run :=
  match r.files.read path with
  | .error _ => r.count .bad
  | .ok content =>
    match w.writeTags r.moment path content desired parsed.tags parsed.needsRewrite with
    | .error _ => r.asked.count .bad
    | .ok (0, _) => r.asked
    | .ok (_ + 1, content) =>
      match r.files.write path content with
      | .error _ => r.asked.count .bad
      | .ok files => { r.asked with files }.count .writtenTags

/-- Write the tags of a record into its file. -/
def writeTags (job : Job) : Run :=
  match job.existing with
  | none => r.count .processed
  | some song =>
    match r.readTags w job.path with
    | (none, r) => r.skip .noTags
    | (some parsed, r) => (r.writeInto w job.path song.tags parsed).count .processed

/-! ## Taking over fields of the track list -/

/-- The song with the value of the track list for a tag, if it is wanted, not
    empty and another. -/
def takeOver (song : Song) (field : TagKey × String) : Song :=
  if !field.2.isEmpty && w.wants field.1 && song.get? field.1 != some field.2 then
    song.set field.1 field.2
  else song

/-- The name of a file, as it is shown. -/
def nameOf (path : Path) : String :=
  (path.fileName?.map Name.shown).getD ""

/-- Take over what the track list has for a file. -/
def updateFromTracks (job : Job) : Run :=
  match job.existing with
  | none => r.count .processed
  | some existing =>
    match w.trackTags? r.moment (nameOf job.path) with
    | none => r.asked.count .processed
    | some fields =>
      let song := fields.toList.foldl (takeOver w) existing
      let r := r.asked
      let r := if song = existing then r else r.store w song true
      r.count .processed

/-! ## Moving on request -/

/-- Move a file to its place, even if its record asks that it stay. -/
def reorganize (job : Job) : Run :=
  match job.existing with
  | none => r.count .processed
  | some existing =>
    let (song, r) := r.rename s w existing job.path (s.bypass? job.relative) true
    let r := if song = existing then r else r.store w song true
    r.count .processed

/-! ## Any job -/

/-- Do a job. -/
def perform (job : Job) : Run :=
  match s.mode with
  | .writeTags => r.writeTags w job
  | .updateItunes => r.updateFromTracks w job
  | .reorganize => r.reorganize s w job
  | .rebuild | .checkNew | .compact _ | .updateTags => r.updateFromFile s w job

/-- Do the oldest job in the queue, if there is one. -/
def performNext : Run :=
  match r.queue.pop? with
  | none => r
  | some (job, queue) =>
    { r with queue, history.taken := job :: r.history.taken }.perform s w job

end Run

end SongLibrary.Reconcile
