/-
  What the commands of the program do.

  `Command.perform` carries out a command on the files there are: what becomes of
  them, what is printed, and whether it failed.
-/
import SongLibrary.CommandLine.Arguments
import SongLibrary.Config.File
import SongLibrary.Placement
import SongLibrary.Reconcile.Drive

namespace SongLibrary.CommandLine

open Reconcile (Control Mode Run Services Setup)

/-- What a command finds around it. -/
structure Surroundings where
  files : FileTree
  /-- The file of the configuration, if there is a directory for it. -/
  configPath : Option Path
  platform : Platform := .linux
  /-- The time, at each moment of a run. -/
  now : Nat → String
  /-- The messages of the managing process that have arrived. -/
  arrived : List Control := []

/-- What a command leads to. -/
structure Outcome where
  files : FileTree
  /-- The text that is printed. -/
  output : String := ""
  /-- Why the command failed, if it did. -/
  failure : Option String := none

namespace Surroundings

variable (env : Surroundings)

/-- The configuration. -/
def config : Config :=
  (env.configPath.map env.files.loadConfig).getD {}

/-- Lines that are printed. -/
def prints (lines : List String) : Outcome :=
  { files := env.files, output := String.join (lines.map (· ++ "\n")) }

/-- A failure that leaves the files as they are. -/
def fails (message : String) : Outcome :=
  { files := env.files, failure := some message }

/-! ## Updating -/

/-- The track list in a file. -/
def loadTracks (path : Path) : Except Failure TrackList :=
  let failure := fun fault => Failure.context ("reading iTunes export " ++ path.shown) (.io fault)
  match env.files.read path with
  | .error fault => .error (failure fault)
  | .ok (.text s) => match TrackList.parse? s with
    | some tracks => .ok tracks
    | none => .error .invalidExport
  | .ok _ => .error (failure .notText)

/-- The track list of an update: none is empty. -/
def tracks (path : Option String) : Except Failure TrackList :=
  match path with
  | none => .ok {}
  | some path => env.loadTracks (.ofString path)

/-- The mode of an update: a flag decides whether compacting looks for new
    files. -/
def effectiveMode (mode : Mode) (checkNew : Bool) : Mode :=
  match mode with
  | .compact _ => .compact checkNew
  | mode => mode

/-- What an update settles before it begins: its setup and its track list. -/
def planUpdate (mode : Mode) (checkNew : Bool) (scanDir musicDir database tracks : Option String) :
    Except String (Setup × TrackList) :=
  let c := env.config
  match musicDir.or c.library.musicDir with
  | none => .error "no music directory: pass --music-dir or set library.music_dir"
  | some dir =>
    match env.tracks tracks with
    | .error failure => .error failure.message
    | .ok tracks =>
      let database := Path.ofString (database.getD c.library.databasePath)
      .ok (Setup.of c (effectiveMode mode checkNew) (.ofString dir) database
        (scanDir.map Path.ofString) env.platform, tracks)

/-- Carry out an update that is settled. -/
def update (s : Setup) (tracks : TrackList) : Outcome :=
  let (r, result) :=
    Run.complete s (Services.forAudio tracks env.now) env.arrived (Run.new s env.files)
  { files := r.files
    output := String.join (r.sent.map fun message => message.line ++ "\n")
    failure := match result with
      | .ok _ => none
      | .error failure => some failure.message }

/-! ## Previewing -/

/-- Show the place of a file. -/
def preview (path : Path) (musicDir : Option Path) : Outcome :=
  let c := env.config
  let musicDir := (musicDir.or (c.library.musicDir.map Path.ofString)).or path.parent?
  match (env.files.read path).toOption.bind (·.audioAt? path) with
  | some file =>
    let placement := c.preview env.platform (musicDir.getD (.ofString "")) path file.parsed.tags
    env.prints (placement.destination.shown ::
      if placement.moves then [] else ["(already organized)"])
  | none => env.fails (Failure.metadata path.shown "no tags can be read").message

/-! ## The configuration -/

/-- Write the configuration into its file. -/
def writeConfig : Outcome :=
  match env.configPath with
  | none => env.fails "Could not determine config directory"
  | some path =>
    match env.files.saveConfig path env.config with
    | (files, .ok ()) => { env with files }.prints ["Wrote " ++ path.shown]
    | (files, .error failure) => { env with files }.fails failure.message

/-- Show the configuration. -/
def showConfig : Outcome :=
  let place := (env.configPath.map Path.shown).getD "no config directory"
  match env.config.write? with
  | none => env.fails "serializing config"
  | some text => { files := env.files, output := "# " ++ place ++ "\n" ++ text }

end Surroundings

/-- Carry out a command. -/
def Command.perform (command : Command) (env : Surroundings) : Outcome :=
  match command with
  | .update mode checkNew scanDir musicDir database tracks =>
    match env.planUpdate mode checkNew scanDir musicDir database tracks with
    | .error message => env.fails message
    | .ok (s, tracks) => env.update s tracks
  | .preview path musicDir => env.preview (.ofString path) (musicDir.map Path.ofString)
  | .config write => if write then env.writeConfig else env.showConfig

end SongLibrary.CommandLine
