/-
  Configurations in files.

  * `FileTree.loadConfig` reads a file; whatever goes wrong, the default
    configuration takes its place;
  * `FileTree.saveConfig` writes a file by way of another beside it, so that what
    was there is replaced as a whole.
-/
import SongLibrary.Config.Read
import SongLibrary.Config.Write
import SongLibrary.FileTree.Change

namespace SongLibrary

/-- Why a configuration is not saved. -/
inductive SaveFailure where
  /-- The directory could not be created. -/
  | createDirectory (directory : Path) (fault : Fault)
  /-- A number is out of range. -/
  | serialize
  /-- The file beside could not be written. -/
  | write (file : Path) (fault : Fault)
  /-- The file beside could not take the place. -/
  | rename (file target : Path) (fault : Fault)

/-- The wording of a failure. -/
def SaveFailure.message : SaveFailure → String
  | createDirectory directory fault =>
    "Failed to create config directory " ++ directory.shown ++ ": " ++ fault.message
  | serialize => "Failed to serialize config"
  | write file fault => "Failed to write config to " ++ file.shown ++ ": " ++ fault.message
  | rename file target fault =>
    "Failed to rename temp file " ++ file.shown ++ " to " ++ target.shown ++ ": " ++ fault.message

namespace FileTree

variable (t : FileTree)

/-- The configuration in a file. -/
def loadConfig (p : Path) : Config :=
  match t.read p with
  | .ok (.text s) => (Config.parse? s).getD {}
  | _ => {}

/-- Create the directory of a file. -/
def createConfigDirectory (p : Path) : FileTree × Except SaveFailure Unit :=
  match p.parent? with
  | none => (t, .ok ())
  | some dir =>
    match t.createDirectories dir with
    | (t, .ok ()) => (t, .ok ())
    | (t, .error fault) => (t, .error (.createDirectory dir fault))

/-- Save a configuration in a file. -/
def saveConfig (p : Path) (config : Config) : FileTree × Except SaveFailure Unit :=
  match t.createConfigDirectory p with
  | (t, .error failure) => (t, .error failure)
  | (t, .ok ()) =>
    let beside := p.withExtension "toml.tmp"
    match config.write? with
    | none => (t, .error .serialize)
    | some text =>
      match t.write beside (.text text) with
      | .error fault => (t, .error (.write beside fault))
      | .ok t =>
        match t.rename beside p with
        | .error fault => (t, .error (.rename beside p fault))
        | .ok t => (t, .ok ())

end FileTree

end SongLibrary
