/-
  The program.

  It carries out the command that its arguments ask for.  The first line of the
  standard input is a snapshot of the files; the lines after it are messages of
  the managing process that have arrived.  The standard output gets what the
  command prints, and then the snapshot after it in a line that begins with
  `FILES`.  The exit code is 0, 1 when the command failed, or 2 when the arguments
  or the snapshot cannot be used.
-/
import SongLibrary.CommandLine.Commands
import SongLibrary.CommandLine.Usage
import SongLibrary.Snapshot

open SongLibrary CommandLine

/-- Everything that comes from a stream. -/
def readAll (stream : IO.FS.Stream) : IO ByteArray := do
  let mut input := ByteArray.empty
  repeat
    let more ← stream.read 65536
    if more.isEmpty then break
    input := input ++ more
  return input

/-- Carry out a command on the files of a snapshot. -/
def performOn (command : Command) (s : Snapshot) (arrived : List Reconcile.Control) :
    IO UInt32 := do
  let outcome := command.perform {
    files := s.files
    configPath := s.configPath
    now := fun _ => s.now
    arrived }
  IO.print outcome.output
  IO.println ("FILES " ++ { s with files := outcome.files }.print)
  match outcome.failure with
  | none => return 0
  | some message => IO.eprintln ("Error: " ++ message); return 1

def main (args : List String) : IO UInt32 := do
  match Command.ofArguments (← IO.getEnv "SONGKEEPER_MUSIC_DIR") args with
  | .error fault =>
    if fault.isQuestion then IO.println fault.message; return 0
    else IO.eprintln fault.message; return 2
  | .ok command =>
    let input := (← readAll (← IO.getStdin)).toList
    let (snapshot, messages) := input.span (· != 10)
    match (Text.wholeText? snapshot).bind Snapshot.parse? with
    | none => IO.eprintln "Error: the first line is no snapshot"; return 2
    | some s => performOn command s (Reconcile.Control.ofInput (messages.drop 1))
