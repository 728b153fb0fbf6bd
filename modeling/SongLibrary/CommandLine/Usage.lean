/-
  What the program says about its arguments: how it is used, and why arguments
  are no command (`Fault.message`).
-/
import SongLibrary.CommandLine.Arguments

namespace SongLibrary.CommandLine

/-- How the program is used. -/
def usage : String :=
  "Usage: songkeeper <COMMAND>\n\n" ++
  "Commands:\n" ++
  "  update   Reconcile the song database with the music directory\n" ++
  "  preview  Show where a file would be organized to\n" ++
  "  config   Show the configuration\n" ++
  "  help     Print this message\n"

/-- The version of the program. -/
def versionText : String :=
  "songkeeper 0.1.0"

/-- Whether arguments ask for what the program says about itself. -/
def Fault.isQuestion : Fault → Bool
  | .help | .version => true
  | _ => false

/-- What the program says to arguments that are no command. -/
def Fault.message : Fault → String
  | .help => usage
  | .version => versionText
  | .noArguments => usage
  | .unknownCommand => "unrecognized subcommand"
  | .unknownArgument => "unexpected argument found"
  | .missingArgument => "a required argument was not provided"
  | .repeatedArgument => "an argument cannot be used multiple times"
  | .invalidMode => "invalid value for '--mode'"
  | .missingValue => "a value is required but none was supplied"
  | .unwantedValue => "unexpected value for a flag"

end SongLibrary.CommandLine
