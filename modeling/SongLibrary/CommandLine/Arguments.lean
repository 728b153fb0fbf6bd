/-
  The arguments of the program.

  `Command.ofArguments` is the command that arguments ask for.  Arguments are
  read from left to right, and the first fault counts; but a value that an option
  takes from the next argument is checked only when the argument after that is
  known to be one, or there is none.
-/
import SongLibrary.Reconcile.Mode

namespace SongLibrary.CommandLine

open Reconcile (Mode)

/-- The commands of the program. -/
inductive Command where
  /-- Bring the table in step with the files. -/
  | update (mode : Mode) (checkNew : Bool) (scanDir musicDir database tracks : Option String)
  /-- Show the place of a file. -/
  | preview (path : String) (musicDir : Option String)
  /-- Show the configuration, or write it into its file. -/
  | config (write : Bool)
  deriving DecidableEq, Repr

/-- Why arguments are no command. -/
inductive Fault where
  /-- They ask for help. -/
  | help
  /-- They ask for the version. -/
  | version
  /-- There are none. -/
  | noArguments
  | unknownCommand
  | unknownArgument
  | missingArgument
  /-- A parameter is given twice. -/
  | repeatedArgument
  /-- A mode has no such name. -/
  | invalidMode
  /-- A value is missing, or an empty path. -/
  | missingValue
  /-- A flag is given a value. -/
  | unwantedValue
  deriving DecidableEq, Repr

/-- The names of the commands. -/
inductive CommandName where
  | update
  | preview
  | config
  deriving DecidableEq, Repr

/-- What can be given to a command. -/
inductive Parameter where
  | help
  | mode
  | checkNew
  | scanDir
  | musicDir
  | database
  | tracks
  | init
  /-- The file to preview, which is given without a name. -/
  | path
  deriving DecidableEq, Repr

namespace Parameter

/-- The names of parameters after two dashes. -/
def ofLong? : CommandName → String → Option Parameter
  | _, "help" => some help
  | .update, "mode" => some mode
  | .update, "check-new" => some checkNew
  | .update, "dir" => some scanDir
  | .update, "music-dir" => some musicDir
  | .update, "db" => some database
  | .update, "itunes" => some tracks
  | .preview, "music-dir" => some musicDir
  | .config, "init" => some init
  | _, _ => none

/-- The letters of parameters after one dash. -/
def ofShort? : CommandName → Char → Option Parameter
  | _, 'h' => some help
  | .update, 'm' => some mode
  | _, _ => none

/-- Whether a parameter takes a value. -/
def takesValue : Parameter → Bool
  | help | checkNew | init => false
  | mode | scanDir | musicDir | database | tracks | path => true

/-- Check the value of a parameter. -/
def check (p : Parameter) (value : String) : Except Fault Unit :=
  match p with
  | mode => match Mode.ofName value with
    | .ok _ => .ok ()
    | .error _ => .error .invalidMode
  | scanDir | musicDir | database | tracks | path =>
    if value.isEmpty then .error .missingValue else .ok ()
  | help | checkNew | init => .ok ()

end Parameter

/-! ## Reading -/

/-- The parameters read so far. -/
structure Reading where
  /-- Parameters with their checked values, each once. -/
  accepted : List (Parameter × String) := []
  /-- The last parameter, not checked yet; the next argument may be its value. -/
  pending : Option (Parameter × Option String) := none
  /-- Whether two dashes have ended the options. -/
  onlyPositions : Bool := false

namespace Reading

/-- Accept a parameter with the value it is given. -/
def accept (r : Reading) (p : Parameter) (value : Option String) : Except Fault Reading :=
  match p, value with
  | .help, _ => .error .help
  | p, none =>
    if p.takesValue then .error .missingValue
    else if (r.accepted.lookup p).isSome then .error .repeatedArgument
    else .ok { r with accepted := (p, "") :: r.accepted }
  | p, some value =>
    if (r.accepted.lookup p).isSome then .error .repeatedArgument
    else
      match p.check value with
      | .error fault => .error fault
      | .ok () => .ok { r with accepted := (p, value) :: r.accepted }

/-- Accept the parameter that is pending. -/
def settle (r : Reading) : Except Fault Reading :=
  match r.pending with
  | none => .ok r
  | some (p, value) => { r with pending := none }.accept p value

/-- Read a parameter with the value attached to it, if there is one. -/
def parameter (r : Reading) (p : Parameter) (attached : Option String) : Except Fault Reading :=
  match r.settle with
  | .error fault => .error fault
  | .ok r =>
    if p.takesValue && attached.isNone then .ok { r with pending := some (p, none) }
    else r.accept p attached

/-- Read an argument after two dashes: a name, and a value after an equals
    sign. -/
def long (c : CommandName) (r : Reading) (body : List Char) : Except Fault Reading :=
  let name := body.takeWhile (· != '=')
  let attached := if name.length = body.length then none
    else some (String.ofList (body.drop (name.length + 1)))
  match Parameter.ofLong? c (String.ofList name) with
  | none => .error .unknownArgument
  | some p => if !p.takesValue && attached.isSome then .error .unwantedValue
    else r.parameter p attached

/-- The value that follows a letter at once, an equals sign aside. -/
def attachedValue? : List Char → Option String
  | [] => none
  | '=' :: rest | rest => some (String.ofList rest)

/-- Read letters after one dash. -/
def letters (c : CommandName) : Reading → List Char → Except Fault Reading
  | r, [] => .ok r
  | r, letter :: rest =>
    match Parameter.ofShort? c letter with
    | none => .error .unknownArgument
    | some p =>
      if p.takesValue then r.parameter p (attachedValue? rest)
      else
        match r.parameter p none with
        | .error fault => .error fault
        | .ok r => letters c r rest

/-- Read an argument that is no option. -/
def position (c : CommandName) (r : Reading) (text : String) : Except Fault Reading :=
  let isTaken := (r.accepted.lookup .path).isSome || (r.pending.map Prod.fst) == some .path
  if c = .preview ∧ !isTaken then
    match r.settle with
    | .error fault => .error fault
    | .ok r => .ok { r with pending := some (.path, some text) }
  else .error .unknownArgument

/-- Read an argument. -/
def argument (c : CommandName) (r : Reading) (text : String) : Except Fault Reading :=
  if r.onlyPositions then r.position c text
  else
    match text.toList, r.pending with
    | ['-', '-'], _ => .ok { r with onlyPositions := true }
    | '-' :: '-' :: body, _ => r.long c body
    | '-' :: letter :: rest, _ => r.letters c (letter :: rest)
    | _, some (p, none) => .ok { r with pending := some (p, some text) }
    | _, _ => r.position c text

/-- Read arguments, and check the last one. -/
def arguments (c : CommandName) : Reading → List String → Except Fault Reading
  | r, [] => r.settle
  | r, text :: rest => match r.argument c text with
    | .error fault => .error fault
    | .ok r => arguments c r rest

/-- Take over a value from the environment, unless one is given. -/
def fromEnvironment (r : Reading) (p : Parameter) (value : Option String) :
    Except Fault Reading :=
  match r.accepted.lookup p, value with
  | none, some value => r.accept p (some value)
  | _, _ => .ok r

/-- The value of a parameter that has to be given. -/
def required (r : Reading) (p : Parameter) : Except Fault String :=
  match r.accepted.lookup p with
  | some value => .ok value
  | none => .error .missingArgument

/-- The command that parameters describe. -/
def command (r : Reading) : CommandName → Except Fault Command
  | .update => do
    let mode ← match Mode.ofName (← r.required .mode) with
      | .ok mode => .ok mode
      | .error _ => .error .invalidMode
    let given := fun p => r.accepted.lookup p
    return .update mode (given .checkNew).isSome (given .scanDir) (given .musicDir)
      (given .database) (given .tracks)
  | .preview => do
    return .preview (← r.required .path) (r.accepted.lookup .musicDir)
  | .config => .ok (.config (r.accepted.lookup .init).isSome)

end Reading

/-! ## Commands -/

/-- The name of a command. -/
def CommandName.ofText? : String → Option CommandName
  | "update" => some .update
  | "preview" => some .preview
  | "config" => some .config
  | _ => none

/-- Whether a text names a command, or `help`. -/
def isCommandName (text : String) : Bool :=
  (CommandName.ofText? text).isSome || text == "help"

/-- The fault of asking for help on a command. -/
def helpOn : List String → Fault
  | [] => .help
  | [text] => if isCommandName text then .help else .unknownCommand
  | _ => .unknownCommand

/-- The fault of an argument before any command. -/
def programFault (text : String) : Fault :=
  match text.toList with
  | '-' :: '-' :: body =>
    let name := String.ofList (body.takeWhile (· != '='))
    if name = "help" ∨ name = "version" then
      if body.contains '=' then .unwantedValue
      else if name = "help" then .help
      else .version
    else .unknownArgument
  | '-' :: 'h' :: _ => .help
  | '-' :: 'V' :: _ => .version
  | '-' :: _ :: _ => .unknownArgument
  | _ => .unknownCommand

/-- The command that arguments ask for.  Where the music directory is not given
    for an update, it is taken from the environment. -/
def Command.ofArguments (musicDirVariable : Option String) : List String → Except Fault Command
  | [] | ["--"] => .error .noArguments
  | "--" :: text :: _ => .error (if isCommandName text then .unknownArgument else .unknownCommand)
  | "help" :: rest => .error (helpOn rest)
  | text :: rest =>
    match CommandName.ofText? text with
    | none => .error (programFault text)
    | some name => do
      let r ← Reading.arguments name {} rest
      let r ← if name = .update then r.fromEnvironment .musicDir musicDirVariable else .ok r
      r.command name

end SongLibrary.CommandLine
