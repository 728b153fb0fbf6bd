/-
  The line protocol spoken with the managing process.

  * `Message` is what a run sends, `Message.line` the line that is written;
  * `Control` is what the managing process sends, `Control.ofLine` reads a line
    and `Control.ofInput` the lines of an input.
-/
import SongLibrary.Failure
import SongLibrary.Text.Hundredths
import SongLibrary.Text.Trim
import SongLibrary.Text.Utf8

namespace SongLibrary.Reconcile

/-! ## Sent -/

/-- What a run sends to the managing process. -/
inductive Message where
  /-- The part of the candidates whose outcome is known. -/
  | progress (part : Float)
  | status (text : String)
  | finish

/-- A part, held between none and all. -/
def clampPart (part : Float) : Float :=
  if part < 0 then 0 else if part > 1 then 1 else part

/-- The line of a message. -/
def Message.line : Message → String
  | progress part => "PROGRESS " ++ Text.writeHundredths (clampPart part)
  | status text => "STATUS_MSG " ++ text
  | finish => "FINISH"

/-! ## Received -/

/-- What the managing process sends. -/
inductive Control where
  | exitRequest
  | stopRequest
  | handshake
  deriving DecidableEq, Repr

/-- Whether a message asks the run to stop. -/
def Control.stops : Control → Bool
  | exitRequest | stopRequest => true
  | handshake => false

/-- The message a line is, blanks around it aside. -/
def Control.ofLine (line : String) : Except Failure Control :=
  match String.ofList (Text.trim line.toList) with
  | "EXIT_REQUEST" => .ok .exitRequest
  | "STOP_REQUEST" => .ok .stopRequest
  | "HANDSHAKE" => .ok .handshake
  | other => .error (.unknownControl other)

/-- The lines of an input, each ended by a line feed or by the end. -/
def inputLines (input : List UInt8) : List (List UInt8) :=
  input.splitOn 10

/-- The messages of an input.  Lines that are no message are passed over; a line
    that is no text ends the input. -/
def Control.ofInput (input : List UInt8) : List Control :=
  ((inputLines input).map Text.wholeText?).takeWhile Option.isSome |>.filterMap fun line =>
    line.bind fun text => (Control.ofLine text).toOption

end SongLibrary.Reconcile
