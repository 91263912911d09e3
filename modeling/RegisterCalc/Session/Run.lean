import RegisterCalc.Session.Basic

/-!
# Running a session

A run prompts for a line, answers it and goes on, until a blank line or the end of the input. It
ends early at a line that is not text, or when the output has no room for what is to be written; the
output then holds as much of it as fits.
-/

namespace RegisterCalc

/-- Why a run ends early. -/
inductive RunFault where
  /-- A line is not well-formed UTF-8. -/
  | notText
  /-- The output is full. -/
  | outputFull
  deriving DecidableEq, Repr

/-- The fault in words. -/
def RunFault.message : RunFault → String
  | notText => "stream did not contain valid UTF-8"
  | outputFull => "failed to write whole buffer"

/-- What comes of a run. -/
structure Run where
  output : List UInt8
  fault : Option RunFault
  session : Session
  log : List LogRecord

namespace Run

/-- A run that writes nothing and ends well. -/
def done (session : Session) : Run :=
  { output := []
    fault := none
    session
    log := [⟨.info,
      "session ended with " ++ Nat.repr session.registers.size ++ " register(s) set"⟩] }

/-- A run that writes nothing and ends early. -/
def failed (fault : RunFault) (session : Session) : Run := ⟨[], some fault, session, []⟩

/-- A run before which some bytes were written. -/
def after (written : List UInt8) (run : Run) : Run := { run with output := written ++ run.output }

/-- A run before which something was logged. -/
def logged (records : List LogRecord) (run : Run) : Run := { run with log := records ++ run.log }

/-- Writes a text into the room that is left, without limit if there is none, and goes on; ends the
run where the text does not fit. -/
def write (room : Option Nat) (session : Session) (text : String) (next : Option Nat → Run) :
    Run :=
  let bytes := Text.toBytes text
  match room with
  | none => (next none).after bytes
  | some room =>
    if bytes.length ≤ room then (next (some (room - bytes.length))).after bytes
    else (failed .outputFull session).after (bytes.take room)

end Run

namespace Session

/-- Prompts for the lines and answers them, in the room that is left. -/
def answerLines (session : Session) (room : Option Nat) : (lines : List (Option String)) → Run
  | [] => Run.write room session session.config.prompt fun _ => .done session
  | line :: lines => Run.write room session session.config.prompt fun room =>
    match line with
    | none => .failed .notText session
    | some line =>
      let reply := session.respond line
      match reply.flow with
      | .quit => .done reply.session
      | .goOn =>
        (Run.write room reply.session reply.text fun room =>
          reply.session.answerLines room lines).logged reply.log

/-- Runs a session on an input, with an output that takes `room` bytes or any number. -/
def run (session : Session) (room : Option Nat) (input : List UInt8) : Run :=
  (session.answerLines room (Text.lines input)).logged [⟨.info, "session started"⟩]

end Session

end RegisterCalc
