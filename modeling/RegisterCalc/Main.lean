import RegisterCalc.Program

/-!
# The command

Connects the program to the streams of the process. A line is answered as soon as it was read, so a
run can be a conversation.
-/

namespace RegisterCalc.Command

/-- Writes the records that are wanted. -/
def report (log : IO.FS.Stream) (level : LogLevel) (records : List LogRecord) : IO Unit :=
  for record in records do
    if record.isWithin (some level) then log.putStrLn record.text

/-- Reads the bytes up to and including a line feed. -/
partial def readLine (input : IO.FS.Stream) (read : List UInt8) : IO (List UInt8) := do
  let byte ← input.read 1
  match byte.data.toList with
  | [] => return read.reverse
  | bytes => if bytes = [10] then return (bytes ++ read).reverse else readLine input (bytes ++ read)

/-- Prompts for lines and answers them; the result is the exit code. -/
partial def converse (session : Session) (level : LogLevel) (input output log : IO.FS.Stream) :
    IO UInt32 := do
  output.putStr session.config.prompt
  output.flush
  let bytes ← readLine input []
  if bytes.isEmpty then
    report log level (Run.done session).log
    return 0
  match Text.decodeLine bytes with
  | none =>
    log.putStrLn ("Error: " ++ RunFault.notText.message)
    return 1
  | some line =>
    let reply := session.respond line
    report log level reply.log
    output.putStr reply.text
    match reply.flow with
    | .goOn => converse reply.session level input output log
    | .quit =>
      report log level (Run.done reply.session).log
      return 0

end RegisterCalc.Command

open RegisterCalc in
/-- Runs the program on the arguments and the streams of the process. -/
def main (arguments : List String) : IO UInt32 := do
  let input ← IO.getStdin
  let output ← IO.getStdout
  let log ← IO.getStderr
  match Options.ofArguments arguments with
  | .error stop =>
    output.putStr stop.output
    if let .refused _ := stop then log.putStr ("error: invalid arguments\n\n" ++ helpText)
    return UInt32.ofNat stop.exitCode
  | .ok options =>
    Command.report log options.logLevel [⟨.info, "session started"⟩]
    Command.converse (Session.new (options.config (← output.isTty))) options.logLevel
      input output log
