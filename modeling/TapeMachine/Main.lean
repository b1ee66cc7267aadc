import TapeMachine.CommandLine.Run
import TapeMachine.Stepper

/-!
# The command

Reads the arguments, the file and the standard input, and prints the report.  With `--step` the program is stepped
through: every line of the standard input is a key, and the screen is printed after each of them.
-/

namespace TapeMachine.CommandLine

/-- The name of the command in its usage. -/
def commandName : String := "tapemachine"

/-- More passes through a loop than any run makes. -/
def commandFuel : Nat := 0x4000000000000000

/-- What is under a file name. -/
def readContent (file : String) : IO FileContent := do
  try
    return .bytes (← IO.FS.readBinFile file)
  catch
    | .inappropriateType none _ _ => return .directory
    | _ => return .missing

/-- Print a report and return its status. -/
def printReport (report : Report) : IO UInt32 := do
  let stdout ← IO.getStdout
  stdout.write ⟨report.stdout⟩
  stdout.flush
  IO.eprint report.stderr
  return report.status.toUInt32

/-- Say that a run could not be finished. -/
def printAbort (cause : Abort) : IO UInt32 := do
  match cause with
  | .noCell => IO.eprintln "There is no cell under the head."
  | .overflow => IO.eprintln "A number is too large for a word."
  | .outOfFuel => IO.eprintln "The run takes too long."
  return 1

/-- Print the screen, take a key from the next line, and go on until the user or the input ends it. -/
partial def stepThrough (stdin : IO.FS.Stream) (stepper : Stepper FixedTape Empty) : IO UInt32 := do
  match stepper.draw 80 24 with
  | .error cause => printAbort cause
  | .ok (grid, stepper) =>
    for row in grid.text do
      IO.println row
    if stepper.shouldQuit then return 0
    let line ← stdin.getLine
    if line.isEmpty then return 0
    let name := String.ofList (line.toList.filter (· ≠ '\n'))
    let next := if name = "tick" then stepper.tick Machine.noHost commandFuel
      else stepper.handle Machine.noHost commandFuel (.ofName name)
    match next with
    | .error cause => printAbort cause
    | .ok stepper => stepThrough stdin stepper

/-- Step through the program that the options name. -/
def runStepper (options : Options) (content : FileContent) : IO UInt32 := do
  match readProgram commandName options.file content with
  | .error report => printReport report
  | .ok program =>
    match startRunner { options with input := some (options.input.getD "") } [] with
    | .error fault =>
      match fault.message? with
      | some message => printReport (.unreadable message)
      | none => printAbort .overflow
    | .ok runner => stepThrough (← IO.getStdin) { runner, source := program.toList }

/-- Do what the arguments ask for. -/
def run (arguments : List String) : IO UInt32 := do
  match parse arguments with
  | .error e => printReport (.ofUsageError commandName e)
  | .ok options =>
    let content ← readContent options.file
    if options.step then
      runStepper options content
    else
      let stdin ← if options.input.isSome then pure [] else do pure (← (← IO.getStdin).readBinToEnd).toList
      match runFile commandFuel commandName options content stdin with
      | .ok report => printReport report
      | .error cause => printAbort cause

end TapeMachine.CommandLine

def main (arguments : List String) : IO UInt32 := TapeMachine.CommandLine.run arguments
