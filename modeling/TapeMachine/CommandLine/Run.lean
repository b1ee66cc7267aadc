import TapeMachine.CommandLine.Options
import TapeMachine.Feed
import TapeMachine.Tape.Fixed

/-!
# Running a file

What the command prints and the status with which it ends, given the arguments, the file that they name and the bytes
of the standard input.
-/

namespace TapeMachine.CommandLine

/-- What there is under a file name. -/
inductive FileContent where
  | missing
  | directory
  | bytes (content : ByteArray)

/-- What the command leaves behind. -/
structure Report where
  status : UInt8 := 0
  stdout : Array UInt8 := #[]
  stderr : String := ""

/-- The report on arguments that make no sense. -/
def Report.ofUsageError (command : String) (e : UsageError) : Report :=
  { status := 1, stderr := "Error: " ++ e.message ++ "\n\n" ++ usage command }

/-- The report on a program that cannot be read. -/
def Report.unreadable (reason : String) : Report := { status := 1, stderr := "Error: " ++ reason ++ "\n" }

/-- The text of the program, or the report on why there is none. -/
def readProgram (command : String) (file : String) : FileContent → Except Report String
  | .missing => .error { status := 1, stderr := "Error: File '" ++ file ++ "' not found\n" ++ usage command }
  | .directory => .error (.unreadable "Os \x7b code: 21, kind: IsADirectory, message: \"Is a directory\" \x7d")
  | .bytes content =>
    match String.fromUTF8? content with
    | some program => .ok program
    | none =>
      .error (.unreadable "Error \x7b kind: InvalidData, message: \"stream did not contain valid UTF-8\" \x7d")

/-- A runner for the command: it knows the commands of the language and no others. -/
abbrev CommandRunner := Runner FixedTape Empty

/-- The runner that the options ask for, before it is given the program. -/
def startRunner (options : Options) (stdin : List UInt8) : Except Fault CommandRunner :=
  let input := match options.input with
    | some text => text.toUTF8.toList
    | none => stdin
  Runner.start (FixedTape.ofCapacity defaultCapacity) {} .standard options.policy (.ofBytes input) {}

/-- Run the program to its end. -/
def runProgram (fuel : Nat) (options : Options) (program : String) (stdin : List UInt8) : Except Abort Report :=
  match startRunner options stdin with
  | .error fault =>
    match fault.message? with
    | some message => .ok (.unreadable message)
    | none => .error .overflow
  | .ok runner =>
    match runner.feed Machine.noHost fuel program.toList with
    | .ended tally r =>
      .ok { stdout := r.written
            stderr := if tally.halted then s!"Run halted after {tally.consumed} characters.\n" else "" }
    | .failed e r =>
      match e.message? with
      | some message =>
        .ok { status := 1, stdout := r.written, stderr := "\nRuntime error: " ++ message ++ "\n" }
      | none => .error .overflow
    | .aborted cause => .error cause

/-- Run the file that the options name. -/
def runFile (fuel : Nat) (command : String) (options : Options) (content : FileContent) (stdin : List UInt8) :
    Except Abort Report :=
  match readProgram command options.file content with
  | .error report => .ok report
  | .ok program => runProgram fuel options program stdin

end TapeMachine.CommandLine
