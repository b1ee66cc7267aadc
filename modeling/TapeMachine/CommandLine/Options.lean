import TapeMachine.Policy

/-!
# Command-line options

The arguments are read from left to right.  `--input` and `--policy` take the argument after them, whatever it looks
like; of several the last one counts.  One argument names the program, and it is the only one that may stand alone.
The first argument at which something is wrong is the one that is reported; that the program is missing is found last.
-/

namespace TapeMachine.CommandLine

/-- What the arguments ask for. -/
structure Options where
  /-- The file that holds the program. -/
  file : String
  /-- The input of the program; without one the standard input is read. -/
  input : Option String := none
  policy : Policy := .standard
  /-- Whether the program is to be stepped through. -/
  step : Bool := false
  deriving DecidableEq, Repr

/-- Why the arguments make no sense. -/
inductive UsageError where
  | missingValue (option : String)
  | unknownPolicy (name : String)
  | unknownOption (option : String)
  /-- A second program. -/
  | unexpectedArgument (argument : String)
  | noFile
  deriving DecidableEq, Repr

def UsageError.message : UsageError → String
  | missingValue option => option ++ " needs a value"
  | unknownPolicy name => Policy.unknownNameMessage name
  | unknownOption option => "unknown option '" ++ option ++ "'"
  | unexpectedArgument argument => "unexpected argument '" ++ argument ++ "'"
  | noFile => "no input file provided"

/-- What has been read of the arguments. -/
structure Draft where
  file : Option String := none
  input : Option String := none
  policy : Policy := .standard
  step : Bool := false

/-- The options that a draft amounts to. -/
def Draft.finish (d : Draft) : Except UsageError Options :=
  match d.file with
  | some file => .ok { file, input := d.input, policy := d.policy, step := d.step }
  | none => .error .noFile

/-- Whether an argument has the form of an option. -/
def isOption (argument : String) : Bool := ['-', '-'].isPrefixOf argument.toList

/-- Take an argument that stands alone. -/
def Draft.take (d : Draft) (argument : String) : Except UsageError Draft :=
  if isOption argument then .error (.unknownOption argument)
  else if d.file.isSome then .error (.unexpectedArgument argument)
  else .ok { d with file := some argument }

/-- Read the arguments that are left. -/
def Draft.read : List String → Draft → Except UsageError Options
  | [], d => d.finish
  | "--step" :: rest, d => Draft.read rest { d with step := true }
  | "--input" :: value :: rest, d => Draft.read rest { d with input := some value }
  | "--policy" :: name :: rest, d =>
    match Policy.ofName? name with
    | some policy => Draft.read rest { d with policy }
    | none => .error (.unknownPolicy name)
  | ["--input"], _ => .error (.missingValue "--input")
  | ["--policy"], _ => .error (.missingValue "--policy")
  | argument :: rest, d =>
    match d.take argument with
    | .ok d => Draft.read rest d
    | .error e => .error e

/-- Read the arguments after the name of the command. -/
def parse (arguments : List String) : Except UsageError Options := Draft.read arguments {}

/-- How the command is used. -/
def usage (command : String) : String :=
  "Usage: " ++ command ++ " <file> [--input TEXT] [--policy zero|whitespace|unknown] [--step]\n" ++
  "\n" ++
  "  --input TEXT   bytes for the ',' command (default: stdin)\n" ++
  "  --policy P     how to treat non-command characters (default: whitespace)\n" ++
  "  --step         open the terminal stepper instead of running to the end\n"

end TapeMachine.CommandLine
