import TapeMachine.Tape.Basic
import TapeMachine.Text.Quoted

/-!
# Faults

Why a command was not carried out, and the words in which that is said.  Two faults are not failures of the program:
an unknown character may be passed over, and `runOver` is how a command ends the run.
-/

namespace TapeMachine

/-- Why a character was not executed. -/
inductive Fault where
  /-- The head was moved outside the tape. -/
  | outOfBounds (cause : OutOfBounds)
  /-- The context at work has no command for the character. -/
  | unknownCharacter (c : Char)
  /-- The context stack lacked the item that was asked for. -/
  | emptyStack
  /-- The source, the sink or the store of contexts failed, in its own words. -/
  | io (reason : String)
  /-- The run was ended by a command. -/
  | runOver
  deriving DecidableEq, Repr

namespace Fault

/-- What is said about a fault, `none` if that takes a number that is not a word. -/
def message? : Fault → Option String
  | outOfBounds cause => cause.message?
  | unknownCharacter c => some ("there is no such command char in command map: " ++ Text.quoted c)
  | emptyStack => some "context stack is empty"
  | io reason => some ("I/O error: " ++ reason)
  | runOver => some "run is over"

def isRunOver : Fault → Bool
  | runOver => true
  | _ => false

/-- The character that has no command. -/
def unknownCharacter? : Fault → Option Char
  | unknownCharacter c => some c
  | _ => none

/-- What the source, the sink or the store said. -/
def reason? : Fault → Option String
  | io reason => some reason
  | _ => none

end Fault

end TapeMachine
