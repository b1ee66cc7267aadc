import Std.Data.TreeMap
import TapeMachine.Text.Quoted

/-!
# Commands

A command mapping says which character stands for which command.  The character that closes a loop is in no mapping:
it has a meaning only inside the loop, which is why `Command.enterLoop` carries it.

Beside the commands of the language a host may add its own.  They are drawn from a type `κ` of the host's choosing and
mean what the host says they mean.
-/

namespace TapeMachine

/-- What a character makes the machine do. -/
inductive Command (κ : Type) where
  | moveRight
  | moveLeft
  | increment
  | decrement
  /-- Write the low byte of the cell. -/
  | output
  /-- Read a byte into the cell; the end of the input leaves the cell alone. -/
  | input
  /-- Open a loop that `exit` closes. -/
  | enterLoop (exit : Char)
  /-- End the run. -/
  | halt
  /-- A command of the host. -/
  | host (command : κ)
  deriving DecidableEq, Repr

/-- How a listing of commands shows a command.  The host's commands all look alike. -/
def Command.label {κ : Type} : Command κ → String
  | moveRight => "MoveRight"
  | moveLeft => "MoveLeft"
  | increment => "Increment"
  | decrement => "Decrement"
  | output => "Output"
  | input => "Input"
  | enterLoop exit => "EnterLoop \x7b exit: " ++ Text.quoted exit ++ " \x7d"
  | halt => "Halt"
  | host _ => "Custom(..)"

/-- Commands by the characters that stand for them, in the order of the characters. -/
abbrev CommandMap (κ : Type) := Std.TreeMap Char (Command κ)

namespace CommandMap

/-- The seven characters of the language that mean something outside a loop. -/
def bindings (κ : Type) : List (Char × Command κ) :=
  [('>', .moveRight), ('<', .moveLeft), ('+', .increment), ('-', .decrement), ('.', .output), (',', .input),
   ('[', .enterLoop ']')]

/-- The mapping of the language. -/
def standard {κ : Type} : CommandMap κ := .ofList (bindings κ)

/-- Every character with the label of its command. -/
def listing {κ : Type} (commands : CommandMap κ) : List (Char × String) :=
  commands.toList.map fun (c, command) => (c, command.label)

end CommandMap

end TapeMachine
