import TapeMachine.Engine

/-!
# Commands of a host

A repertoire of commands with which a host can extend the language: they work on the cell, the head, the sink and the
context stack, or fail on purpose.
-/

namespace TapeMachine

/-- The kinds of context that a command can push. -/
inductive ContextKind where
  | plain
  | recording
  | skip
  deriving DecidableEq, Repr

/-- A command of the host. -/
inductive HostCommand where
  /-- Double the cell. -/
  | double
  /-- Write a value into the cell. -/
  | set (value : Cell)
  /-- Put the head on a position. -/
  | jump (position : Int)
  /-- Write a byte to the sink. -/
  | emit (byte : UInt8)
  | nop
  /-- Drop the context on top of the stack. -/
  | pop
  /-- Note the contexts in the journal of the stack. -/
  | probe
  /-- Push a fresh context. -/
  | push (kind : ContextKind)
  | fail (fault : Fault)
  deriving DecidableEq, Repr

namespace HostCommand

/-- A fresh context over the commands of the language. -/
def freshContext : ContextKind → Context HostCommand
  | .plain => .plain .standard
  | .recording => .recording { commands := .standard, exit := ']' }
  | .skip => .skip { commands := .standard, enter := '[', exit := ']' }

/-- What the commands do. -/
def run {τ : Type} [Tape τ] (command : HostCommand) (m : Machine τ HostCommand) :
    Outcome (Machine τ HostCommand) :=
  match command with
  | double => m.changeCell (· * 2)
  | set value => m.setCell value
  | jump position => m.moveTo position
  | emit byte => m.emit byte
  | nop => .done m
  | pop => m.popContext
  | probe => .done { m with stack := m.stack.probe }
  | push kind => m.pushContext (freshContext kind)
  | fail fault => .failed fault m

end HostCommand

end TapeMachine
