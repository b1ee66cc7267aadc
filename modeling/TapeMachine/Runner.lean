import TapeMachine.Engine
import TapeMachine.Policy

/-!
# Runners

A runner is a machine that is given a program one character at a time.  It passes over the unknown characters that its
policy tolerates, and refuses every character once a command has ended the run.
-/

namespace TapeMachine

/-- A machine on which a program is being run. -/
structure Runner (τ κ : Type) where
  machine : Machine τ κ
  policy : Policy := .standard
  /-- Whether a command has ended the run. -/
  isFinished : Bool := false

namespace Runner

variable {τ κ : Type} [Tape τ]

/-- A runner on `tape`, with `commands` as a new context on `stack`. -/
def start (tape : τ) (stack : ContextStack κ) (commands : CommandMap κ) (policy : Policy) (input : Source)
    (output : Sink) : Except Fault (Runner τ κ) :=
  (stack.push (.plain commands)).map fun stack => { machine := { tape, stack, input, output }, policy }

/-- What becomes of a runner after its machine has executed a character. -/
def settle (policy : Policy) : Outcome (Machine τ κ) → Outcome (Runner τ κ)
  | .done machine => .done { machine, policy }
  | .failed .runOver machine => .failed .runOver { machine, policy, isFinished := true }
  | .failed (.unknownCharacter c) machine =>
    if policy.tolerates c then .done { machine, policy } else .failed (.unknownCharacter c) { machine, policy }
  | .failed fault machine => .failed fault { machine, policy }
  | .aborted cause => .aborted cause

/-- Execute the next character of the program. -/
def execute (host : κ → Machine τ κ → Outcome (Machine τ κ)) (fuel : Nat) (c : Char) :
    Runner τ κ → Outcome (Runner τ κ)
  | ⟨machine, policy, true⟩ => .failed .runOver ⟨machine, policy, true⟩
  | ⟨machine, policy, false⟩ =>
    match machine.stack.topIndex? with
    | none => .failed .emptyStack ⟨machine, policy, false⟩
    | some top => settle policy (machine.executeAt host fuel top c)

/-- How many contexts are on the stack. -/
def depth (r : Runner τ κ) : Nat := r.machine.stack.size

/-- The contexts, the outermost first. -/
def contexts (r : Runner τ κ) : List ContextSummary := r.machine.stack.summaries

/-- Where the head is. -/
def head (r : Runner τ κ) : Int := Tape.head r.machine.tape

/-- The value of a cell, `none` outside the tape. -/
def cellAt? (r : Runner τ κ) (position : Int) : Option Cell := Tape.cellAt? r.machine.tape position

/-- The bytes written so far. -/
def written (r : Runner τ κ) : Array UInt8 := r.machine.output.written

/-- Flush the sink. -/
def flush (r : Runner τ κ) : Except Fault Unit := r.machine.output.flush.mapError .io

end Runner

end TapeMachine
