import TapeMachine.ContextStack
import TapeMachine.Stream.Sink
import TapeMachine.Stream.Source

/-!
# The machine

Everything a command may touch: a tape, a stack of contexts, a source and a sink.  This module has the single steps
from which the commands are built.  A step ends in an `Outcome`, which holds the state that the step left behind even
if it failed.
-/

namespace TapeMachine

/-- Why a step leaves no state behind. -/
inductive Abort where
  /-- The cell under the head was asked for, and there is none. -/
  | noCell
  /-- A number was computed that is not a word. -/
  | overflow
  /-- The step was not over when the fuel was. -/
  | outOfFuel
  deriving DecidableEq, Repr

/-- How a step that starts from a state in `σ` ends. -/
inductive Outcome (σ : Type) where
  | done (state : σ)
  /-- The step failed, and what it had done by then stays done. -/
  | failed (fault : Fault) (state : σ)
  | aborted (cause : Abort)

namespace Outcome

variable {σ : Type}

/-- Go on with `next` if the step was done. -/
@[inline]
def andThen (o : Outcome σ) (next : σ → Outcome σ) : Outcome σ :=
  match o with
  | done s => next s
  | failed fault s => failed fault s
  | aborted cause => aborted cause

@[simp]
theorem done_andThen (s : σ) (next : σ → Outcome σ) : (done s).andThen next = next s := rfl

@[simp]
theorem failed_andThen (fault : Fault) (s : σ) (next : σ → Outcome σ) :
    (failed fault s).andThen next = failed fault s := rfl

@[simp]
theorem aborted_andThen (cause : Abort) (next : σ → Outcome σ) : (aborted cause).andThen next = aborted cause := rfl

@[simp]
theorem andThen_done (o : Outcome σ) : o.andThen done = o := by cases o <;> rfl

theorem andThen_assoc (o : Outcome σ) (f g : σ → Outcome σ) :
    (o.andThen f).andThen g = o.andThen fun s => (f s).andThen g := by cases o <;> rfl

end Outcome

/-- A tape of type `τ`, a stack of contexts over the host commands `κ`, a source and a sink. -/
structure Machine (τ κ : Type) where
  tape : τ
  stack : ContextStack κ
  input : Source
  output : Sink

namespace Machine

variable {τ κ : Type} [Tape τ]

/-- Put the head on `position`. -/
def moveTo (m : Machine τ κ) (position : Int) : Outcome (Machine τ κ) :=
  match Tape.moveHead m.tape position with
  | .ok tape => .done { m with tape }
  | .error cause => .failed (.outOfBounds cause) m

/-- Move the head by `offset` cells.  The new position is computed before it is held against the bounds of the tape. -/
def moveBy (m : Machine τ κ) (offset : Int) : Outcome (Machine τ κ) :=
  match signedWord? (Tape.head m.tape + offset) with
  | some position => m.moveTo position
  | none => .aborted .overflow

/-- Read the cell and go on with its value. -/
@[inline]
def withCell : Machine τ κ → (Cell → Machine τ κ → Outcome (Machine τ κ)) → Outcome (Machine τ κ)
  | ⟨tape, stack, input, output⟩, next =>
    match Tape.read? tape with
    | some (value, tape) => next value ⟨tape, stack, input, output⟩
    | none => .aborted .noCell

/-- Write the cell. -/
def setCell : Machine τ κ → Cell → Outcome (Machine τ κ)
  | ⟨tape, stack, input, output⟩, value =>
    match Tape.write? tape value with
    | some tape => .done ⟨tape, stack, input, output⟩
    | none => .aborted .noCell

/-- Write the cell with what `f` makes of its value. -/
def changeCell (m : Machine τ κ) (f : Cell → Cell) : Outcome (Machine τ κ) :=
  m.withCell fun value m => m.setCell (f value)

/-- Write a byte to the sink. -/
def emit : Machine τ κ → UInt8 → Outcome (Machine τ κ)
  | ⟨tape, stack, input, output⟩, byte =>
    match output.write byte with
    | (.ok (), output) => .done ⟨tape, stack, input, output⟩
    | (.error reason, output) => .failed (.io reason) ⟨tape, stack, input, output⟩

/-- Read a byte into the cell.  At the end of the input nothing happens. -/
def accept : Machine τ κ → Outcome (Machine τ κ)
  | ⟨tape, stack, input, output⟩ =>
    match input.read with
    | (.ok (some byte), input) => setCell ⟨tape, stack, input, output⟩ byte.toUInt16
    | (.ok none, input) => .done ⟨tape, stack, input, output⟩
    | (.error reason, input) => .failed (.io reason) ⟨tape, stack, input, output⟩

/-- Put a context on top of the stack. -/
def pushContext (m : Machine τ κ) (c : Context κ) : Outcome (Machine τ κ) :=
  match m.stack.push c with
  | .ok stack => .done { m with stack }
  | .error fault => .failed fault m

/-- Drop the context on top of the stack. -/
def popContext (m : Machine τ κ) : Outcome (Machine τ κ) :=
  match m.stack.pop? with
  | some (_, stack) => .done { m with stack }
  | none => .failed .emptyStack m

/-- Change the context at `index`. -/
def modifyContext (m : Machine τ κ) (index : Nat) (f : Context κ → Context κ) : Machine τ κ :=
  { m with stack := m.stack.modify index f }

end Machine

end TapeMachine
