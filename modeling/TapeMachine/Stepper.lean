import TapeMachine.Feed
import TapeMachine.Focus
import TapeMachine.Pane.Cells
import TapeMachine.Pane.Contexts
import TapeMachine.Pane.Output
import TapeMachine.Pane.Program
import TapeMachine.Pane.Status

/-!
# The stepper

A program is fed to a runner at the pace of the user: one character at a time, several, all that is left, or by a
timer.  The screen shows the program, the tape, the contexts and the output.  After a failure no more characters are
fed.
-/

namespace TapeMachine

/-- A program that is being stepped through. -/
structure Stepper (τ κ : Type) where
  runner : Runner τ κ
  source : List Char
  /-- The index of the character that comes next. -/
  position : Nat := 0
  focus : Focus := .source
  /-- The first lines shown by the panes that scroll. -/
  sourceScroll : Nat := 0
  contextScroll : Nat := 0
  outputScroll : Nat := 0
  shouldQuit : Bool := false
  message : String := "Ready!"
  /-- The failure that has stopped the stepper. -/
  error : Option FeedError := none
  /-- Whether the timer is running. -/
  isPlaying : Bool := false

namespace Stepper

/-- What came of a step. -/
inductive StepResult where
  | stepped
  | endOfSource
  | halted
  | failed
  deriving DecidableEq, Repr

/-- The keys that mean something. -/
inductive Key where
  | char (c : Char)
  | tab
  | enter
  | right
  | up
  | down
  /-- Any other key. -/
  | other
  deriving DecidableEq, Repr

/-- The key of a name: the name of a special key, or a single character. -/
def Key.ofName (name : String) : Key :=
  match name with
  | "right" => .right
  | "up" => .up
  | "down" => .down
  | "tab" => .tab
  | "enter" => .enter
  | "space" => .char ' '
  | name =>
    match name.toList with
    | [c] => .char c
    | _ => .other

variable {τ κ : Type} [Tape τ] (host : κ → Machine τ κ → Outcome (Machine τ κ)) (fuel : Nat)

/-! ### Feeding -/

/-- Feed the next character.  The output pane goes to its end. -/
def step (s : Stepper τ κ) : Except Abort (StepResult × Stepper τ κ) :=
  if s.error.isSome then .ok (.failed, s)
  else if s.runner.isFinished then .ok (.halted, s)
  else match s.source[s.position]? with
    | none => .ok (.endOfSource, { s with message := "End of source" })
    | some c =>
      match s.runner.execute host fuel c with
      | .done runner => .ok (.stepped, { s with runner, position := s.position + 1, outputScroll := Pane.maxScroll })
      | .failed .runOver runner =>
        .ok (.halted, { s with
          runner
          position := s.position + 1
          outputScroll := Pane.maxScroll
          message := "Run is over" })
      | .failed fault runner =>
        let failure : FeedError := ⟨s.position, c, fault⟩
        match failure.message? with
        | some message => .ok (.failed, { s with
            runner
            outputScroll := Pane.maxScroll
            message
            error := some failure })
        | none => .error .overflow
      | .aborted cause => .error cause

/-- Feed at most `count` characters.  Returns how many were fed without an event. -/
def stepMany : Nat → Stepper τ κ → Except Abort (Nat × Stepper τ κ)
  | 0, s => .ok (0, s)
  | count + 1, s =>
    match s.step host fuel with
    | .ok (.stepped, s) => (stepMany count s).map fun (done, s) => (done + 1, s)
    | .ok (_, s) => .ok (0, s)
    | .error cause => .error cause

/-- Feed what is left of the program. -/
def runOn (s : Stepper τ κ) : Except Abort (Stepper τ κ) :=
  (s.stepMany host fuel (s.source.length - s.position + 1)).map Prod.snd

/-! ### Keys -/

/-- Scroll the pane in focus up by a line. -/
def scrollUp (s : Stepper τ κ) : Stepper τ κ :=
  match s.focus with
  | .source => { s with sourceScroll := s.sourceScroll - 1 }
  | .contexts => { s with contextScroll := s.contextScroll - 1 }
  | .output => { s with outputScroll := s.outputScroll - 1 }
  | .tape => s

/-- Scroll the pane in focus down by a line. -/
def scrollDown (s : Stepper τ κ) : Stepper τ κ :=
  match s.focus with
  | .source => { s with sourceScroll := min (s.sourceScroll + 1) Pane.maxScroll }
  | .contexts => { s with contextScroll := min (s.contextScroll + 1) Pane.maxScroll }
  | .output => { s with outputScroll := min (s.outputScroll + 1) Pane.maxScroll }
  | .tape => s

/-- Start the timer, or stop it. -/
def togglePlaying (s : Stepper τ κ) : Stepper τ κ :=
  { s with isPlaying := !s.isPlaying, message := if s.isPlaying then "Paused" else "Playing..." }

/-- The step count that a digit asks for. -/
def stepCount? (c : Char) : Option Nat := if '1' ≤ c ∧ c ≤ '9' then some (c.toNat - '0'.toNat) else none

/-- Feed as many characters as a digit says. -/
def stepBy (count : Nat) (s : Stepper τ κ) : Except Abort (Stepper τ κ) :=
  (stepMany host fuel count { s with isPlaying := false }).map fun (done, s) =>
    if s.error.isNone then { s with message := s!"Stepped forward {done} char(s)" } else s

/-- Feed one character. -/
def stepOnce (s : Stepper τ κ) : Except Abort (Stepper τ κ) :=
  (step host fuel { s with isPlaying := false }).map fun (result, s) =>
    if result = .stepped then { s with message := "Stepped forward" } else s

/-- Do what a key asks for. -/
def handle (key : Key) (s : Stepper τ κ) : Except Abort (Stepper τ κ) :=
  match key with
  | .tab => .ok { s with focus := s.focus.next }
  | .right => s.stepOnce host fuel
  | .up => .ok s.scrollUp
  | .down => .ok s.scrollDown
  | .enter => runOn host fuel { s with isPlaying := false }
  | .char c =>
    if c = 'q' ∨ c = 'Q' then .ok { s with shouldQuit := true }
    else if c = ' ' then .ok s.togglePlaying
    else match stepCount? c with
      | some count => s.stepBy host fuel count
      | none => .ok s
  | .other => .ok s

/-- Let the timer go off.  It stops when there is nothing left to feed. -/
def tick (s : Stepper τ κ) : Except Abort (Stepper τ κ) :=
  if s.isPlaying then
    (s.step host fuel).map fun (result, s) => if result = .stepped then s else { s with isPlaying := false }
  else .ok s

/-! ### The screen -/

open Screen

/-- What the status line tells. -/
def status (s : Stepper τ κ) : Pane.Status where
  message := s.message
  position := s.position
  total := s.source.length
  isError := s.error.isSome
  isPlaying := s.isPlaying
  isFinished := s.runner.isFinished

/-- Draw all panes on a screen of the given size.  Drawing brings the offsets of the panes into their bounds and reads
the cell under the head. -/
def draw (width height : UInt16) (s : Stepper τ κ) : Except Abort (Grid × Stepper τ κ) :=
  let screen := Area.ofSize width height
  let (main, bar) := screen.splitLastRow
  let (left, right) := main.splitColumns 50
  let (sourceArea, outputArea) := left.splitRows 65
  let (tapeArea, contextArea) := right.splitRows 60
  let text := s.runner.machine.output.text
  let contexts := s.runner.contexts
  let withSource := Pane.Program.draw (.blank screen) sourceArea s.source s.position s.error.isSome
    (s.focus == .source) s.sourceScroll
  let withOutput := Pane.Output.draw withSource outputArea text (s.focus == .output) s.outputScroll
  match Pane.Cells.draw withOutput tapeArea s.runner.machine.tape (s.focus == .tape) with
  | none => .error .noCell
  | some (withTape, tape) =>
    let withContexts := Pane.Contexts.draw withTape contextArea contexts (s.focus == .contexts) s.contextScroll
    .ok (Pane.Status.draw withContexts bar s.status, { s with
      runner := { s.runner with machine := { s.runner.machine with tape } }
      sourceScroll := Pane.Program.scroll s.source s.position s.error.isSome sourceArea.height s.sourceScroll
      outputScroll := Pane.Output.scroll text outputArea.height s.outputScroll
      contextScroll := Pane.Contexts.scroll contexts contextArea.height s.contextScroll })

end Stepper

end TapeMachine
