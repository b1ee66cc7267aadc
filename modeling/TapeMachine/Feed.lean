import TapeMachine.Runner

/-!
# Feeding a program

A runner does not know where in the program it is.  The feed counts the characters, so that a failure can name the
one it happened on.
-/

namespace TapeMachine

/-- How a feed ended without a failure. -/
structure FeedTally where
  /-- The characters given to the runner, the one that ended the run included. -/
  consumed : Nat
  /-- Whether a command ended the run. -/
  halted : Bool
  deriving DecidableEq, Repr

/-- A fault and the character on which it happened. -/
structure FeedError where
  position : Nat
  char : Char
  fault : Fault
  deriving DecidableEq, Repr

def FeedError.message? (e : FeedError) : Option String :=
  e.fault.message?.map fun cause =>
    s!"execution failed at position {e.position} on command " ++ Text.quoted e.char ++ ": " ++ cause

/-- How a feed ends, and the runner that it leaves behind. -/
inductive FeedOutcome (τ κ : Type) where
  | ended (tally : FeedTally) (runner : Runner τ κ)
  | failed (error : FeedError) (runner : Runner τ κ)
  | aborted (cause : Abort)

namespace Runner

variable {τ κ : Type} [Tape τ]

/-- Give the characters to the runner, the first of them being at `position`, until they or the run are over. -/
def feedFrom (host : κ → Machine τ κ → Outcome (Machine τ κ)) (fuel : Nat) :
    Nat → List Char → Runner τ κ → FeedOutcome τ κ
  | position, [], r => .ended ⟨position, false⟩ r
  | position, c :: rest, r =>
    match r.execute host fuel c with
    | .done r => feedFrom host fuel (position + 1) rest r
    | .failed .runOver r => .ended ⟨position + 1, true⟩ r
    | .failed fault r => .failed ⟨position, c, fault⟩ r
    | .aborted cause => .aborted cause

/-- Run a program, or a piece of one. -/
def feed (host : κ → Machine τ κ → Outcome (Machine τ κ)) (fuel : Nat) (program : List Char) (r : Runner τ κ) :
    FeedOutcome τ κ :=
  r.feedFrom host fuel 0 program

end Runner

/-! ### Feeding in two goes -/

/-- Go on with `next`, behind the characters that were consumed, unless the run failed or was ended. -/
def FeedOutcome.andThen {τ κ : Type} (o : FeedOutcome τ κ) (next : Nat → Runner τ κ → FeedOutcome τ κ) :
    FeedOutcome τ κ :=
  match o with
  | .ended ⟨consumed, false⟩ r => next consumed r
  | .ended ⟨consumed, true⟩ r => .ended ⟨consumed, true⟩ r
  | .failed error r => .failed error r
  | .aborted cause => .aborted cause

namespace Runner

variable {τ κ : Type} [Tape τ] {host : κ → Machine τ κ → Outcome (Machine τ κ)} {fuel : Nat}

/-- A text can be fed in two pieces. -/
theorem feedFrom_append_eq_andThen (position : Nat) (text rest : List Char) (r : Runner τ κ) :
    r.feedFrom host fuel position (text ++ rest) =
      (r.feedFrom host fuel position text).andThen fun position r => r.feedFrom host fuel position rest := by
  induction text generalizing position r with
  | nil => rfl
  | cons c text ih =>
    simp only [List.cons_append, feedFrom]
    split
    · next r' _ => exact ih (position + 1) r'
    all_goals rfl

end Runner

end TapeMachine
