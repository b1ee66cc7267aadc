import TapeMachine.Word

/-!
# Tapes

A tape is a row of cells with a head on one of them.

* A cell is a 16-bit counter whose arithmetic wraps around (`Cell`).
* A position is a signed 64-bit word, so that a move to the left of cell 0 can be named and refused.
* A move outside the tape fails with `OutOfBounds` and leaves the head where it was.
* `Tape` is what the rest of the library asks of a tape.  Reading returns the tape too, since a tape may keep count
  of its reads; reading and writing are `none` where the head has no cell under it.
-/

namespace TapeMachine

/-- A counter modulo `2 ^ 16`. -/
abbrev Cell := UInt16

/-- The number of cells of a tape that is not told otherwise. -/
def defaultCapacity : Nat := 30000

/-- The head was asked to move outside a tape of `capacity` cells. -/
structure OutOfBounds where
  position : Int
  capacity : Nat
  deriving DecidableEq, Repr

/-- Names the position and the two ends of the tape.  The last of them is computed from the capacity as a signed word,
and there is one capacity for which it is out of range. -/
def OutOfBounds.message? (e : OutOfBounds) : Option String :=
  (signedWord? (signedWord e.capacity - 1)).map fun last =>
    s!"head position {e.position} is out of memory bounds [0, {last}]"

/-- The index of the cell at `position`, if the tape has one there. -/
def checkBounds (position : Int) (capacity : Nat) : Except OutOfBounds Nat :=
  if position < 0 ∨ capacity ≤ position then .error ⟨position, capacity⟩ else .ok position.toNat

/-- The operations of a tape. -/
class Tape (τ : Type) where
  /-- Where the head is. -/
  head : τ → Int
  /-- How many cells there are. -/
  capacity : τ → Nat
  moveHead : τ → Int → Except OutOfBounds τ
  /-- The value under the head. -/
  read? : τ → Option (Cell × τ)
  write? : τ → Cell → Option τ
  /-- The value of any cell, `none` outside the tape.  Looking at a cell is not a read. -/
  cellAt? : τ → Int → Option Cell

theorem checkBounds_eq_ok_iff {position : Int} {capacity i : Nat} :
    checkBounds position capacity = .ok i ↔ position = i ∧ i < capacity := by
  unfold checkBounds
  split
  · simp only [reduceCtorEq, false_iff]; omega
  · simp only [Except.ok.injEq]; omega

theorem checkBounds_eq_error_iff {position : Int} {capacity : Nat} {e : OutOfBounds} :
    checkBounds position capacity = .error e ↔
      (position < 0 ∨ capacity ≤ position) ∧ e = ⟨position, capacity⟩ := by
  unfold checkBounds
  split
  case isTrue h => simp [h, eq_comm]
  case isFalse h => simp [h]

end TapeMachine
