import TapeMachine.Tape.Basic

/-!
# The fixed tape

A row of zeros laid out once and for all, with the head on cell 0.  A tape of no cells is allowed: its head stands
on cell 0, which cannot be read or written.
-/

namespace TapeMachine

/-- A tape stored as an array of its cells. -/
structure FixedTape where
  cells : Array Cell
  head : Nat
  deriving DecidableEq, Repr

namespace FixedTape

/-- The blank tape of `capacity` cells. -/
def ofCapacity (capacity : Nat) : FixedTape := ⟨Array.replicate capacity 0, 0⟩

instance : Inhabited FixedTape := ⟨ofCapacity defaultCapacity⟩

def moveHead (t : FixedTape) (position : Int) : Except OutOfBounds FixedTape :=
  (checkBounds position t.cells.size).map fun index => { t with head := index }

def read? (t : FixedTape) : Option (Cell × FixedTape) :=
  t.cells[t.head]?.map fun value => (value, t)

def write? (t : FixedTape) (value : Cell) : Option FixedTape :=
  if h : t.head < t.cells.size then some { t with cells := t.cells.set t.head value } else none

def cellAt? (t : FixedTape) (position : Int) : Option Cell :=
  match checkBounds position t.cells.size with
  | .ok index => t.cells[index]?
  | .error _ => none

instance : Tape FixedTape where
  head t := t.head
  capacity t := t.cells.size
  moveHead := moveHead
  read? := read?
  write? := write?
  cellAt? := cellAt?

theorem eq_of_read {t t' : FixedTape} {value : Cell} (h : Tape.read? t = some (value, t')) : t' = t := by
  obtain ⟨_, -, heq⟩ := Option.map_eq_some_iff.1 h
  cases heq
  rfl

end FixedTape

end TapeMachine
