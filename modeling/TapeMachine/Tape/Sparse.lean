import Std.Data.TreeMap
import TapeMachine.Tape.Basic

/-!
# The sparse tape

Only the cells that are not zero are stored, so a large capacity costs nothing until it is used.  Moving and looking
at a cell respect the capacity; the cell under the head can always be read and written, even on a tape of no cells.
-/

namespace TapeMachine

/-- A tape stored as the map of its nonzero cells. -/
structure SparseTape where
  cells : Std.TreeMap Int Cell
  head : Int
  capacity : Nat

namespace SparseTape

/-- The blank tape of `capacity` cells. -/
def ofCapacity (capacity : Nat) : SparseTape := ⟨∅, 0, capacity⟩

instance : Inhabited SparseTape := ⟨ofCapacity defaultCapacity⟩

/-- The value stored at `position`, zero where nothing is stored. -/
def valueAt (t : SparseTape) (position : Int) : Cell := t.cells[position]?.getD 0

/-- The number of cells that are not zero. -/
def occupied (t : SparseTape) : Nat := t.cells.size

def moveHead (t : SparseTape) (position : Int) : Except OutOfBounds SparseTape :=
  (checkBounds position t.capacity).map fun _ => { t with head := position }

def read? (t : SparseTape) : Option (Cell × SparseTape) := some (t.valueAt t.head, t)

/-- Writing a zero forgets the cell. -/
def write? (t : SparseTape) (value : Cell) : Option SparseTape :=
  some { t with cells := if value = 0 then t.cells.erase t.head else t.cells.insert t.head value }

def cellAt? (t : SparseTape) (position : Int) : Option Cell :=
  match checkBounds position t.capacity with
  | .ok _ => some (t.valueAt position)
  | .error _ => none

instance : Tape SparseTape where
  head := head
  capacity := capacity
  moveHead := moveHead
  read? := read?
  write? := write?
  cellAt? := cellAt?

theorem eq_of_read {t t' : SparseTape} {value : Cell} (h : Tape.read? t = some (value, t')) : t' = t := by
  cases h
  rfl

end SparseTape

end TapeMachine
