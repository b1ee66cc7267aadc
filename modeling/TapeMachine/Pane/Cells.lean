import TapeMachine.Pane.Scroll
import TapeMachine.Screen.Widget
import TapeMachine.Tape.Basic

/-!
# The cell pane

The cells around the head, eight in a row, each row after the position of its first cell.  The row of the head is near
the middle of the pane, as far as the ends of the tape allow.
-/

namespace TapeMachine.Pane.Cells

open Screen

/-- The cells in a row. -/
def rowCells : Nat := 8

/-- The rows that a tape of the given capacity fills, the last one perhaps in part. -/
def totalRows (capacity : Nat) : Nat := (capacity + (rowCells - 1)) / rowCells

/-- The first row to show. -/
def firstRow (head : Int) (totalRows visibleRows : Nat) : Nat :=
  min (head.toNat / rowCells - visibleRows / 2) (totalRows - visibleRows)

variable {τ : Type} [Tape τ]

/-- The style of a cell. -/
def cellStyle (isHead : Bool) (value : Cell) : Style :=
  if isHead then (Style.ofColors .black Palette.yellow).bold
  else if value ≠ 0 then .ofFg Palette.text
  else .ofFg Palette.grey

/-- The cells from `position` on, at most `count` and none beyond the end of the tape. -/
def cellsFrom (tape : τ) : Nat → Int → List (Int × Cell)
  | 0, _ => []
  | count + 1, position =>
    match Tape.cellAt? tape position with
    | some value => (position, value) :: cellsFrom tape count (position + 1)
    | none => []

/-- The position of the first cell of a row, as a signed word. -/
def rowStart (row : Nat) : Int := signedWord (row * rowCells)

/-- The line of a row. -/
def line (tape : τ) (row : Nat) : Line :=
  ⟨Text.alignRight 6 (toString (rowStart row)) ++ " ", .ofFg Palette.grey⟩ ::
    (cellsFrom tape rowCells (rowStart row)).flatMap fun (position, value) =>
      [⟨Text.alignRight 5 (toString value), cellStyle (position == Tape.head tape) value⟩, ⟨" ", .plain⟩]

/-- The rows that a pane of the given height shows. -/
def shownRows (tape : τ) (height : Nat) : List Nat :=
  let visible := visibleRows height
  let total := totalRows (Tape.capacity tape)
  let first := firstRow (Tape.head tape) total visible
  List.range' first (min total (first + visible) - first)

/-- Draw the pane into an area.  The title reads the cell under the head, so there must be one, and the tape is
returned as the read leaves it. -/
def draw (g : Grid) (a : Area) (tape : τ) (isFocused : Bool) : Option (Grid × τ) := do
  let head := Tape.head tape
  let (value, tape) ← Tape.read? tape
  let boxed := g.drawBox a s!" Tape (head {head}, cell {value}) " (borderStyle isFocused)
  return (boxed.drawLines a.inner .left ((shownRows tape a.height).map (line tape)), tape)

end TapeMachine.Pane.Cells
