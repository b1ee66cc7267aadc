/-!
# Areas

A rectangle of the screen, and the ways in which it is divided.  The whole screen has a limited number of cells: one
that would have more is made smaller in both directions.
-/

namespace TapeMachine.Screen

/-- A rectangle: its upper left corner and its size. -/
structure Area where
  x : Nat := 0
  y : Nat := 0
  width : Nat
  height : Nat
  deriving DecidableEq, Repr

namespace Area

/-- The cells that a screen has at most. -/
def maxCells : Nat := 65535

/-- A screen of the given proportion with as many cells as a screen can have.  The sides of that rectangle are found in
floating-point numbers, and what they have after the point is dropped. -/
def ofProportion (width height : UInt16) : Area :=
  let ratio := width.toFloat / height.toFloat
  let rows := (maxCells.toFloat / ratio).sqrt
  { width := (rows * ratio).toUInt16.toNat, height := rows.toUInt16.toNat }

/-- The whole of a screen of the given size. -/
def ofSize (width height : UInt16) : Area :=
  if width.toNat * height.toNat ≤ maxCells then { width := width.toNat, height := height.toNat }
  else ofProportion width height

/-- Whether there is nothing in it. -/
def isEmpty (a : Area) : Bool := a.width == 0 || a.height == 0

/-- The column after the last. -/
def right (a : Area) : Nat := a.x + a.width

/-- The row after the last. -/
def bottom (a : Area) : Nat := a.y + a.height

/-- What a border of one column and one row leaves. -/
def inner (a : Area) : Area := { x := a.x + 1, y := a.y + 1, width := a.width - 2, height := a.height - 2 }

/-- The area without its first column. -/
def indent (a : Area) : Area := { a with x := a.x + 1, width := a.width - 1 }

/-- The given percentage of `size`, rounded to the nearest, a half upwards. -/
def share (size percent : Nat) : Nat := (size * percent + 50) / 100

/-- A left part with the given percentage of the width, and the rest. -/
def splitColumns (a : Area) (percent : Nat) : Area × Area :=
  let width := share a.width percent
  ({ a with width }, { a with x := a.x + width, width := a.width - width })

/-- An upper part with the given percentage of the height, and the rest. -/
def splitRows (a : Area) (percent : Nat) : Area × Area :=
  let height := share a.height percent
  ({ a with height }, { a with y := a.y + height, height := a.height - height })

/-- The area above its last row, and the last row. -/
def splitLastRow (a : Area) : Area × Area :=
  let height := a.height - 1
  ({ a with height }, { a with y := a.y + height, height := a.height - height })

end Area

end TapeMachine.Screen
