import TapeMachine.Screen.Grid

/-!
# Boxes, paragraphs and lists

What the panes of the screen are made of.  Text that does not fit into its area is cut off.
-/

namespace TapeMachine.Screen

namespace Grid

/-- Draw a box around an area.  Its sides overwrite each other in the order left, top, right, bottom, and the corners
come last. -/
def drawSides (g : Grid) (a : Area) (style : Style) : Grid :=
  let column (x : Nat) (g : Grid) : Grid := (List.range' a.y a.height).foldl (fun g y => g.put x y "│" style) g
  let row (y : Nat) (g : Grid) : Grid := (List.range' a.x a.width).foldl (fun g x => g.put x y "─" style) g
  let right := a.right - 1
  let bottom := a.bottom - 1
  let sides := row bottom (column right (row a.y (column a.x g)))
  (((sides.put right bottom "┘" style).put right a.y "┐" style).put a.x bottom "└" style).put a.x a.y "┌" style

/-- Draw a box with a title in its upper side. -/
def drawBox (g : Grid) (a : Area) (title : String) (style : Style) : Grid :=
  if a.isEmpty then g
  else (g.drawSides a style).overwrite (a.x + 1) a.y (fit (a.width - 2) (Span.symbols ⟨title, .plain⟩))

/-- Where a line starts in an area that is wider than the line. -/
inductive Alignment where
  | left
  | right
  deriving DecidableEq, Repr

/-- Write lines into an area, one a row.  A symbol wider than the area is left out. -/
def drawLines (g : Grid) (a : Area) (alignment : Alignment) (lines : List Line) : Grid :=
  if a.width = 0 then g
  else
    (lines.take a.height).zipIdx.foldl (fun g (line, row) =>
      let symbols := fit a.width (line.symbols.filter fun (symbol, _) => symbol.columns ≤ a.width)
      let start := match alignment with
        | .left => 0
        | .right => a.width - totalColumns symbols
      g.write (a.x + start) (a.y + row) symbols) g

/-- Write items into an area, one a row, each in a style that fills its row. -/
def drawItems (g : Grid) (a : Area) (style : Style) (items : List String) : Grid :=
  if a.width = 0 then g
  else
    (items.take a.height).zipIdx.foldl (fun g (item, row) =>
      let styled := g.restyle { a with y := a.y + row, height := 1 } style
      styled.overwrite a.x (a.y + row) (fit a.width (Span.symbols ⟨item, .plain⟩))) g

end Grid

end TapeMachine.Screen
