import TapeMachine.Screen.Area
import TapeMachine.Screen.Symbol

/-!
# The character grid

A screen is a grid of glyphs.  Styled text is written on it along a row; a symbol of several columns takes the glyph it
is written on and hides those after it.
-/

namespace TapeMachine.Screen

/-- The text of a symbol and what it looks like. -/
structure Glyph where
  symbol : String := " "
  look : Look := {}
  deriving DecidableEq, Repr

/-- Glyphs, row by row. -/
structure Grid where
  width : Nat
  height : Nat
  glyphs : Array Glyph

namespace Grid

/-- A grid of spaces with the size of an area. -/
def blank (a : Area) : Grid := ⟨a.width, a.height, Array.replicate (a.width * a.height) {}⟩

/-- The whole grid as an area. -/
def area (g : Grid) : Area := { width := g.width, height := g.height }

/-- Change one glyph, if it is on the grid. -/
def modifyAt (g : Grid) (x y : Nat) (f : Glyph → Glyph) : Grid :=
  if x < g.width ∧ y < g.height then { g with glyphs := g.glyphs.modify (y * g.width + x) f } else g

/-- Write the text of a symbol. -/
def put (g : Grid) (x y : Nat) (symbol : String) (style : Style) : Grid :=
  g.modifyAt x y fun glyph => { symbol, look := glyph.look.apply style }

/-- Change the look of every glyph in an area. -/
def restyle (g : Grid) (a : Area) (style : Style) : Grid :=
  (List.range' a.y a.height).foldl (fun g y =>
    (List.range' a.x a.width).foldl (fun g x =>
      g.modifyAt x y fun glyph => { glyph with look := glyph.look.apply style }) g) g

/-- The rows, from the top. -/
def rows (g : Grid) : List (List Glyph) :=
  (List.range g.height).map fun y => (g.glyphs.extract (y * g.width) (y * g.width + g.width)).toList

/-- The text of the rows, from the top. -/
def text (g : Grid) : List String := g.rows.map fun row => String.join (row.map Glyph.symbol)

/-- Write symbols along a row.  The glyphs that a wide symbol hides stay as they are. -/
def write (g : Grid) (x y : Nat) : List (Symbol × Style) → Grid
  | [] => g
  | (symbol, style) :: rest => (g.put x y symbol.text style).write (x + symbol.columns) y rest

/-- Make the glyphs of a row blank, from column `x` on. -/
def erase (g : Grid) (x y count : Nat) : Grid :=
  (List.range' x count).foldl (fun g x => g.modifyAt x y fun _ => {}) g

/-- Write symbols along a row.  The glyphs that a wide symbol hides are made blank. -/
def overwrite (g : Grid) (x y : Nat) : List (Symbol × Style) → Grid
  | [] => g
  | (symbol, style) :: rest =>
    ((g.put x y symbol.text style).erase (x + 1) y (symbol.columns - 1)).overwrite (x + symbol.columns) y rest

end Grid

end TapeMachine.Screen
