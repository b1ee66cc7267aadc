import TapeMachine.Pane.Scroll
import TapeMachine.Screen.Widget
import TapeMachine.Text.Lines

/-!
# The output pane

What the program has written.
-/

namespace TapeMachine.Pane.Output

open Screen

/-- The offset after the pane has been drawn.  While nothing has been written it stays as it is. -/
def scroll (output : String) (height offset : Nat) : Nat :=
  if output.isEmpty then offset else clampScroll offset (Text.lines output).length (visibleRows height)

/-- Draw the pane into an area. -/
def draw (g : Grid) (a : Area) (output : String) (isFocused : Bool) (offset : Nat) : Grid :=
  let title := " Output "
  if output.isEmpty then
    ((g.restyle a (.ofFg Palette.grey)).drawBox a title (borderStyle isFocused)).drawLines a.inner .left
      [[⟨"(no output)", .plain⟩]]
  else
    (g.drawBox a title (borderStyle isFocused)).drawItems a.inner.indent (.ofFg Palette.text)
      (window (scroll output a.height offset) (visibleRows a.height) (Text.lines output))

end TapeMachine.Pane.Output
