import TapeMachine.Screen.Style
import TapeMachine.Word

/-!
# What the panes share

The rows that a pane has for its lines, the offset of the first line that it shows, and the style of its border.
-/

namespace TapeMachine.Pane

open Screen

/-- The largest offset.  It stands for the end of the text. -/
def maxScroll : Nat := maxWord

/-- The rows inside the border of a pane of the given height.  A pane that has none counts as one row high. -/
def visibleRows (height : Nat) : Nat := max (height - 2) 1

theorem visibleRows_eq (height : Nat) : visibleRows height = max 1 (height - 2) := Nat.max_comm _ _

theorem one_le_visibleRows (height : Nat) : 1 ≤ visibleRows height := Nat.le_max_right _ _

/-- The offset nearest to `offset` with which `visible` of `total` lines fill the pane. -/
def clampScroll (offset total visible : Nat) : Nat := min offset (total - visible)

/-- The lines that are shown. -/
def window {α : Type} (offset visible : Nat) (lines : List α) : List α := (lines.drop offset).take visible

/-- The border of the pane in focus is bright. -/
def borderStyle (isFocused : Bool) : Style :=
  if isFocused then (Style.ofFg Palette.yellow).bold else .ofFg Palette.grey

end TapeMachine.Pane
