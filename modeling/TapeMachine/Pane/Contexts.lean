import TapeMachine.Context
import TapeMachine.Pane.Scroll
import TapeMachine.Screen.Widget

/-!
# The context pane

The context stack with the innermost context, which is the one at work, in the first row.
-/

namespace TapeMachine.Pane.Contexts

open Screen

/-- What is said of a context. -/
def describe : ContextSummary → Span
  | .plain commands => ⟨s!"root ({commands} commands)", .ofFg Palette.text⟩
  | .recording recorded true => ⟨s!"loop, recording ({recorded} chars)", .ofFg Palette.pink⟩
  | .recording recorded false => ⟨s!"loop, replaying ({recorded} chars)", .ofFg Palette.blue⟩
  | .skip depth => ⟨s!"loop, skipping (depth {depth})", .ofFg Palette.grey⟩

/-- The mark of the context at work. -/
def marker (isTop : Bool) : Span :=
  if isTop then ⟨"▶ ", (Style.ofFg Palette.orange).bold⟩ else ⟨"  ", .plain⟩

/-- The lines of a stack, the innermost context first. -/
def lines (contexts : List ContextSummary) : List Line :=
  (contexts.zipIdx.map fun (summary, index) =>
    [marker (index + 1 == contexts.length), ⟨"#" ++ Text.alignLeft 3 (toString index), .ofFg Palette.grey⟩,
      describe summary]).reverse

/-- The offset after the pane has been drawn. -/
def scroll (contexts : List ContextSummary) (height offset : Nat) : Nat :=
  clampScroll offset contexts.length (visibleRows height)

/-- Draw the pane into an area. -/
def draw (g : Grid) (a : Area) (contexts : List ContextSummary) (isFocused : Bool) (offset : Nat) : Grid :=
  let count := contexts.length
  (g.drawBox a s!" Contexts ({count}) " (borderStyle isFocused)).drawLines a.inner .left
    (window (scroll contexts a.height offset) (visibleRows a.height) (lines contexts))

end TapeMachine.Pane.Contexts
