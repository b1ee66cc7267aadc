import TapeMachine.Pane.Scroll
import TapeMachine.Screen.Widget

/-!
# The program pane

The text of the program, coloured by the kind of command, with the cursor on the character that comes next.  The pane
scrolls so that the line of the cursor is always in view.
-/

namespace TapeMachine.Pane.Program

open Screen

/-- The style of a character of the program. -/
def charStyle (c : Char) : Style :=
  if c = '[' ∨ c = ']' then (Style.ofFg Palette.blue).bold
  else if c = '+' ∨ c = '-' then .ofFg Palette.green
  else if c = '<' ∨ c = '>' then .ofFg Palette.text
  else if c = '.' ∨ c = ',' then .ofFg Palette.orange
  else .ofFg Palette.grey

/-- The style of the cursor, which turns red on a failure. -/
def cursorStyle (isError : Bool) : Style :=
  (Style.ofColors .black (if isError then Palette.red else Palette.yellow)).bold

/-- A program that is being laid out. -/
structure Layout where
  /-- The lines that are finished. -/
  lines : Array Line := #[]
  /-- The spans of the line that is not. -/
  spans : Array Span := #[]
  /-- The number of the line that the cursor was met on. -/
  cursorLine : Nat := 0

namespace Layout

/-- Lay out one more character.  On the end of a line the cursor is shown as a blank after the line. -/
def add (cursor : Nat) (isError : Bool) (index : Nat) (c : Char) (layout : Layout) : Layout :=
  let isCursor := index = cursor
  let cursorLine := if isCursor then layout.lines.size else layout.cursorLine
  if c = '\n' then
    let spans := if isCursor then layout.spans.push ⟨" ", cursorStyle isError⟩ else layout.spans
    { lines := layout.lines.push spans.toList, spans := #[], cursorLine }
  else
    let span : Span := ⟨c.toString, if isCursor then cursorStyle isError else charStyle c⟩
    { layout with spans := layout.spans.push span, cursorLine }

/-- Lay out characters, the first of which has the given index. -/
def addAll (cursor : Nat) (isError : Bool) : Nat → List Char → Layout → Layout
  | _, [], layout => layout
  | index, c :: rest, layout => addAll cursor isError (index + 1) rest (layout.add cursor isError index c)

/-- The lines, the last of which has no end. -/
def allLines (layout : Layout) : List Line := (layout.lines.push layout.spans.toList).toList

end Layout

/-- Lay out a program. -/
def layOut (source : List Char) (cursor : Nat) (isError : Bool) : Layout := Layout.addAll cursor isError 0 source {}

/-- The lines of a program. -/
def lines (source : List Char) (cursor : Nat) (isError : Bool) : List Line := (layOut source cursor isError).allLines

/-- The number of the line that the cursor is on; past the end of the program, of the last line. -/
def cursorLine (source : List Char) (cursor : Nat) (isError : Bool) : Nat :=
  let layout := layOut source cursor isError
  if source.length ≤ cursor then layout.lines.size else layout.cursorLine

/-- The offset nearest to `offset` with which line number `line` is in view. -/
def follow (line offset visible : Nat) : Nat :=
  if line < offset then line else if offset + visible ≤ line then line + 1 - visible else offset

/-- The offset after the pane has been drawn. -/
def scroll (source : List Char) (cursor : Nat) (isError : Bool) (height offset : Nat) : Nat :=
  let visible := visibleRows height
  clampScroll (follow (cursorLine source cursor isError) offset visible) (lines source cursor isError).length visible

/-- The lines that are shown. -/
def visibleLines (source : List Char) (cursor : Nat) (isError : Bool) (height offset : Nat) : List Line :=
  window (scroll source cursor isError height offset) (visibleRows height) (lines source cursor isError)

def title (source : List Char) (cursor : Nat) : String :=
  let length := source.length
  let position := min cursor length
  s!" Source ({position}/{length}) "

/-- Draw the pane into an area. -/
def draw (g : Grid) (a : Area) (source : List Char) (cursor : Nat) (isError isFocused : Bool) (offset : Nat) : Grid :=
  (g.drawBox a (title source cursor) (borderStyle isFocused)).drawLines a.inner .left
    (visibleLines source cursor isError a.height offset)

end TapeMachine.Pane.Program
