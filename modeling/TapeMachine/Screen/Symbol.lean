import TapeMachine.Screen.Style
import TapeMachine.Text.Columns

/-!
# Symbols

A text is written on the grid symbol by symbol.  A symbol is a character, with one exception: a carriage return and the
line feed after it are one symbol.  Any other line feed is not written at all, since text is written along a row.
-/

namespace TapeMachine.Screen

/-- What is written in one go, and the columns that it takes. -/
structure Symbol where
  text : String
  columns : Nat
  deriving DecidableEq, Repr

namespace Symbol

def ofChar (c : Char) : Symbol := ⟨c.toString, Text.columns c⟩

/-- The symbols of a text. -/
def ofChars : List Char → List Symbol
  | [] => []
  | '\r' :: '\n' :: rest => ⟨"\r\n", 1⟩ :: ofChars rest
  | '\n' :: rest => ofChars rest
  | c :: rest => ofChar c :: ofChars rest

end Symbol

/-- Text in one style. -/
structure Span where
  text : String
  style : Style := .plain

/-- The symbols of a span, each with its style. -/
def Span.symbols (span : Span) : List (Symbol × Style) :=
  (Symbol.ofChars span.text.toList).map fun symbol => (symbol, span.style)

/-- The text of a row. -/
abbrev Line := List Span

/-- The symbols of a line, each with its style. -/
def Line.symbols (line : Line) : List (Symbol × Style) := line.flatMap Span.symbols

/-- As many symbols as fit into `room` columns. -/
def fit : Nat → List (Symbol × Style) → List (Symbol × Style)
  | _, [] => []
  | room, (symbol, style) :: rest =>
    if symbol.columns ≤ room then (symbol, style) :: fit (room - symbol.columns) rest else []

/-- The columns that symbols take together. -/
def totalColumns : List (Symbol × Style) → Nat
  | [] => 0
  | (symbol, _) :: rest => symbol.columns + totalColumns rest

end TapeMachine.Screen
