/-!
# Colours and styles

A glyph on the screen has a look: two colours and a weight.  A style is a change of look, and what it does not mention
stays as it was.
-/

namespace TapeMachine.Screen

inductive Color where
  /-- The colour that the terminal has on its own. -/
  | reset
  | black
  | rgb (red green blue : UInt8)
  deriving DecidableEq, Repr

/-- What a glyph looks like. -/
structure Look where
  fg : Color := .reset
  bg : Color := .reset
  isBold : Bool := false
  deriving DecidableEq, Repr

/-- What a style changes. -/
structure Style where
  fg : Option Color := none
  bg : Option Color := none
  isBold : Bool := false
  deriving DecidableEq, Repr

namespace Style

def plain : Style := {}

/-- A style with a foreground. -/
def ofFg (fg : Color) : Style := { fg := some fg }

/-- A style with both colours. -/
def ofColors (fg bg : Color) : Style := { fg := some fg, bg := some bg }

def bold (s : Style) : Style := { s with isBold := true }

end Style

/-- The look after a style has been applied. -/
def Look.apply (l : Look) (s : Style) : Look :=
  { fg := s.fg.getD l.fg, bg := s.bg.getD l.bg, isBold := l.isBold || s.isBold }

/-! ### The palette -/

namespace Palette

def text : Color := .rgb 205 214 244
def blue : Color := .rgb 137 180 250
def orange : Color := .rgb 250 179 135
def grey : Color := .rgb 108 112 134
def green : Color := .rgb 166 227 161
def red : Color := .rgb 243 139 168
def yellow : Color := .rgb 249 226 175
def pink : Color := .rgb 245 194 231
/-- The background of the status line. -/
def bar : Color := .rgb 50 50 70

end Palette

end TapeMachine.Screen
