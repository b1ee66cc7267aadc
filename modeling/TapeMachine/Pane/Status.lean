import TapeMachine.Screen.Widget

/-!
# The status line

On the left how far the program has come and the last message, on the right the keys and the state of the run.
-/

namespace TapeMachine.Pane

open Screen

/-- What the status line tells. -/
structure Status where
  message : String
  position : Nat
  total : Nat
  isError : Bool
  isPlaying : Bool
  isFinished : Bool

namespace Status

/-- The left half. -/
def progress (s : Status) : Line :=
  let accent := if s.isError then Palette.red else Palette.blue
  [⟨s!" Char {s.position}/{s.total} ", (Style.ofColors .black accent).bold⟩,
   ⟨" | ", .ofColors Palette.grey Palette.bar⟩,
   ⟨s!" {s.message} ", .ofColors (if s.isError then Palette.red else Palette.text) Palette.bar⟩]

def keyStyle : Style := .ofColors .black Palette.grey

def textStyle : Style := .ofColors Palette.text Palette.bar

def separator : Span := ⟨"│", .ofColors Palette.grey Palette.bar⟩

/-- The keys and what they do. -/
def keys : Line :=
  [⟨" → ", keyStyle⟩, ⟨" step ", textStyle⟩, separator, ⟨" ", textStyle⟩,
   ⟨" ⎵ ", keyStyle⟩, ⟨" play ", textStyle⟩, separator, ⟨" ", textStyle⟩,
   ⟨" ↵ ", keyStyle⟩, ⟨" run ", textStyle⟩, separator, ⟨" ", textStyle⟩,
   ⟨"q", keyStyle⟩, ⟨" quit ", textStyle⟩]

/-- The state of the run, if there is something to say: a failure, else the end, else that it goes on by itself. -/
def indicator (s : Status) : Line :=
  let flag (label : String) (color : Color) : Line := [separator, ⟨label, (Style.ofColors .black color).bold⟩]
  if s.isError then flag " ERROR " Palette.red
  else if s.isFinished || s.total ≤ s.position then flag " END " Palette.green
  else if s.isPlaying then flag " ▶ PLAYING " Palette.orange
  else []

/-- Draw the status line into an area. -/
def draw (g : Grid) (a : Area) (s : Status) : Grid :=
  let (left, right) := a.splitColumns 50
  let bar : Style := { bg := some Palette.bar }
  let withProgress := (g.restyle left bar).drawLines left .left [progress s]
  (withProgress.restyle right bar).drawLines right .right [keys ++ indicator s]

end Status

end TapeMachine.Pane
