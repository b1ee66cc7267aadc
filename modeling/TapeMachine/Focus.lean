/-!
# The pane in focus

One pane of the screen has the focus: its border is bright and it is the one that scrolls.  The focus goes round
clockwise.
-/

namespace TapeMachine

/-- The panes that can have the focus. -/
inductive Focus where
  | source
  | tape
  | contexts
  | output
  deriving DecidableEq, Repr

namespace Focus

/-- The pane after this one. -/
def next : Focus → Focus
  | source => output
  | output => tape
  | tape => contexts
  | contexts => source

def label : Focus → String
  | source => "Source"
  | tape => "Tape"
  | contexts => "Stack"
  | output => "Terminal"

/-- The pane of a label. -/
def ofLabel? (label : String) : Option Focus := [source, tape, contexts, output].find? (·.label == label)

/-- The next `count` panes to have the focus. -/
def tour : Nat → Focus → List Focus
  | 0, _ => []
  | count + 1, f => f.next :: tour count f.next

end Focus

end TapeMachine
