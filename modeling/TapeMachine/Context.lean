import TapeMachine.Command

/-!
# Contexts

What a character means is decided by the contexts that are open, one for each loop around it and one for the whole
program.

* A plain context is a command mapping; the program as a whole has one.
* A recording context belongs to a loop that was entered.  While it is open it takes down every character it knows;
  once closed it holds the body of the loop.
* A skip context belongs to a loop that was not entered.  It counts brackets until the loop is over.

The contexts form a stack, and a context names the context around it by the index of that context in the stack.
-/

namespace TapeMachine

variable {κ : Type}

/-- A loop that was entered. -/
structure Recording (κ : Type) where
  commands : CommandMap κ
  /-- The character that closes the loop. -/
  exit : Char
  /-- The characters taken down so far. -/
  recorded : Array Char := #[]
  isOpen : Bool := true
  /-- The index of the context to which the recorded characters are passed on. -/
  parent : Option Nat := none

namespace Recording

/-- What the characters of a loop do in it. -/
inductive Effect (κ : Type) where
  | invoke (command : Command κ)
  /-- The loop has come to its end and is run again. -/
  | replay

/-- What `c` does in the loop, `none` if it means nothing there. -/
def effect? (r : Recording κ) (c : Char) : Option (Effect κ) :=
  if c = r.exit then some .replay else r.commands[c]?.map .invoke

theorem effect?_eq_none_iff {r : Recording κ} {c : Char} :
    r.effect? c = none ↔ c ≠ r.exit ∧ r.commands[c]? = none := by
  unfold effect?
  split
  · next hc => simp [hc]
  · next hc => simp [hc]

theorem effect?_eq_replay_iff {r : Recording κ} {c : Char} : r.effect? c = some .replay ↔ c = r.exit := by
  unfold effect?
  split
  · next hc => simp [hc]
  · next hc => simp [hc]

theorem effect?_eq_invoke_iff {r : Recording κ} {c : Char} {command : Command κ} :
    r.effect? c = some (.invoke command) ↔ c ≠ r.exit ∧ r.commands[c]? = some command := by
  unfold effect?
  split
  · next hc => simp [hc]
  · next hc => simp [hc]

/-- Take down `c`, unless the recording is closed. -/
def save (r : Recording κ) (c : Char) : Recording κ :=
  if r.isOpen then { r with recorded := r.recorded.push c } else r

/-- The context that is told of a character; a closed recording tells no one. -/
def forward? (r : Recording κ) : Option Nat := if r.isOpen then r.parent else none

/-- Close the recording.  The last character taken down is the one that closes the loop, and is dropped. -/
def close (r : Recording κ) : Recording κ :=
  if r.isOpen then { r with isOpen := false, recorded := r.recorded.pop } else r

end Recording

/-- A loop that was not entered. -/
structure Skip (κ : Type) where
  commands : CommandMap κ
  /-- The character that opened the loop. -/
  enter : Char
  /-- The character that closes the loop. -/
  exit : Char
  /-- How many loops are open, this one included. -/
  depth : Nat := 1
  /-- The index of the context to which the skipped characters are passed on. -/
  parent : Option Nat := none

namespace Skip

/-- Whether `c` means something in the loop. -/
def recognizes (s : Skip κ) (c : Char) : Bool := c == s.enter || c == s.exit || s.commands.contains c

theorem recognizes_iff {s : Skip κ} {c : Char} :
    s.recognizes c ↔ c = s.enter ∨ c = s.exit ∨ s.commands[c]? ≠ none := by
  simp only [recognizes, Bool.or_eq_true, beq_iff_eq, or_assoc, Std.TreeMap.contains_eq_isSome_getElem?,
    Option.isSome_iff_ne_none]

/-- Count the brackets.  The depth is an unsigned word, so nothing is left to close below zero. -/
def count? (s : Skip κ) (c : Char) : Option (Skip κ) :=
  if c = s.enter then some { s with depth := s.depth + 1 }
  else if c = s.exit then
    match s.depth with
    | 0 => none
    | depth + 1 => some { s with depth }
  else some s

/-- Whether the loop is over. -/
def isOver (s : Skip κ) : Bool := s.depth == 0

end Skip

/-- One level of the context stack. -/
inductive Context (κ : Type) where
  | plain (commands : CommandMap κ)
  | recording (r : Recording κ)
  | skip (s : Skip κ)

/-- What is shown of a context. -/
inductive ContextSummary where
  /-- The number of commands. -/
  | plain (commands : Nat)
  /-- The number of characters taken down. -/
  | recording (recorded : Nat) (isOpen : Bool)
  | skip (depth : Nat)
  deriving DecidableEq, Repr

namespace Context

/-- The mapping that a loop opened here starts from. -/
def commands : Context κ → CommandMap κ
  | plain commands => commands
  | recording r => r.commands
  | skip s => s.commands

def summary : Context κ → ContextSummary
  | plain commands => .plain commands.size
  | recording r => .recording r.recorded.size r.isOpen
  | skip s => .skip s.depth

/-- A description that spells out what was recorded. -/
def description : Context κ → String
  | plain commands => s!"plain {commands.size}"
  | recording r => (if r.isOpen then "rec open " else "rec closed ") ++ String.ofList r.recorded.toList
  | skip s => s!"skip {s.depth}"

end Context

/-- The summary in a few characters. -/
def ContextSummary.short : ContextSummary → String
  | plain commands => s!"P{commands}"
  | recording recorded isOpen => s!"R{recorded}" ++ (if isOpen then "o" else "c")
  | skip depth => s!"S{depth}"

end TapeMachine
