import TapeMachine.Text.Blank

/-!
# Unknown characters

A program may hold characters that are no commands.  A policy says which of them are passed over.
-/

namespace TapeMachine

/-- Which unknown characters are passed over. -/
inductive Policy where
  /-- None. -/
  | zeroTolerance
  /-- The blanks. -/
  | ignoreWhitespace
  /-- All of them, so that a program may hold comments. -/
  | ignoreUnknown
  deriving DecidableEq, Repr, Inhabited

namespace Policy

/-- The policy of a run that is not told otherwise. -/
def standard : Policy := ignoreWhitespace

def tolerates : Policy → Char → Bool
  | zeroTolerance, _ => false
  | ignoreWhitespace, c => Text.isBlank c
  | ignoreUnknown, _ => true

/-- The name by which a policy is chosen. -/
def name : Policy → String
  | zeroTolerance => "zero"
  | ignoreWhitespace => "whitespace"
  | ignoreUnknown => "unknown"

/-- What the policy does, in one word. -/
def label : Policy → String
  | zeroTolerance => "ZeroTolerance"
  | ignoreWhitespace => "IgnoreWhitespace"
  | ignoreUnknown => "IgnoreUnknown"

/-- The policy of a name. -/
def ofName? (name : String) : Option Policy :=
  if name = "zero" then some zeroTolerance
  else if name = "whitespace" then some ignoreWhitespace
  else if name = "unknown" then some ignoreUnknown
  else none

/-- What is said of a name that no policy has. -/
def unknownNameMessage (name : String) : String :=
  "unknown policy '" ++ name ++ "' (expected zero, whitespace or unknown)"

theorem ofName?_eq_some_iff {name : String} {p : Policy} : ofName? name = some p ↔ name = p.name := by
  unfold ofName?
  cases p <;> split <;> simp_all [Policy.name] <;> split <;> simp_all

end Policy

end TapeMachine
