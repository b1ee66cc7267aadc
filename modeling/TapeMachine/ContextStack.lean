import TapeMachine.Context
import TapeMachine.Fault

/-!
# The context stack

The contexts that are open, the outermost first.  A stack may be bounded, and it may be traced: it then notes every
push and every pop in its journal.
-/

namespace TapeMachine

variable {κ : Type}

/-- Contexts, the outermost first. -/
structure ContextStack (κ : Type) where
  items : Array (Context κ) := #[]
  /-- The most contexts that a push may leave on the stack. -/
  limit : Option Nat := none
  isTraced : Bool := false
  /-- What happened to the stack, one line for each event. -/
  journal : Array String := #[]

namespace ContextStack

instance : Inhabited (ContextStack κ) := ⟨{}⟩

def size (s : ContextStack κ) : Nat := s.items.size

def isEmpty (s : ContextStack κ) : Bool := s.items.isEmpty

/-- The index of the innermost context. -/
def topIndex? (s : ContextStack κ) : Option Nat := if s.size = 0 then none else some (s.size - 1)

def get? (s : ContextStack κ) (index : Nat) : Option (Context κ) := s.items[index]?

/-- The innermost context. -/
def top? (s : ContextStack κ) : Option (Context κ) := s.topIndex?.bind s.get?

/-- Change the context at `index`, if there is one. -/
def modify (s : ContextStack κ) (index : Nat) (f : Context κ → Context κ) : ContextStack κ :=
  { s with items := s.items.modify index f }

/-- Add a line to the journal. -/
def note (s : ContextStack κ) (line : String) : ContextStack κ := { s with journal := s.journal.push line }

/-- Note an event, if the stack is traced. -/
def trace (s : ContextStack κ) (event : String) (c : Context κ) : ContextStack κ :=
  if s.isTraced then s.note (event ++ " " ++ c.description) else s

/-- Whether one more context fits. -/
def hasRoom (s : ContextStack κ) : Bool :=
  match s.limit with
  | some limit => s.size < limit
  | none => true

def push (s : ContextStack κ) (c : Context κ) : Except Fault (ContextStack κ) :=
  if s.hasRoom then .ok { s.trace "push" c with items := s.items.push c } else .error (.io "stack limit")

/-- The innermost context and the stack without it. -/
def pop? (s : ContextStack κ) : Option (Context κ × ContextStack κ) :=
  s.top?.map fun c => (c, { s.trace "pop" c with items := s.items.pop })

/-- The summaries, the outermost first. -/
def summaries (s : ContextStack κ) : List ContextSummary := s.items.toList.map Context.summary

/-- Note what is on the stack. -/
def probe (s : ContextStack κ) : ContextStack κ :=
  s.note ("probe " ++ " | ".intercalate (s.items.toList.map Context.description))

theorem get?_eq_none_iff {s : ContextStack κ} {index : Nat} : s.get? index = none ↔ s.size ≤ index := by
  simp only [get?, size, Array.getElem?_eq_none_iff]

/-! ### Changing a context in place -/

@[simp]
theorem size_modify (s : ContextStack κ) (index : Nat) (f : Context κ → Context κ) :
    (s.modify index f).size = s.size := by
  simp [size, modify]

theorem get?_modify (s : ContextStack κ) (index : Nat) (f : Context κ → Context κ) (other : Nat) :
    (s.modify index f).get? other = if index = other then (s.get? other).map f else s.get? other := by
  simp [get?, modify, Array.getElem?_modify]

theorem topIndex?_eq_some_iff {s : ContextStack κ} {index : Nat} : s.topIndex? = some index ↔ s.size = index + 1 := by
  unfold topIndex?
  split
  · simp only [reduceCtorEq, false_iff]; omega
  · simp only [Option.some.injEq]; omega

end ContextStack

end TapeMachine
