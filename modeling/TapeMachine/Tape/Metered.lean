import TapeMachine.Tape.Basic

/-!
# The metered tape

A tape that counts its reads and goes blind after a given number of them: every later read finds a zero, whatever
the cell holds.  Every loop on such a tape comes to an end, since its guard is a read.
-/

namespace TapeMachine

/-- A tape that may be read `limit` times. -/
structure MeteredTape (τ : Type) where
  tape : τ
  limit : Nat
  /-- The reads made so far. -/
  reads : Nat := 0

namespace MeteredTape

variable {τ : Type} [Tape τ]

def moveHead (t : MeteredTape τ) (position : Int) : Except OutOfBounds (MeteredTape τ) :=
  (Tape.moveHead t.tape position).map fun tape => { t with tape }

def read? (t : MeteredTape τ) : Option (Cell × MeteredTape τ) :=
  if t.reads < t.limit then
    (Tape.read? t.tape).map fun (value, tape) => (value, { t with tape, reads := t.reads + 1 })
  else
    some (0, { t with reads := t.reads + 1 })

def write? : MeteredTape τ → Cell → Option (MeteredTape τ)
  | ⟨tape, limit, reads⟩, value => (Tape.write? tape value).map fun tape => ⟨tape, limit, reads⟩

instance : Tape (MeteredTape τ) where
  head t := Tape.head t.tape
  capacity t := Tape.capacity t.tape
  moveHead := moveHead
  read? := read?
  write? := write?
  cellAt? t := Tape.cellAt? t.tape

end MeteredTape

end TapeMachine
