import TapeMachine.Text.Lossy

/-!
# Byte sinks

Where the output command writes its bytes.  A sink keeps what it was given.  It may be troubled: a call to write is
then refused, or takes no byte although it does not fail, or is interrupted.  An interrupted call is made again, so
no one notices.
-/

namespace TapeMachine

/-- What comes of a call to write a byte. -/
inductive Verdict where
  | accept
  | refuse (reason : String)
  /-- Nothing was written, and nothing was said. -/
  | stall
  deriving DecidableEq, Repr

/-- A number of calls that all fare alike; without a verdict they are interrupted. -/
structure Spell where
  calls : Nat
  verdict? : Option Verdict
  deriving DecidableEq, Repr

/-- Bytes written so far, and how the calls to come will fare. -/
structure Sink where
  written : Array UInt8 := #[]
  /-- How the next calls fare, in order. -/
  spells : List Spell := []
  /-- How the calls after those fare. -/
  lasting : Verdict := .accept
  /-- Why the sink cannot be flushed. -/
  flushRefusal? : Option String := none

namespace Sink

/-- The verdict of the first call that is not interrupted, and the spells left after it. -/
def verdict (lasting : Verdict) : List Spell → Verdict × List Spell
  | [] => (lasting, [])
  | ⟨0, _⟩ :: rest => verdict lasting rest
  | ⟨_ + 1, none⟩ :: rest => verdict lasting rest
  | ⟨calls + 1, some v⟩ :: rest => (v, ⟨calls, some v⟩ :: rest)

/-- Write one byte. -/
def write (s : Sink) (byte : UInt8) : Except String Unit × Sink :=
  let (v, spells) := verdict s.lasting s.spells
  match v with
  | .accept => (.ok (), { s with written := s.written.push byte, spells })
  | .refuse reason => (.error reason, { s with spells })
  | .stall => (.error "failed to write whole buffer", { s with spells })

/-- Write several bytes, stopping at the first that is not accepted. -/
def writeAll : List UInt8 → Sink → Except String Unit × Sink
  | [], s => (.ok (), s)
  | byte :: rest, s =>
    match s.write byte with
    | (.ok (), s) => writeAll rest s
    | (.error reason, s) => (.error reason, s)

def flush (s : Sink) : Except String Unit :=
  match s.flushRefusal? with
  | some reason => .error reason
  | none => .ok ()

/-- Everything written, as text. -/
def text (s : Sink) : String := Text.decodeLossy s.written

/-- A sink that refuses every call after the first `count`. -/
def closingAfter (count : Nat) : Sink := { spells := [⟨count, some .accept⟩], lasting := .refuse "sink closed" }

/-- A sink that takes nothing more after the first `count` calls. -/
def stallingAfter (count : Nat) : Sink := { spells := [⟨count, some .accept⟩], lasting := .stall }

/-- A sink that refuses one call, after the first `count`. -/
def stumblingAfter (count : Nat) : Sink :=
  { spells := [⟨count, some .accept⟩, ⟨1, some (.refuse "sink hiccup")⟩] }

/-- A sink that interrupts one call, after the first `count`. -/
def interruptingAfter (count : Nat) : Sink := { spells := [⟨count, some .accept⟩, ⟨1, none⟩] }

/-- A sink that takes every byte and cannot be flushed. -/
def unflushable : Sink := { flushRefusal? := some "flush failed" }

end Sink

end TapeMachine
