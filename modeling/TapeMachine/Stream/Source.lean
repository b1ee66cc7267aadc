/-!
# Byte sources

Where the input command takes its bytes from.  The end of the input is not a failure: the source then has no byte to
give.  A source may refuse some of its reads instead.
-/

namespace TapeMachine

/-- Bytes to be read one after the other. -/
structure Source where
  bytes : List UInt8
  /-- The reads made so far. -/
  reads : Nat := 0
  /-- Why the source refuses a read, by the number of reads before it. -/
  refusal? : Nat → Option String := fun _ => none

namespace Source

/-- A source that gives its bytes and then ends. -/
def ofBytes (bytes : List UInt8) : Source := { bytes }

/-- A source that refuses every read after the first `count`. -/
def closingAfter (count : Nat) (bytes : List UInt8) : Source :=
  { bytes, refusal? := fun reads => if count ≤ reads then some "source closed" else none }

/-- The next byte, `none` at the end of the input, or the reason of a refusal. -/
def read (s : Source) : Except String (Option UInt8) × Source :=
  let next := { s with reads := s.reads + 1 }
  match s.refusal? s.reads with
  | some reason => (.error reason, next)
  | none =>
    match s.bytes with
    | [] => (.ok none, next)
    | byte :: rest => (.ok (some byte), { next with bytes := rest })

end Source

end TapeMachine
