/-!
# Lenient decoding

Bytes are read as UTF-8.  What cannot be read becomes the replacement character, once for every longest run of bytes
that begins some character and breaks off.
-/

namespace TapeMachine.Text

/-- The inclusive range that the next byte of a character must lie in. -/
abbrev ByteRange := UInt8 × UInt8

def ByteRange.contains (range : ByteRange) (b : UInt8) : Bool := range.1 ≤ b && b ≤ range.2

/-- Any continuation byte. -/
def continuation : ByteRange := (0x80, 0xbf)

/-- A character whose first bytes have been read: the bits so far and the ranges of the bytes to come. -/
structure Pending where
  bits : Nat
  next : ByteRange
  later : List ByteRange

/-- The character begun by a byte that does not stand for a character alone. -/
def Pending.ofLead? (b : UInt8) : Option Pending :=
  if b < 0xc2 then none
  else if b < 0xe0 then some ⟨(b &&& 0x1f).toNat, continuation, []⟩
  else if b = 0xe0 then some ⟨0, (0xa0, 0xbf), [continuation]⟩
  else if b = 0xed then some ⟨0xd, (0x80, 0x9f), [continuation]⟩
  else if b < 0xf0 then some ⟨(b &&& 0x0f).toNat, continuation, [continuation]⟩
  else if b = 0xf0 then some ⟨0, (0x90, 0xbf), [continuation, continuation]⟩
  else if b < 0xf4 then some ⟨(b &&& 0x07).toNat, continuation, [continuation, continuation]⟩
  else if b = 0xf4 then some ⟨4, (0x80, 0x8f), [continuation, continuation]⟩
  else none

/-- What stands for bytes that are no character. -/
def replacement : Char := '\ufffd'

/-- The text read so far and the character that is being read. -/
structure Decoder where
  text : String := ""
  pending : Option Pending := none

/-- Read a byte that begins a character. -/
def Decoder.start (text : String) (b : UInt8) : Decoder :=
  if b < 0x80 then ⟨text.push (Char.ofNat b.toNat), none⟩
  else match Pending.ofLead? b with
    | some pending => ⟨text, some pending⟩
    | none => ⟨text.push replacement, none⟩

/-- Read the next byte.  A byte that cannot go on with the pending character breaks it off and begins another. -/
def Decoder.read (d : Decoder) (b : UInt8) : Decoder :=
  match d.pending with
  | none => start d.text b
  | some ⟨bits, next, later⟩ =>
    if next.contains b then
      let bits := bits * 64 + (b &&& 0x3f).toNat
      match later with
      | [] => ⟨d.text.push (Char.ofNat bits), none⟩
      | next :: later => ⟨d.text, some ⟨bits, next, later⟩⟩
    else
      start (d.text.push replacement) b

/-- The text once the bytes have ended. -/
def Decoder.finish (d : Decoder) : String :=
  match d.pending with
  | none => d.text
  | some _ => d.text.push replacement

/-- The text of `bytes`. -/
def decodeLossy (bytes : Array UInt8) : String := (bytes.foldl Decoder.read {}).finish

end TapeMachine.Text
