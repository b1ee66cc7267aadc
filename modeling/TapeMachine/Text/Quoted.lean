import TapeMachine.Text.Visible

/-!
# Quoted characters

How a message names a character: between single quotes, as it is if it can be seen, and escaped otherwise.
-/

namespace TapeMachine.Text

/-- The code point in lower-case hexadecimal digits, without leading zeros. -/
def codePoint (c : Char) : String :=
  "\\u\x7b" ++ String.ofList (Nat.toDigits 16 c.toNat) ++ "\x7d"

/-- The character as it stands between the quotes. -/
def escaped (c : Char) : String :=
  if c = '\x00' then "\\0"
  else if c = '\t' then "\\t"
  else if c = '\n' then "\\n"
  else if c = '\r' then "\\r"
  else if c = '\'' then "\\'"
  else if c = '\\' then "\\\\"
  else if isVisible c then c.toString
  else codePoint c

/-- The character between single quotes. -/
def quoted (c : Char) : String := "'" ++ escaped c ++ "'"

end TapeMachine.Text
