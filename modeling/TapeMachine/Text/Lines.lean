/-!
# Lines

A line ends with a line feed, or with a carriage return and a line feed.  A text that ends with a line feed has no
empty line after it.
-/

namespace TapeMachine.Text

def splitLines : List Char → List (List Char)
  | [] => []
  | '\r' :: '\n' :: rest => [] :: splitLines rest
  | '\n' :: rest => [] :: splitLines rest
  | c :: rest =>
    match splitLines rest with
    | [] => [[c]]
    | line :: lines => (c :: line) :: lines

/-- The lines of a text, without their ends. -/
def lines (text : String) : List String := (splitLines text.toList).map String.ofList

end TapeMachine.Text
