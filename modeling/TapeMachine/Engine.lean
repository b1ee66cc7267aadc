import TapeMachine.Machine

/-!
# Executing characters

The machine is given one character at a time, so it cannot go back to the start of a loop.  It learns a loop while it
runs it for the first time, and runs it from memory after that.

* A loop whose guard is zero gets a skip context, which passes over the characters of the loop.
* A loop whose guard is not zero gets a recording context.  The characters of the loop are executed as they come, and
  recorded.
* The character that closes the loop closes the recording.  The body is then executed again and again, each character
  by whatever context is on top, until the cell under the head is zero.

A context passes the characters on to the context around it, so that an outer loop learns the whole of its body,
inner loops and skipped loops included.  Only the context on top executes a character; the others record it.

Executing a character need not come to an end.  `executeAt` therefore takes fuel, which bounds the number of times a
loop is replayed and the depth to which loops are nested.
-/

namespace TapeMachine.Machine

variable {τ κ : Type} [Tape τ]

/-- Open a loop whose brackets are `enter` and `exit`, and which passes its characters on to `parent`. -/
def enterLoop (m : Machine τ κ) (enter exit : Char) (parent : Option Nat) : Outcome (Machine τ κ) :=
  match m.stack.top? with
  | none => .failed .emptyStack m
  | some top =>
    let commands := top.commands
    m.withCell fun guard m =>
      m.pushContext <|
        if guard = 0 then .skip { commands, enter, exit, parent } else .recording { commands, exit, parent }

/-- What the commands of a host do if the host has none. -/
def noHost (command : Empty) : Machine τ Empty → Outcome (Machine τ Empty) := nomatch command

/-- Carry out the command for which `c` stands.  `scope` is the recording in which it is met, if there is one. -/
def invoke (host : κ → Machine τ κ → Outcome (Machine τ κ)) (command : Command κ) (c : Char) (scope : Option Nat)
    (m : Machine τ κ) : Outcome (Machine τ κ) :=
  match command with
  | .moveRight => m.moveBy 1
  | .moveLeft => m.moveBy (-1)
  | .increment => m.changeCell (· + 1)
  | .decrement => m.changeCell (· - 1)
  | .output => m.withCell fun value m => m.emit value.toUInt8
  | .input => m.accept
  | .enterLoop exit => m.enterLoop c exit scope
  | .halt => .failed .runOver m
  | .host command => host command m

/-- Execute the characters of `body`, each by the context that is on top when its turn comes. -/
def replayPass (execute : Nat → Char → Machine τ κ → Outcome (Machine τ κ)) :
    List Char → Machine τ κ → Outcome (Machine τ κ)
  | [], m => .done m
  | c :: rest, m =>
    match m.stack.topIndex? with
    | none => .failed .emptyStack m
    | some top => (execute top c m).andThen (replayPass execute rest)

/-- Execute `body` until the cell under the head is zero, at most `fuel` times. -/
def replay (execute : Nat → Char → Machine τ κ → Outcome (Machine τ κ)) (body : List Char) :
    Nat → Machine τ κ → Outcome (Machine τ κ)
  | 0, _ => .aborted .outOfFuel
  | fuel + 1, m =>
    m.withCell fun guard m =>
      if guard = 0 then .done m else (replayPass execute body m).andThen (replay execute body fuel)

/-- Close the recording at `index`, replay its body, and drop the context that is then on top. -/
def exitLoop (execute : Nat → Char → Machine τ κ → Outcome (Machine τ κ)) (fuel : Nat) (index : Nat)
    (m : Machine τ κ) : Outcome (Machine τ κ) :=
  match m.stack.get? index with
  | some (.recording r) =>
    let closed := r.close
    (replay execute closed.recorded.toList fuel (m.modifyContext index fun _ => .recording closed)).andThen popContext
  | _ => .failed .emptyStack m

/-- Let the context at `index` take `c` down, if it records. -/
def saveAt (m : Machine τ κ) (index : Nat) (c : Char) : Machine τ κ :=
  m.modifyContext index fun
    | .recording r => .recording (r.save c)
    | other => other

/-- Let the skip context at `index` count `c`, and drop the context on top if the skipped loop is over. -/
def countAt (m : Machine τ κ) (index : Nat) (c : Char) : Outcome (Machine τ κ) :=
  match m.stack.get? index with
  | some (.skip s) =>
    match s.count? c with
    | some counted =>
      let m := m.modifyContext index fun _ => .skip counted
      if counted.isOver then m.popContext else .done m
    | none => .aborted .overflow
  | _ => .failed .emptyStack m

/-- Pass `c` on to the context at `parent`, if there is one to be told. -/
def forward (execute : Nat → Char → Machine τ κ → Outcome (Machine τ κ)) (parent : Option Nat) (c : Char)
    (m : Machine τ κ) : Outcome (Machine τ κ) :=
  match parent with
  | some parent => execute parent c m
  | none => .done m

/-- Let the context at `index` handle `c`.

A plain context carries out the command.  A recording saves the character, passes it on, and carries out the command
or replays the loop if it is on top.  A skip context passes the character on and counts it if it is on top. -/
def executeAt (host : κ → Machine τ κ → Outcome (Machine τ κ)) :
    Nat → Nat → Char → Machine τ κ → Outcome (Machine τ κ)
  | 0, _, _, _ => .aborted .outOfFuel
  | fuel + 1, index, c, m =>
    let isTop := m.stack.topIndex? == some index
    match m.stack.get? index with
    | none => .failed .emptyStack m
    | some (.plain commands) =>
      match commands[c]? with
      | none => .failed (.unknownCharacter c) m
      | some command => m.invoke host command c none
    | some (.recording r) =>
      match r.effect? c with
      | none => .failed (.unknownCharacter c) m
      | some effect =>
        let parent := r.forward?
        ((m.saveAt index c).forward (executeAt host fuel) parent c).andThen fun m =>
          if isTop then
            match effect with
            | .invoke command => m.invoke host command c (some index)
            | .replay => m.exitLoop (executeAt host fuel) fuel index
          else .done m
    | some (.skip s) =>
      if s.recognizes c then
        (m.forward (executeAt host fuel) s.parent c).andThen fun m => if isTop then m.countAt index c else .done m
      else .failed (.unknownCharacter c) m

end TapeMachine.Machine
