import TapeMachine.Proofs.Language
import TapeMachine.Proofs.Simulation
import TapeMachine.Tape.Fixed

/-!
# The reference semantics

What the characters of the language mean on a row of cells, said without a machine.  The head of a `State` is on one of
its cells by definition, and signed words can count the cells, so nothing can go wrong but a move outside the row, the
source and the sink.

A mapping that binds the characters of the language as usual, and others to the end of the run, has this meaning
(`implements_semantics`).  `semanticsOf` is the same for any mapping: what its characters mean is what `State.carryOut`
makes of their commands.
-/

namespace TapeMachine

namespace Reference

/-- A row of cells with the head on one of them, a source and a sink. -/
structure State where
  cells : Array Cell
  head : Fin cells.size
  input : Source
  output : Sink
  /-- The positions next to the cells are signed words. -/
  size_lt : cells.size < 0x8000000000000000

namespace State

def store (s : State) : Store FixedTape := ⟨⟨s.cells, s.head⟩, s.input, s.output⟩

/-- The value under the head. -/
def cell (s : State) : Cell := s.cells[s.head]

def setCell (s : State) (value : Cell) : State :=
  { s with
    cells := s.cells.set s.head value
    head := s.head.cast (by simp)
    size_lt := by simpa using s.size_lt }

def moveTo (s : State) (position : Int) : Result State :=
  if h : 0 ≤ position ∧ position < s.cells.size then .ok { s with head := ⟨position.toNat, by omega⟩ }
  else .error (.outOfBounds ⟨position, s.cells.size⟩, s)

def write (s : State) (byte : UInt8) : Result State :=
  match s.output.write byte with
  | (.ok (), output) => .ok { s with output }
  | (.error reason, output) => .error (.io reason, { s with output })

/-- At the end of the input nothing happens. -/
def read (s : State) : Result State :=
  match s.input.read with
  | (.ok (some byte), input) => .ok (setCell { s with input } byte.toUInt16)
  | (.ok none, input) => .ok { s with input }
  | (.error reason, input) => .error (.io reason, { s with input })

/-- What a character does that is not a bracket.  A character that is not of the language ends the run. -/
def obey (c : Char) (s : State) : Result State :=
  match c with
  | '>' => s.moveTo (s.head + 1)
  | '<' => s.moveTo (s.head - 1)
  | '+' => .ok (s.setCell (s.cell + 1))
  | '-' => .ok (s.setCell (s.cell - 1))
  | '.' => s.write s.cell.toUInt8
  | ',' => s.read
  | _ => .error (.runOver, s)

/-- What a command does.  A loop is for a program to open, and no business of a state. -/
def carryOut (s : State) : Command Empty → Result State
  | .moveRight => s.moveTo (s.head + 1)
  | .moveLeft => s.moveTo (s.head - 1)
  | .increment => .ok (s.setCell (s.cell + 1))
  | .decrement => .ok (s.setCell (s.cell - 1))
  | .output => s.write s.cell.toUInt8
  | .input => s.read
  | .enterLoop _ => .ok s
  | .halt => .error (.runOver, s)

end State

/-- What the characters mean. -/
def semantics : Semantics State (Fault × State) := ⟨State.cell, State.obey⟩

/-- What the characters mean by a mapping. -/
def semanticsOf (commands : CommandMap Empty) : Semantics State (Fault × State) where
  cell := State.cell
  act c s :=
    match commands[c]? with
    | some command => s.carryOut command
    | none => .error (.unknownCharacter c, s)

open State (obey)

variable (s : State)

private theorem guard?_store : s.store.guard? = some (s.cell, s.store) := by
  have hread : Tape.read? s.store.tape = some (s.cell, s.store.tape) := by
    change (s.cells[(s.head : Nat)]?).map _ = _
    rw [Array.getElem?_eq_getElem s.head.isLt]
    rfl
  rw [Store.guard?, hread]
  rfl

private theorem write?_store (value : Cell) : Tape.write? s.store.tape value = some (s.setCell value).store.tape :=
  dif_pos s.head.isLt

open Machine (ofTower)

private theorem moveTo_store (position : Int) :
    ((ofTower (κ := Empty) [] s.store).moveTo position).map Machine.store =
      View.outcome (.ofStore State.store) (s.moveTo position) := by
  have hmove : Tape.moveHead s.store.tape position =
      (checkBounds position s.cells.size).map fun index => (⟨s.cells, index⟩ : FixedTape) := rfl
  simp only [Machine.moveTo, ofTower, hmove, State.moveTo, checkBounds]
  by_cases h : 0 ≤ position ∧ position < s.cells.size
  · rw [if_neg (by omega), dif_pos h]
    rfl
  · rw [if_pos (by omega), dif_neg h]
    rfl

private theorem moveBy_store (offset : Int) (hoffset : offset = 1 ∨ offset = -1) :
    ((ofTower (κ := Empty) [] s.store).moveBy offset).map Machine.store =
      View.outcome (.ofStore State.store) (s.moveTo (s.head + offset)) := by
  have hhead : Tape.head (ofTower (κ := Empty) [] s.store).tape = s.head := rfl
  have hlt := s.head.isLt
  have hsize := s.size_lt
  have hword : signedWord? (s.head + offset) = some (s.head + offset) := signedWord?_of_lt (by omega) (by omega)
  simp only [Machine.moveBy, hhead, hword, moveTo_store]

private theorem setCell_store (value : Cell) :
    ((ofTower (κ := Empty) [] s.store).setCell value).map Machine.store = .done (s.setCell value).store := by
  simp only [Machine.setCell, ofTower, write?_store]
  rfl

private theorem changeCell_store (f : Cell → Cell) :
    ((ofTower (κ := Empty) [] s.store).changeCell f).map Machine.store = .done (s.setCell (f s.cell)).store := by
  rw [Machine.changeCell, Machine.withCell_ofTower, guard?_store]
  exact setCell_store s (f s.cell)

private theorem emit_store :
    ((ofTower (κ := Empty) [] s.store).withCell fun value m => m.emit value.toUInt8).map Machine.store =
      View.outcome (.ofStore State.store) (s.write s.cell.toUInt8) := by
  rw [Machine.withCell_ofTower, guard?_store]
  simp only [Machine.emit, ofTower, State.store, State.write]
  rcases s.output.write s.cell.toUInt8 with ⟨_ | _, output⟩ <;> rfl

private theorem accept_store :
    ((ofTower (κ := Empty) [] s.store).accept).map Machine.store = View.outcome (.ofStore State.store) s.read := by
  simp only [Machine.accept, ofTower, State.store, State.read]
  rcases s.input.read with ⟨reason | _ | byte, input⟩
  · rfl
  · rfl
  · exact setCell_store { s with input } byte.toUInt16

/-- A command does to a store what it does to a state. -/
theorem perform_store {command : Command Empty} (hloop : ∀ x, command ≠ .enterLoop x) :
    s.store.perform Machine.noCustom command = View.outcome (.ofStore State.store) (s.carryOut command) := by
  unfold Store.perform
  cases command with
  | moveRight => exact moveBy_store s 1 (.inl rfl)
  | moveLeft => exact moveBy_store s (-1) (.inr rfl)
  | increment => exact changeCell_store s (· + 1)
  | decrement => exact changeCell_store s (· - 1)
  | output => exact emit_store s
  | input => exact accept_store s
  | enterLoop x => exact absurd rfl (hloop x)
  | halt => rfl
  | host command => exact command.elim

/-- Every dialect means what the reference semantics of its mapping says. -/
theorem implements_semanticsOf (d : Dialect Empty) :
    d.Implements Machine.noCustom (semanticsOf d.commands) (.ofStore State.store) := by
  refine ⟨guard?_store, ?_⟩
  rintro c ⟨-, command, hcommand, hloop⟩ s
  simp only [Dialect.act, semanticsOf, hcommand]
  exact perform_store s hloop

/-- A mapping that binds the characters of the language as usual, and others to the end of the run, means what the
reference semantics says. -/
theorem implements_semantics {commands : CommandMap Empty} (h : commands.AddsHalts) :
    (Dialect.withHalts commands h).Implements Machine.noCustom semantics (.ofStore State.store) := by
  refine ⟨guard?_store, ?_⟩
  rintro c ⟨-, command, hcommand, hloop⟩ s
  have hact : (Dialect.withHalts commands h).act Machine.noCustom c s.store =
      s.store.perform Machine.noCustom command := by
    rw [Dialect.act, hcommand]
  have hbound (command' : Command Empty) (hmem : (c, command') ∈ CommandMap.bindings Empty) : command = command' :=
    Option.some.inj (hcommand.symm.trans (h.bound hmem))
  change (Dialect.withHalts commands h).act Machine.noCustom c s.store = View.outcome (.ofStore State.store) (obey c s)
  rw [hact, Store.perform]
  -- the cases are those of the reference, since unfolding it at a fixed character would compute with 64-bit words
  unfold State.obey
  split
  · obtain rfl := hbound .moveRight (by simp [CommandMap.bindings])
    exact moveBy_store s 1 (.inl rfl)
  · obtain rfl := hbound .moveLeft (by simp [CommandMap.bindings])
    exact moveBy_store s (-1) (.inr rfl)
  · obtain rfl := hbound .increment (by simp [CommandMap.bindings])
    exact changeCell_store s (· + 1)
  · obtain rfl := hbound .decrement (by simp [CommandMap.bindings])
    exact changeCell_store s (· - 1)
  · obtain rfl := hbound .output (by simp [CommandMap.bindings])
    exact emit_store s
  · obtain rfl := hbound .input (by simp [CommandMap.bindings])
    exact accept_store s
  · next hright hleft hplus hminus hdot hcomma =>
    have hhalt : command = .halt := by
      rcases h.halt hcommand with hmem | hhalt
      · simp only [CommandMap.bindings, List.mem_cons, Prod.mk.injEq, List.not_mem_nil, or_false] at hmem
        rcases hmem with ⟨rfl, -⟩ | ⟨rfl, -⟩ | ⟨rfl, -⟩ | ⟨rfl, -⟩ | ⟨rfl, -⟩ | ⟨rfl, -⟩ | ⟨-, rfl⟩
        · exact absurd rfl hright
        · exact absurd rfl hleft
        · exact absurd rfl hplus
        · exact absurd rfl hminus
        · exact absurd rfl hdot
        · exact absurd rfl hcomma
        · exact absurd rfl (hloop ']')
      · exact hhalt
    subst hhalt
    rfl

end Reference

end TapeMachine
