import Mathlib.Logic.Basic
import TapeMachine.Engine
import TapeMachine.Tape.Fixed
import TapeMachine.Tape.Sparse

/-!
# Moves of the head

A move computes the new position, which must be a signed word, and the tape then holds it against its capacity.  Both
tapes do the same (`Tape.Seats`): they put the head on a position inside the tape, and change nothing else.

* To the left a move is exact on every tape.  To the right it is exact below `maxPosition` (`head_moves_exactly`).
* On `maxPosition` the sum is not a word, and the move is aborted before the tape is asked.  So it is on a tape of more
  cells than there are positions, although there are cells to the right (`moveRight_overflows`).
* A move that succeeds is taken back by the move in the other direction, whatever the position.
-/

namespace TapeMachine

/-- The largest position that a signed word can hold. -/
def maxPosition : Int := 0x7fffffffffffffff

theorem signedWord?_of_le_maxPosition {n : Int} (lower : -1 ≤ n) (upper : n ≤ maxPosition) :
    signedWord? n = some n := by
  unfold maxPosition at upper
  exact signedWord?_of_lt (by omega) (by omega)

theorem signedWord?_of_maxPosition_lt {n : Int} (h : maxPosition < n) : signedWord? n = none := by
  unfold maxPosition at h
  exact if_neg (by omega)

variable {τ κ : Type}

/-! ### Putting the head on a position -/

namespace Tape

variable [Tape τ]

/-- The head is where a tape can have it: on one of the cells, or on position 0 of a tape that has none. -/
structure HeadPlaced (t : τ) : Prop where
  nonneg : 0 ≤ head t
  le_maxPosition : head t ≤ maxPosition
  inside : head t = 0 ∨ head t < capacity t

/-- `seat t position` is the tape `t` with its head on `position`.  A move is a look at the bounds and no more than
that. -/
structure Seats (seat : τ → Int → τ) : Prop where
  moveHead_eq (t : τ) (position : Int) :
    moveHead t position = (checkBounds position (capacity t)).map fun _ => seat t position
  head_seat (t : τ) {position : Int} (h : 0 ≤ position) : head (seat t position) = position
  capacity_seat (t : τ) (position : Int) : capacity (seat t position) = capacity t
  seat_seat (t : τ) (position position' : Int) : seat (seat t position) position' = seat t position'
  seat_head {t : τ} (h : 0 ≤ head t) : seat t (head t) = t

end Tape

/-- The tape with its head on `position`. -/
def FixedTape.seat (t : FixedTape) (position : Int) : FixedTape := { t with head := position.toNat }

/-- The tape with its head on `position`. -/
def SparseTape.seat (t : SparseTape) (position : Int) : SparseTape := { t with head := position }

theorem FixedTape.seats : Tape.Seats FixedTape.seat where
  moveHead_eq t position := by
    change (checkBounds position t.cells.size).map _ = (checkBounds position t.cells.size).map _
    cases hcheck : checkBounds position t.cells.size with
    | error cause => rfl
    | ok index =>
      obtain ⟨rfl, -⟩ := checkBounds_eq_ok_iff.1 hcheck
      rfl
  head_seat _ _ h := Int.toNat_of_nonneg h
  capacity_seat _ _ := rfl
  seat_seat _ _ _ := rfl
  seat_head _ := rfl

theorem SparseTape.seats : Tape.Seats SparseTape.seat where
  moveHead_eq _ _ := rfl
  head_seat _ _ _ := rfl
  capacity_seat _ _ := rfl
  seat_seat _ _ _ := rfl
  seat_head _ := rfl

/-! ### The two commands -/

namespace Machine

open Tape (head capacity HeadPlaced Seats)

variable [Tape τ]

/-- The machine with the head of its tape on `position`. -/
def seatHead (seat : τ → Int → τ) (m : Machine τ κ) (position : Int) : Machine τ κ :=
  { m with tape := seat m.tape position }

/-- What the two moves do on a tape whose head is in its place.  A move to the right is described below the largest
position only. -/
structure MovesExactly (seat : τ → Int → τ) (m : Machine τ κ) : Prop where
  right (host : κ → Machine τ κ → Outcome (Machine τ κ)) (c : Char) (scope : Option Nat)
    (h : head m.tape < maxPosition) :
    m.invoke host .moveRight c scope =
      if head m.tape + 1 < capacity m.tape then .done (m.seatHead seat (head m.tape + 1))
      else .failed (.outOfBounds ⟨head m.tape + 1, capacity m.tape⟩) m
  left (host : κ → Machine τ κ → Outcome (Machine τ κ)) (c : Char) (scope : Option Nat) :
    m.invoke host .moveLeft c scope =
      if 1 ≤ head m.tape then .done (m.seatHead seat (head m.tape - 1))
      else .failed (.outOfBounds ⟨head m.tape - 1, capacity m.tape⟩) m
  right_left (host : κ → Machine τ κ → Outcome (Machine τ κ)) (c c' : Char) (scope scope' : Option Nat)
    {m' : Machine τ κ} (h : m.invoke host .moveRight c scope = .done m') :
    m'.invoke host .moveLeft c' scope' = .done m
  left_right (host : κ → Machine τ κ → Outcome (Machine τ κ)) (c c' : Char) (scope scope' : Option Nat)
    {m' : Machine τ κ} (h : m.invoke host .moveLeft c scope = .done m') :
    m'.invoke host .moveRight c' scope' = .done m

variable {seat : τ → Int → τ} {m m' : Machine τ κ} {position offset : Int}

theorem moveTo_eq (hseat : Seats seat) (m : Machine τ κ) (position : Int) :
    m.moveTo position =
      if 0 ≤ position ∧ position < capacity m.tape then .done (m.seatHead seat position)
      else .failed (.outOfBounds ⟨position, capacity m.tape⟩) m := by
  unfold moveTo
  rw [hseat.moveHead_eq]
  cases hcheck : checkBounds position (capacity m.tape) with
  | ok index =>
    obtain ⟨rfl, hindex⟩ := checkBounds_eq_ok_iff.1 hcheck
    rw [if_pos ⟨by omega, by omega⟩]
    rfl
  | error cause =>
    obtain ⟨houtside, rfl⟩ := checkBounds_eq_error_iff.1 hcheck
    rw [if_neg (by omega)]
    rfl

/-- A move whose target is a position is a move to that position. -/
theorem moveBy_eq_moveTo (lower : -1 ≤ head m.tape + offset) (upper : head m.tape + offset ≤ maxPosition) :
    m.moveBy offset = m.moveTo (head m.tape + offset) := by
  rw [moveBy, signedWord?_of_le_maxPosition lower upper]

/-- A move whose target is beyond the positions is aborted. -/
theorem moveBy_eq_overflow (h : maxPosition < head m.tape + offset) : m.moveBy offset = .aborted .overflow := by
  rw [moveBy, signedWord?_of_maxPosition_lt h]

theorem moveTo_eq_done_iff (hseat : Seats seat) :
    m.moveTo position = .done m' ↔ (0 ≤ position ∧ position < capacity m.tape) ∧ m' = m.seatHead seat position := by
  rw [moveTo_eq hseat]
  split
  · next hinside => simp [hinside, eq_comm]
  · next houtside => simp [houtside]

/-- Putting the head back where it was gives back the machine. -/
theorem moveTo_seatHead (hseat : Seats seat) (hnonneg : 0 ≤ head m.tape) (hinside : head m.tape < capacity m.tape)
    (position : Int) : (m.seatHead seat position).moveTo (head m.tape) = .done m := by
  rw [moveTo_eq_done_iff hseat]
  refine ⟨⟨hnonneg, ?_⟩, ?_⟩
  · rw [seatHead, hseat.capacity_seat]
    exact hinside
  · rw [seatHead, seatHead, hseat.seat_seat, hseat.seat_head hnonneg]

theorem moveRight_eq_done (hseat : Seats seat) (hplaced : HeadPlaced m.tape) (h : m.moveBy 1 = .done m') :
    head m.tape + 1 < capacity m.tape ∧ head m.tape < maxPosition ∧ m' = m.seatHead seat (head m.tape + 1) := by
  have hnonneg := hplaced.nonneg
  have hle := hplaced.le_maxPosition
  rcases Int.lt_or_eq_of_le hle with hlt | heq
  · rw [moveBy_eq_moveTo (by omega) (by omega), moveTo_eq_done_iff hseat] at h
    exact ⟨h.1.2, hlt, h.2⟩
  · rw [moveBy_eq_overflow (by omega)] at h
    cases h

theorem moveLeft_eq (hseat : Seats seat) (hplaced : HeadPlaced m.tape) :
    m.moveBy (-1) =
      if 1 ≤ head m.tape then .done (m.seatHead seat (head m.tape - 1))
      else .failed (.outOfBounds ⟨head m.tape - 1, capacity m.tape⟩) m := by
  have hnonneg := hplaced.nonneg
  have hle := hplaced.le_maxPosition
  have hinside := hplaced.inside
  rw [moveBy_eq_moveTo (by omega) (by omega), moveTo_eq hseat, ← Int.sub_eq_add_neg]
  refine if_congr ?_ rfl rfl
  omega

theorem movesExactly (hseat : Seats seat) (hplaced : HeadPlaced m.tape) : m.MovesExactly seat := by
  have hnonneg := hplaced.nonneg
  have hle := hplaced.le_maxPosition
  refine ⟨fun host c scope hlt => ?_, fun host c scope => moveLeft_eq hseat hplaced, ?_, ?_⟩
  · change m.moveBy 1 = _
    rw [moveBy_eq_moveTo (by omega) (by omega), moveTo_eq hseat]
    refine if_congr ?_ rfl rfl
    omega
  · intro host c c' scope scope' m' h
    obtain ⟨hinside, -, rfl⟩ := moveRight_eq_done hseat hplaced h
    have hhead : head (m.seatHead seat (head m.tape + 1)).tape = head m.tape + 1 := hseat.head_seat _ (by omega)
    change (m.seatHead seat (head m.tape + 1)).moveBy (-1) = .done m
    rw [moveBy_eq_moveTo (by omega) (by omega), hhead, Int.add_neg_cancel_right]
    exact moveTo_seatHead hseat hnonneg (by omega) _
  · intro host c c' scope scope' m' h
    change m.moveBy (-1) = .done m' at h
    rw [moveLeft_eq hseat hplaced] at h
    split at h
    · next hone =>
      have hinside : head m.tape < capacity m.tape := hplaced.inside.resolve_left (by omega)
      cases h
      have hhead : head (m.seatHead seat (head m.tape - 1)).tape = head m.tape - 1 := hseat.head_seat _ (by omega)
      change (m.seatHead seat (head m.tape - 1)).moveBy 1 = .done m
      rw [moveBy_eq_moveTo (by omega) (by omega), hhead, Int.sub_add_cancel]
      exact moveTo_seatHead hseat hnonneg hinside _
    · cases h

end Machine

/-- On both tapes the moves are those of the integers, below the largest position.  A move to a cell of the tape
succeeds, and nothing but the head has changed; any other move fails with the position that it would have led to, and
nothing has changed.  A move that succeeds is taken back by the other one. -/
theorem head_moves_exactly :
    (∀ m : Machine FixedTape κ, Tape.HeadPlaced m.tape → m.MovesExactly FixedTape.seat) ∧
      ∀ m : Machine SparseTape κ, Tape.HeadPlaced m.tape → m.MovesExactly SparseTape.seat :=
  ⟨fun _ h => Machine.movesExactly FixedTape.seats h, fun _ h => Machine.movesExactly SparseTape.seats h⟩

/-- The largest sparse tape, with its head next to the largest position. -/
theorem head_moves_exactly_next_to_largest :
    let m : Machine SparseTape Empty := ⟨⟨∅, 0x7ffffffffffffffe, maxWord⟩, {}, .ofBytes [], {}⟩
    Tape.HeadPlaced m.tape ∧ m.MovesExactly SparseTape.seat := by
  intro m
  have hplaced : Tape.HeadPlaced m.tape := ⟨by decide, by decide, by decide⟩
  exact ⟨hplaced, head_moves_exactly.2 m hplaced⟩

/-- On the largest position of the largest sparse tape a move to the right is aborted, although there are cells to the
right. -/
theorem moveRight_overflows :
    let tape : SparseTape := ⟨∅, 0x7fffffffffffffff, maxWord⟩
    let m : Machine SparseTape Empty := ⟨tape, {}, .ofBytes [], {}⟩
    Tape.moveHead (SparseTape.ofCapacity maxWord) 0x7fffffffffffffff = .ok tape ∧ Tape.HeadPlaced m.tape ∧
      Tape.head m.tape + 1 < Tape.capacity m.tape ∧
      m.invoke Machine.noHost .moveRight '>' none = .aborted .overflow := by
  intro tape m
  have hover : m.moveBy 1 = .aborted .overflow := Machine.moveBy_eq_overflow (by decide)
  exact ⟨rfl, ⟨by decide, by decide, by decide⟩, by decide, hover⟩

end TapeMachine
