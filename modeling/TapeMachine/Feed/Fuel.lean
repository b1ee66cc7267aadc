import TapeMachine.Engine.Fuel
import TapeMachine.Feed

/-!
# Fuel of a feed

A feed that was not cut short ends in the same way with more fuel (`feedFrom_of_le`), since each of its characters does
(`execute_extends`).
-/

namespace TapeMachine.Runner

open Outcome (Extends)

variable {τ κ : Type}

private theorem settle_ne_outOfFuel {policy : Policy} {o : Outcome (Machine τ κ)}
    (h : settle policy o ≠ .aborted .outOfFuel) : o ≠ .aborted .outOfFuel := by
  rintro rfl
  exact h rfl

variable [Tape τ] (host : κ → Machine τ κ → Outcome (Machine τ κ))

/-- A character that is not cut short is executed in the same way with more fuel. -/
theorem execute_extends {fuel fuel' : Nat} (hle : fuel ≤ fuel') (c : Char) :
    Extends (execute host fuel c) (execute host fuel' c) := by
  intro r h
  obtain ⟨machine, policy, isFinished⟩ := r
  cases isFinished with
  | true => rfl
  | false =>
    simp only [execute] at h ⊢
    split
    · rfl
    · next top htop =>
      simp only [htop] at h
      rw [Machine.executeAt_extends host hle top c machine (settle_ne_outOfFuel h)]

/-- A feed that is not cut short ends in the same way with more fuel. -/
theorem feedFrom_of_le {fuel fuel' : Nat} (hle : fuel ≤ fuel') (position : Nat) (program : List Char)
    (r : Runner τ κ) (h : r.feedFrom host fuel position program ≠ .aborted .outOfFuel) :
    r.feedFrom host fuel' position program = r.feedFrom host fuel position program := by
  induction program generalizing position r with
  | nil => rfl
  | cons c rest ih =>
    simp only [feedFrom] at h ⊢
    have hne : r.execute host fuel c ≠ .aborted .outOfFuel := by
      intro hc
      simp only [hc] at h
      exact h rfl
    rw [execute_extends host hle c r hne]
    split
    · next r' hr =>
      simp only [hr] at h
      exact ih (position + 1) r' h
    all_goals rfl

end TapeMachine.Runner
