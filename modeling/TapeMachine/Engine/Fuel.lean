import TapeMachine.Engine

/-!
# Fuel

Fuel only decides whether an execution is cut short.  The main statement is `executeAt_extends`: an execution that was
not cut short ends in the same way with more fuel.
-/

namespace TapeMachine

namespace Outcome

variable {σ : Type}

/-- `longer` ends as `shorter` does wherever `shorter` is not cut short. -/
def Extends (shorter longer : σ → Outcome σ) : Prop :=
  ∀ s, shorter s ≠ .aborted .outOfFuel → longer s = shorter s

theorem Extends.andThen {o o' : Outcome σ} {f f' : σ → Outcome σ}
    (ho : o ≠ .aborted .outOfFuel → o' = o) (hf : Extends f f') (h : o.andThen f ≠ .aborted .outOfFuel) :
    o'.andThen f' = o.andThen f := by
  cases o with
  | done s =>
    rw [ho (by simp)]
    exact hf s h
  | failed fault s => rw [ho (by simp)]; rfl
  | aborted cause =>
    rw [ho h]
    rfl

end Outcome

namespace Machine

open Outcome (Extends)

variable {τ κ : Type}

variable {execute execute' : Nat → Char → Machine τ κ → Outcome (Machine τ κ)}

theorem replayPass_extends (he : ∀ index c, Extends (execute index c) (execute' index c)) (body : List Char) :
    Extends (replayPass execute body) (replayPass execute' body) := by
  induction body with
  | nil => exact fun _ _ => rfl
  | cons c rest ih =>
    intro m h
    unfold replayPass at h ⊢
    split
    · rfl
    · next top ht =>
      simp only [ht] at h
      exact Extends.andThen (he top c m) ih h

private theorem forward_extends (he : ∀ index c, Extends (execute index c) (execute' index c)) (parent : Option Nat)
    (c : Char) : Extends (forward execute parent c) (forward execute' parent c) := by
  cases parent with
  | none => exact fun _ _ => rfl
  | some parent => exact he parent c

variable [Tape τ]

private theorem withCell_extends {m : Machine τ κ} {f f' : Cell → Machine τ κ → Outcome (Machine τ κ)}
    (hf : ∀ value, Extends (f value) (f' value)) (h : m.withCell f ≠ .aborted .outOfFuel) :
    m.withCell f' = m.withCell f := by
  obtain ⟨tape, stack, input, output⟩ := m
  simp only [withCell] at h ⊢
  split
  · next hr =>
    simp only [hr] at h
    exact hf _ _ h
  · rfl

theorem replay_extends (he : ∀ index c, Extends (execute index c) (execute' index c)) (body : List Char)
    {fuel fuel' : Nat} (hle : fuel ≤ fuel') : Extends (replay execute body fuel) (replay execute' body fuel') := by
  induction fuel generalizing fuel' with
  | zero => exact fun m h => absurd rfl h
  | succ n ih =>
    obtain ⟨n', rfl⟩ : ∃ n', fuel' = n' + 1 := ⟨fuel' - 1, by omega⟩
    intro m h
    unfold replay at h ⊢
    refine withCell_extends (fun guard m h => ?_) h
    split
    · rfl
    · next hg =>
      rw [if_neg hg] at h
      exact Extends.andThen (replayPass_extends he body m) (ih (by omega)) h

private theorem exitLoop_extends (he : ∀ index c, Extends (execute index c) (execute' index c)) {fuel fuel' : Nat}
    (hle : fuel ≤ fuel') (index : Nat) : Extends (exitLoop execute fuel index) (exitLoop execute' fuel' index) := by
  intro m h
  unfold exitLoop at h ⊢
  split
  · next r hr =>
    simp only [hr] at h
    exact Extends.andThen (replay_extends he _ hle _) (fun _ _ => rfl) h
  · rfl

/-- An execution that is not cut short ends in the same way with more fuel. -/
theorem executeAt_extends (host : κ → Machine τ κ → Outcome (Machine τ κ)) {fuel fuel' : Nat} (hle : fuel ≤ fuel')
    (index : Nat) (c : Char) : Extends (executeAt host fuel index c) (executeAt host fuel' index c) := by
  induction fuel generalizing fuel' index c with
  | zero => exact fun m h => absurd rfl h
  | succ n ih =>
    obtain ⟨n', rfl⟩ : ∃ n', fuel' = n' + 1 := ⟨fuel' - 1, by omega⟩
    have he : ∀ index c, Extends (executeAt host n index c) (executeAt host n' index c) :=
      fun index c => ih (by omega) index c
    intro m h
    unfold executeAt at h ⊢
    split
    · rfl
    · rfl
    · next r hr =>
      simp only [hr] at h
      split
      · rfl
      · next effect heff =>
        simp only [heff] at h
        refine Extends.andThen (forward_extends he _ c _) (fun m h => ?_) h
        split
        · next htop =>
          rw [if_pos htop] at h
          cases effect with
          | invoke command => rfl
          | replay => exact exitLoop_extends he (by omega) index m h
        · rfl
    · next s hs =>
      simp only [hs] at h
      split
      · next hrec =>
        rw [if_pos hrec] at h
        exact Extends.andThen (forward_extends he _ c _) (fun _ _ => rfl) h
      · rfl

end Machine

end TapeMachine
