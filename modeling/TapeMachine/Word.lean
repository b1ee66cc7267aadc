/-!
# 64-bit words

Positions on a tape are signed 64-bit words, and counts of lines and brackets are unsigned ones.  They are kept as
integers and natural numbers; this module says what becomes of a number that does not fit.

* An unsigned word that is taken for a signed one comes round (`signedWord`).
* Arithmetic does not come round: a result that is not a word is no result at all (`signedWord?`).
-/

namespace TapeMachine

/-- The number of 64-bit words. -/
def wordCount : Nat := 0x10000000000000000

/-- The largest unsigned word. -/
def maxWord : Nat := 0xffffffffffffffff

/-- The signed word that an integer stands for: the one congruent to it modulo `wordCount`. -/
def signedWord (n : Int) : Int := n.bmod wordCount

/-- The signed word that arithmetic arrives at, `none` if it is out of range. -/
def signedWord? (n : Int) : Option Int := if -0x8000000000000000 ≤ n ∧ n < 0x8000000000000000 then some n else none

theorem signedWord?_eq_some_iff {n m : Int} :
    signedWord? n = some m ↔ (-0x8000000000000000 ≤ n ∧ n < 0x8000000000000000) ∧ n = m := by
  unfold signedWord?
  split
  · next hrange => simp [hrange]
  · next hrange => simp [hrange]

theorem signedWord?_of_lt {n : Int} (lower : -0x8000000000000000 ≤ n) (upper : n < 0x8000000000000000) :
    signedWord? n = some n :=
  signedWord?_eq_some_iff.2 ⟨⟨lower, upper⟩, rfl⟩

end TapeMachine
