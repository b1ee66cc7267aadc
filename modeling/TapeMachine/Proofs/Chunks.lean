import Mathlib
import TapeMachine.Feed.Fuel
import TapeMachine.Tape.Fixed

/-!
# Feeding a program in pieces

A program may be cut anywhere and fed in pieces (`feed_in_chunks`): inside a loop that is being recorded, inside one
that is skipped, or right before a closing bracket.

* `Runner.Yields` is how a feed ends if the fuel does not matter.
* `FeedOutcome.behind` is the same end, counted from further back.
* A runner whose run was ended by a command is `Spent`: it refuses everything and stays as it is.
-/

namespace TapeMachine

variable {τ κ : Type}

/-- How a feed ends that comes behind `count` other characters. -/
def FeedOutcome.behind (count : Nat) : FeedOutcome τ κ → FeedOutcome τ κ
  | .ended ⟨consumed, halted⟩ r => .ended ⟨count + consumed, halted⟩ r
  | .failed ⟨position, c, fault⟩ r => .failed ⟨count + position, c, fault⟩ r
  | .aborted cause => .aborted cause

theorem FeedOutcome.behind_eq_aborted_iff {count : Nat} {o : FeedOutcome τ κ} {cause : Abort} :
    o.behind count = .aborted cause ↔ o = .aborted cause := by
  cases o <;> simp [behind]

namespace Runner

variable [Tape τ] {host : κ → Machine τ κ → Outcome (Machine τ κ)} {fuel : Nat} {r r' : Runner τ κ}

/-! ### Where the counting starts -/

theorem feedFrom_add (count position : Nat) (text : List Char) (r : Runner τ κ) :
    r.feedFrom host fuel (count + position) text = (r.feedFrom host fuel position text).behind count := by
  induction text generalizing position r with
  | nil => rfl
  | cons c rest ih =>
    simp only [feedFrom]
    split
    · next r' _ => exact ih (position + 1) r'
    all_goals rfl

theorem feedFrom_eq_behind (position : Nat) (text : List Char) (r : Runner τ κ) :
    r.feedFrom host fuel position text = (r.feed host fuel text).behind position :=
  feedFrom_add position 0 text r

theorem feed_cons (c : Char) (rest : List Char) (r : Runner τ κ) :
    r.feed host fuel (c :: rest) =
      match r.execute host fuel c with
      | .done r => (r.feed host fuel rest).behind 1
      | .failed .runOver r => .ended ⟨1, true⟩ r
      | .failed fault r => .failed ⟨0, c, fault⟩ r
      | .aborted cause => .aborted cause := by
  simp only [← feedFrom_eq_behind]
  rfl

/-- A feed that is not cut off has consumed the whole text. -/
theorem consumed_of_feedFrom {position consumed : Nat} {text : List Char}
    (h : r.feedFrom host fuel position text = .ended ⟨consumed, false⟩ r') : consumed = position + text.length := by
  induction text generalizing position r with
  | nil =>
    cases h
    rfl
  | cons c rest ih =>
    simp only [feedFrom] at h
    split at h
    · have hrest := ih h
      rw [List.length_cons]
      omega
    all_goals cases h

theorem feed_append (first rest : List Char) (r : Runner τ κ) :
    r.feed host fuel (first ++ rest) =
      (r.feed host fuel first).andThen fun _ r => (r.feed host fuel rest).behind first.length := by
  have happend : r.feed host fuel (first ++ rest) = (r.feed host fuel first).andThen _ :=
    feedFrom_append_eq_andThen 0 first rest r
  rw [happend]
  cases hfirst : r.feed host fuel first with
  | ended tally r' =>
    obtain ⟨consumed, halted⟩ := tally
    cases halted with
    | true => rfl
    | false =>
      have hconsumed := consumed_of_feedFrom hfirst
      rw [Nat.zero_add] at hconsumed
      subst hconsumed
      exact feedFrom_eq_behind first.length rest r'
  | failed error r' => rfl
  | aborted cause => rfl

/-! ### Feeding without regard to fuel -/

/-- A feed ends with `o`, however much fuel that takes. -/
def Yields (host : κ → Machine τ κ → Outcome (Machine τ κ)) (text : List Char) (r : Runner τ κ)
    (o : FeedOutcome τ κ) : Prop :=
  o ≠ .aborted .outOfFuel ∧ ∃ fuel, r.feed host fuel text = o

/-- The ends of feeding `first` and, unless the run failed or was ended, `rest` after it. -/
inductive YieldsInTwo (host : κ → Machine τ κ → Outcome (Machine τ κ)) (first rest : List Char) (r : Runner τ κ) :
    FeedOutcome τ κ → Prop where
  | ended {consumed : Nat} {r' : Runner τ κ} {o : FeedOutcome τ κ}
    (hfirst : r.Yields host first (.ended ⟨consumed, false⟩ r')) (hrest : r'.Yields host rest o) :
    YieldsInTwo host first rest r (o.behind first.length)
  | halted {consumed : Nat} {r' : Runner τ κ} (hfirst : r.Yields host first (.ended ⟨consumed, true⟩ r')) :
    YieldsInTwo host first rest r (.ended ⟨consumed, true⟩ r')
  | failed {error : FeedError} {r' : Runner τ κ} (hfirst : r.Yields host first (.failed error r')) :
    YieldsInTwo host first rest r (.failed error r')
  | aborted {cause : Abort} (hfirst : r.Yields host first (.aborted cause)) :
    YieldsInTwo host first rest r (.aborted cause)

variable {text first rest : List Char} {o o' : FeedOutcome τ κ}

theorem Yields.eventually (h : r.Yields host text o) : ∃ enough, ∀ fuel, enough ≤ fuel → r.feed host fuel text = o := by
  obtain ⟨hne, enough, rfl⟩ := h
  exact ⟨enough, fun fuel hle => feedFrom_of_le host hle 0 text r hne⟩

theorem Yields.unique (h : r.Yields host text o) (h' : r.Yields host text o') : o = o' := by
  obtain ⟨enough, h⟩ := h.eventually
  obtain ⟨enough', h'⟩ := h'.eventually
  rw [← h (max enough enough') (Nat.le_max_left _ _), h' (max enough enough') (Nat.le_max_right _ _)]

private theorem yieldsInTwo_of_yields (h : r.Yields host (first ++ rest) o) : r.YieldsInTwo host first rest o := by
  obtain ⟨hne, fuel, rfl⟩ := h
  rw [feed_append] at hne ⊢
  cases hfirst : r.feed host fuel first with
  | ended tally r' =>
    obtain ⟨consumed, halted⟩ := tally
    cases halted with
    | true => exact .halted ⟨by simp, fuel, hfirst⟩
    | false =>
      rw [hfirst] at hne
      have hrest : r'.feed host fuel rest ≠ .aborted .outOfFuel := by
        intro hout
        exact hne (FeedOutcome.behind_eq_aborted_iff.2 hout)
      exact .ended ⟨by simp, fuel, hfirst⟩ ⟨hrest, fuel, rfl⟩
  | failed error r' => exact .failed ⟨by simp, fuel, hfirst⟩
  | aborted cause =>
    rw [hfirst] at hne
    exact .aborted ⟨hne, fuel, hfirst⟩

private theorem yields_of_yieldsInTwo (h : r.YieldsInTwo host first rest o) : r.Yields host (first ++ rest) o := by
  cases h with
  | ended hfirst hrest =>
    -- the larger of the two amounts of fuel is enough for both pieces
    obtain ⟨enough, hfirst⟩ := hfirst.eventually
    obtain ⟨enough', hrest'⟩ := hrest.eventually
    refine ⟨fun hout => hrest.1 (FeedOutcome.behind_eq_aborted_iff.1 hout), max enough enough', ?_⟩
    rw [feed_append, hfirst _ (Nat.le_max_left _ _)]
    exact congrArg (FeedOutcome.behind first.length) (hrest' _ (Nat.le_max_right _ _))
  | halted hfirst =>
    obtain ⟨hne, fuel, hfirst⟩ := hfirst
    exact ⟨hne, fuel, by rw [feed_append, hfirst]; rfl⟩
  | failed hfirst =>
    obtain ⟨hne, fuel, hfirst⟩ := hfirst
    exact ⟨hne, fuel, by rw [feed_append, hfirst]; rfl⟩
  | aborted hfirst =>
    obtain ⟨hne, fuel, hfirst⟩ := hfirst
    exact ⟨hne, fuel, by rw [feed_append, hfirst]; rfl⟩

/-! ### The end of a run -/

omit [Tape τ] in
private theorem isFinished_of_settle {policy : Policy} {o : Outcome (Machine τ κ)} {r : Runner τ κ} :
    (settle policy o = .done r → r.isFinished = false) ∧ (settle policy o = .failed .runOver r → r.isFinished) := by
  cases o with
  | done m =>
    constructor
    · rintro ⟨⟩
      rfl
    · rintro ⟨⟩
  | failed fault m =>
    cases fault with
    | unknownCharacter c =>
      simp only [settle]
      split
      · constructor
        · rintro ⟨⟩
          rfl
        · rintro ⟨⟩
      · simp
    | runOver =>
      constructor
      · rintro ⟨⟩
      · rintro ⟨⟩
        rfl
    | outOfBounds _ | io _ | emptyStack => simp [settle]
  | aborted cause => simp [settle]

theorem isFinished_of_execute {c : Char} {r r' : Runner τ κ} :
    (r.execute host fuel c = .done r' → r'.isFinished = false) ∧
      (r.execute host fuel c = .failed .runOver r' → r'.isFinished) := by
  obtain ⟨m, policy, isFinished⟩ := r
  cases isFinished with
  | true =>
    constructor
    · rintro ⟨⟩
    · rintro ⟨⟩
      rfl
  | false =>
    simp only [execute]
    split
    · simp
    · exact isFinished_of_settle

/-- A runner is finished after a feed if and only if the feed was ended by a command. -/
theorem isFinished_of_feedFrom {position : Nat} {text : List Char} {tally : FeedTally} {r r' : Runner τ κ}
    (hr : r.isFinished = false) (h : r.feedFrom host fuel position text = .ended tally r') :
    r'.isFinished = tally.halted := by
  induction text generalizing position r with
  | nil =>
    cases h
    exact hr
  | cons c text ih =>
    simp only [feedFrom] at h
    split at h
    · next hc => exact ih (isFinished_of_execute.1 hc) h
    · next hc =>
      cases h
      exact isFinished_of_execute.2 hc
    · cases h
    · cases h

/-- Every call is refused, and none changes the runner. -/
structure Spent (host : κ → Machine τ κ → Outcome (Machine τ κ)) (r : Runner τ κ) : Prop where
  execute (fuel : Nat) (c : Char) : r.execute host fuel c = .failed .runOver r
  feed_nil (fuel : Nat) : r.feed host fuel [] = .ended ⟨0, false⟩ r
  feed_cons (fuel : Nat) (c : Char) (rest : List Char) : r.feed host fuel (c :: rest) = .ended ⟨1, true⟩ r

theorem spent_of_isFinished (h : r.isFinished) : r.Spent host := by
  obtain ⟨m, policy, isFinished⟩ := r
  obtain rfl : isFinished = true := h
  exact ⟨fun _ _ => rfl, fun _ => rfl, fun _ _ _ => rfl⟩

theorem isFinished_of_halted {consumed : Nat} (h : r.Yields host text (.ended ⟨consumed, true⟩ r')) :
    r'.isFinished := by
  obtain ⟨-, fuel, hfeed⟩ := h
  by_cases hr : r.isFinished
  · -- nothing is done to a runner that was finished before
    have hspent : r.Spent host := spent_of_isFinished hr
    cases text with
    | nil =>
      rw [hspent.feed_nil] at hfeed
      cases hfeed
    | cons c rest =>
      rw [hspent.feed_cons] at hfeed
      cases hfeed
      exact hr
  · exact isFinished_of_feedFrom (Bool.eq_false_iff.2 hr) hfeed

/-- A program fed in two pieces ends as it does when it is fed at once, and a run that was ended by a command is over
for good. -/
theorem feed_in_chunks (host : κ → Machine τ κ → Outcome (Machine τ κ)) (r : Runner τ κ) (first rest : List Char) :
    (∀ o, r.Yields host (first ++ rest) o ↔ r.YieldsInTwo host first rest o) ∧
      ∀ r' : Runner τ κ, ((∃ consumed, r.Yields host first (.ended ⟨consumed, true⟩ r')) ∨
        ∃ fuel c, r.execute host fuel c = .failed .runOver r') → r'.Spent host := by
  refine ⟨fun o => ⟨yieldsInTwo_of_yields, yields_of_yieldsInTwo⟩, ?_⟩
  rintro r' (⟨consumed, hfirst⟩ | ⟨fuel, c, hc⟩)
  · exact spent_of_isFinished (isFinished_of_halted hfirst)
  · exact spent_of_isFinished (isFinished_of_execute.2 hc)

/-- The program is cut inside a loop that is skipped.  The same loop is entered in the replay of the loop around it, and
a command inside it then ends the run. -/
theorem feed_in_chunks_of_late_halt :
    let commands := (CommandMap.standard : CommandMap Empty).insert '!' .halt
    let first := ['+', '[', '>', '[', '!']
    let rest := [']', '+', '<', ']', '+']
    let r₀ : Runner FixedTape Empty :=
      ⟨⟨⟨#[0, 0], 0⟩, { items := #[.plain commands] }, .ofBytes [], {}⟩, .standard, false⟩
    ∃ r₁, r₀.feed Machine.noHost 9 (first ++ rest) = .ended ⟨9, true⟩ r₁ ∧
      r₀.YieldsInTwo Machine.noHost first rest (.ended ⟨9, true⟩ r₁) ∧ r₁.Spent Machine.noHost := by
  intro commands first rest r₀
  have hfeed : ∃ r₁, r₀.feed Machine.noHost 9 (first ++ rest) = .ended ⟨9, true⟩ r₁ := ⟨_, by cbv⟩
  obtain ⟨r₁, hfeed⟩ := hfeed
  have hyields : r₀.Yields Machine.noHost (first ++ rest) (.ended ⟨9, true⟩ r₁) := ⟨by simp, 9, hfeed⟩
  have hpieces := ((feed_in_chunks Machine.noHost r₀ first rest).1 _).1 hyields
  have hspent := (feed_in_chunks Machine.noHost r₀ (first ++ rest) []).2 r₁ (.inl ⟨9, hyields⟩)
  exact ⟨r₁, hfeed, hpieces, hspent⟩

end Runner

end TapeMachine
