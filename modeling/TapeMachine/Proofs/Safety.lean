import TapeMachine.Proofs.Language
import TapeMachine.Proofs.Steps
import TapeMachine.Runner
import TapeMachine.Tape.Fixed

/-!
# Stack safety

A runner of the language keeps its contexts in order whatever it is fed, even if the calls that fail are ignored and
the feeding goes on (`stack_safe`): the contexts are those of a sound nest, and the stack is never found empty.
-/

namespace TapeMachine

variable {τ κ : Type}

/-! ### The contexts of a nest, by index -/

namespace Dialect

variable (d : Dialect κ)

private theorem getElem?_reverse_tower_zero (levels : List Level) :
    (d.tower levels).reverse[0]? = some (.plain d.commands) := by
  induction levels with
  | nil => rfl
  | cons level levels ih => rw [tower, List.reverse_cons, List.getElem?_append_left (by simp), ih]

private theorem getElem?_reverse_tower {levels : List Level} {i : Nat} (hi : i < levels.length) :
    ∃ level around, around.length = i ∧ levels.reverse[i]? = some level ∧
      (d.tower levels).reverse[i + 1]? = some (d.recording level around) := by
  induction levels with
  | nil => simp at hi
  | cons level levels ih =>
    rw [tower, List.reverse_cons, List.reverse_cons]
    by_cases hlt : i < levels.length
    · obtain ⟨level', around, hlen, hlevel, hcontext⟩ := ih hlt
      refine ⟨level', around, hlen, ?_, ?_⟩
      · rw [List.getElem?_append_left (by simpa using hlt), hlevel]
      · rw [List.getElem?_append_left (by simpa using hlt), hcontext]
    · have hlen : i = levels.length := by rw [List.length_cons] at hi; omega
      subst hlen
      refine ⟨level, levels, rfl, ?_, ?_⟩
      · rw [List.getElem?_append_right (by simp)]
        simp
      · rw [List.getElem?_append_right (by simp)]
        simp

theorem get?_machine (nest : Nest) (s : Store τ) {index : Nat} (hi : index ≤ nest.levels.length) :
    (d.machine nest s).stack.get? index = (d.tower nest.levels).reverse[index]? := by
  simp only [machine, Machine.ofTower, ContextStack.get?, contexts, List.getElem?_toArray]
  split
  · rfl
  · rw [List.reverse_cons, List.getElem?_append_left (by simp; omega)]

theorem size_machine (nest : Nest) (s : Store τ) :
    (d.machine nest s).stack.size = 1 + nest.levels.length + if nest.skipped = 0 then 0 else 1 := by
  simp only [machine, Machine.ofTower, ContextStack.size, contexts, List.size_toArray, List.length_reverse]
  split
  · rw [length_tower]; omega
  · rw [List.length_cons, length_tower]; omega

theorem get?_machine_root (nest : Nest) (s : Store τ) :
    (d.machine nest s).stack.get? 0 = some (.plain d.commands) := by
  rw [get?_machine d nest s (Nat.zero_le _), getElem?_reverse_tower_zero]

/-- The recording at an index belongs to the level with as many levels around it as there are recordings below. -/
theorem get?_machine_level (nest : Nest) (s : Store τ) {i : Nat} (hi : i < nest.levels.length) :
    ∃ level around, around.length = i ∧ nest.levels.reverse[i]? = some level ∧
      (d.machine nest s).stack.get? (i + 1) = some (d.recording level around) := by
  rw [get?_machine d nest s hi]
  exact getElem?_reverse_tower d hi

theorem get?_machine_skipped {nest : Nest} (s : Store τ) (h : nest.skipped ≠ 0) :
    (d.machine nest s).stack.get? (nest.levels.length + 1) = some (d.skipping nest.skipped nest.levels) := by
  simp only [machine, Machine.ofTower, ContextStack.get?, contexts, List.getElem?_toArray]
  rw [if_neg h, List.reverse_cons, List.getElem?_append_right (by simp)]
  simp

end Dialect

/-- A plain context at the bottom, and loops above it.  Only the loop on top may be skipped, and each loop passes its
characters on to the one below it. -/
def ContextStack.InOrder (stack : ContextStack κ) (root : CommandMap κ) : Prop :=
  stack.get? 0 = some (.plain root) ∧
    ∀ index, 1 ≤ index → index < stack.size →
      (∃ r, stack.get? index = some (.recording r) ∧ r.parent = if index = 1 then none else some (index - 1)) ∨
        index + 1 = stack.size ∧
          ∃ s, stack.get? index = some (.skip s) ∧ s.parent = if index = 1 then none else some (index - 1)

theorem Dialect.inOrder_machine (d : Dialect κ) (nest : Nest) (s : Store τ) :
    (d.machine nest s).stack.InOrder d.commands := by
  refine ⟨d.get?_machine_root nest s, ?_⟩
  intro index hpos hlt
  rw [size_machine] at hlt ⊢
  obtain ⟨i, rfl⟩ : ∃ i, index = i + 1 := ⟨index - 1, by omega⟩
  by_cases hi : i < nest.levels.length
  · obtain ⟨level, around, hlen, -, hcontext⟩ := d.get?_machine_level nest s hi
    refine .inl ⟨_, hcontext, ?_⟩
    rw [scope_eq, hlen]
    simp
  · -- above the recordings there is room for one context, and that one skips
    have hskipped : nest.skipped ≠ 0 := by
      intro hzero
      rw [if_pos hzero] at hlt
      omega
    rw [if_neg hskipped] at hlt ⊢
    obtain rfl : i = nest.levels.length := by omega
    refine .inr ⟨by omega, _, d.get?_machine_skipped s hskipped, ?_⟩
    rw [scope_eq]
    simp

/-! ### Calls of a runner -/

variable [Tape τ]

namespace Dialect

section

open Machine (onStore)

variable {d : Dialect κ} {custom : κ → Store τ → Outcome (Store τ)} {nest : Nest} {s : Store τ} {policy : Policy}
  {fuel : Nat} {c : Char}

theorem execute_onStore (d : Dialect κ) (custom : κ → Store τ → Outcome (Store τ)) (nest : Nest) (s : Store τ)
    (policy : Policy) (fuel : Nat) (c : Char) :
    Runner.execute (onStore custom) fuel c ⟨d.machine nest s, policy, false⟩ =
      Runner.settle policy (Machine.executeAt (onStore custom) fuel (topIndex nest) c (d.machine nest s)) := by
  simp only [Runner.execute, topIndex?_machine]

variable (hcustom : ∀ command s c s', custom command s ≠ .failed (.unknownCharacter c) s')

include hcustom

/-- No character of a loop is unknown when the loop is replayed. -/
theorem Fall.ne_unknownCharacter {nest' : Nest} {fault : Fault} (h : d.Fall custom nest c fault nest') (c' : Char) :
    fault ≠ .unknownCharacter c' := by
  rintro rfl
  obtain ⟨c₁, s, s', ⟨-, command, hcommand, hloop⟩, hact⟩ := h.exists_act
  rw [Dialect.act, hcommand] at hact
  cases Store.fails_of_perform hloop hact with
  | host h => exact hcustom _ _ _ _ h

/-- A call that succeeds has carried out the character, or passed it over, if the commands of the host know theirs. -/
theorem execute_done_of_known [d.Sole] (hexit : d.commands[d.exit]? = none) {isFinished : Bool} {r : Runner τ κ}
    (hs : d.Sound nest) (h : Runner.execute (onStore custom) fuel c ⟨d.machine nest s, policy, isFinished⟩ = .done r) :
    ∃ nest' s', r = ⟨d.machine nest' s', policy, false⟩ ∧
      (d.Step nest c nest' ∨ d.Unknown nest c ∧ nest' = nest ∧ s' = s) := by
  cases isFinished with
  | true => cases h
  | false =>
    rw [execute_onStore] at h
    have hleads : d.Leads custom nest c s _ := executeAt_leads hexit fuel c s hs
    generalize Machine.executeAt _ fuel (topIndex nest) c (d.machine nest s) = outcome at h hleads
    cases hleads with
    | @done nest' hstep s' =>
      cases h
      exact ⟨nest', s', rfl, .inl hstep⟩
    | @failed fault nest' hfall s' =>
      cases fault with
      | unknownCharacter c' => exact absurd rfl (hfall.ne_unknownCharacter hcustom c')
      | outOfBounds _ | emptyStack | io _ | runOver => cases h
    | unknown hunknown =>
      simp only [Runner.settle] at h
      split at h
      · cases h
        exact ⟨nest, s, rfl, .inr ⟨hunknown, rfl, rfl⟩⟩
      · cases h
    | aborted cause => cases h

end

open Machine (noHost noCustom)

variable {d : Dialect Empty} {nest : Nest} {s : Store τ} {policy : Policy} {fuel : Nat} {c : Char}

theorem execute_machine (d : Dialect Empty) (nest : Nest) (s : Store τ) (policy : Policy) (fuel : Nat) (c : Char) :
    Runner.execute noHost fuel c ⟨d.machine nest s, policy, false⟩ =
      Runner.settle policy
        (Machine.executeAt (Machine.onStore noCustom) fuel (topIndex nest) c (d.machine nest s)) := by
  rw [Machine.noHost_eq_onStore, execute_onStore]

theorem Fall.isOwn {nest' : Nest} {fault : Fault} (h : Fall (τ := τ) d noCustom nest c fault nest') : fault.IsOwn := by
  obtain ⟨c', s, s', hacts, hact⟩ := h.exists_act
  exact isOwn_of_act hacts hact

/-- A call that succeeds has carried out the character, or passed it over. -/
theorem execute_done [d.Sole] (hexit : d.commands[d.exit]? = none) {isFinished : Bool} {r : Runner τ Empty}
    (hs : d.Sound nest) (h : Runner.execute noHost fuel c ⟨d.machine nest s, policy, isFinished⟩ = .done r) :
    ∃ nest' s', r = ⟨d.machine nest' s', policy, false⟩ ∧
      (d.Step nest c nest' ∨ d.Unknown nest c ∧ nest' = nest ∧ s' = s) := by
  rw [Machine.noHost_eq_onStore] at h
  exact execute_done_of_known nofun hexit hs h

/-- A call that fails leaves a sound nest behind, and has not found the stack empty. -/
theorem execute_failed [d.Sole] (hexit : d.commands[d.exit]? = none) {isFinished : Bool} {fault : Fault}
    {r : Runner τ Empty} (hs : d.Sound nest)
    (h : Runner.execute noHost fuel c ⟨d.machine nest s, policy, isFinished⟩ = .failed fault r) :
    (∃ nest' s' isFinished', r = ⟨d.machine nest' s', policy, isFinished'⟩ ∧ d.Sound nest') ∧
      fault ≠ .emptyStack := by
  cases isFinished with
  | true =>
    cases h
    exact ⟨⟨nest, s, true, rfl, hs⟩, by simp⟩
  | false =>
    rw [execute_machine] at h
    have hleads : d.Leads noCustom nest c s _ := executeAt_leads hexit fuel c s hs
    generalize Machine.executeAt _ fuel (topIndex nest) c (d.machine nest s) = outcome at h hleads
    cases hleads with
    | done hstep s' => cases h
    | @failed fault' nest' hfall s' =>
      have hown := hfall.isOwn
      have hsound := hfall.sound hs
      cases fault' with
      | unknownCharacter _ | emptyStack => cases hown
      | outOfBounds _ | io _ | runOver =>
        cases h
        exact ⟨⟨nest', s', _, rfl, hsound⟩, by simp⟩
    | unknown hunknown =>
      simp only [Runner.settle] at h
      split at h
      · cases h
      · cases h
        exact ⟨⟨nest, s, _, rfl, hs⟩, by simp⟩
    | aborted cause => cases h

variable (hhalt : ∀ c : Char, d.commands[c]? ≠ some Command.halt)

include hhalt

theorem Fall.ne_runOver {nest' : Nest} {fault : Fault} (h : Fall (τ := τ) d noCustom nest c fault nest') :
    fault ≠ .runOver := by
  rintro rfl
  obtain ⟨c', s, s', ⟨-, command, hcommand, hloop⟩, hact⟩ := h.exists_act
  rw [Dialect.act, hcommand] at hact
  cases Store.fails_of_perform hloop hact with
  | halt => exact hhalt c' hcommand
  | @host command => cases command

/-- A call that fails does not end the run, if no command does. -/
theorem isFinished_of_execute_failed [d.Sole] (hexit : d.commands[d.exit]? = none) {fault : Fault} {r : Runner τ Empty}
    (hs : d.Sound nest) (h : Runner.execute noHost fuel c ⟨d.machine nest s, policy, false⟩ = .failed fault r) :
    r.isFinished = false := by
  rw [execute_machine] at h
  have hleads : d.Leads noCustom nest c s _ := executeAt_leads hexit fuel c s hs
  generalize Machine.executeAt _ fuel (topIndex nest) c (d.machine nest s) = outcome at h hleads
  cases hleads with
  | done hstep s' => cases h
  | @failed fault' nest' hfall s' =>
    have hown := hfall.isOwn
    cases fault' with
    | unknownCharacter _ | emptyStack => cases hown
    | runOver => exact absurd rfl (hfall.ne_runOver hhalt)
    | outOfBounds _ | io _ =>
      cases h
      rfl
  | unknown hunknown =>
    simp only [Runner.settle] at h
    split at h
    · cases h
    · cases h
      rfl
  | aborted cause => cases h

end Dialect

namespace Runner

/-- Give the characters to the runner one after the other, whatever comes of the calls. -/
def endure (host : κ → Machine τ κ → Outcome (Machine τ κ)) (fuel : Nat) :
    List Char → Runner τ κ → Option (Runner τ κ)
  | [], r => some r
  | c :: rest, r =>
    match r.execute host fuel c with
    | .done r => endure host fuel rest r
    | .failed _ r => endure host fuel rest r
    | .aborted _ => none

omit [Tape τ] in
theorem start_machine (d : Dialect κ) (tape : τ) (policy : Policy) (input : Source) (output : Sink) :
    start tape {} d.commands policy input output =
      .ok ⟨d.machine ⟨[], 0⟩ ⟨tape, input, output⟩, policy, false⟩ := rfl

theorem sound_of_endure {d : Dialect Empty} [d.Sole] {fuel : Nat} {text : List Char} {nest : Nest} {s : Store τ}
    {policy : Policy} {isFinished : Bool} {r : Runner τ Empty} (hexit : d.commands[d.exit]? = none)
    (hs : d.Sound nest) (h : endure Machine.noHost fuel text ⟨d.machine nest s, policy, isFinished⟩ = some r) :
    ∃ nest' s' isFinished', r = ⟨d.machine nest' s', policy, isFinished'⟩ ∧ d.Sound nest' := by
  induction text generalizing nest s isFinished with
  | nil =>
    cases h
    exact ⟨nest, s, isFinished, rfl, hs⟩
  | cons c rest ih =>
    unfold endure at h
    split at h
    · next r' hc =>
      obtain ⟨nest', s', rfl, hstep | ⟨-, rfl, -⟩⟩ := Dialect.execute_done hexit hs hc
      · exact ih (hstep.sound hs) h
      · exact ih hs h
    · next fault r' hc =>
      obtain ⟨⟨nest', s', isFinished', rfl, hs'⟩, -⟩ := Dialect.execute_failed hexit hs hc
      exact ih hs' h
    · cases h

/-- However a runner is fed, it is not finished if no command ends the run. -/
theorem isFinished_of_endure {d : Dialect Empty} [d.Sole] (hexit : d.commands[d.exit]? = none)
    (hhalt : ∀ c : Char, d.commands[c]? ≠ some Command.halt) {fuel : Nat} {text : List Char} {nest : Nest} {s : Store τ}
    {policy : Policy} {r : Runner τ Empty} (hs : d.Sound nest)
    (h : endure Machine.noHost fuel text ⟨d.machine nest s, policy, false⟩ = some r) : r.isFinished = false := by
  induction text generalizing nest s with
  | nil =>
    cases h
    rfl
  | cons c rest ih =>
    unfold endure at h
    split at h
    · next r' hc =>
      obtain ⟨nest', s', rfl, hstep | ⟨-, rfl, -⟩⟩ := Dialect.execute_done hexit hs hc
      · exact ih (hstep.sound hs) h
      · exact ih hs h
    · next fault r' hc =>
      have hfinished := Dialect.isFinished_of_execute_failed hhalt hexit hs hc
      obtain ⟨⟨nest', s', isFinished', rfl, hs'⟩, -⟩ := Dialect.execute_failed hexit hs hc
      obtain rfl : isFinished' = false := hfinished
      exact ih hs' h
    · cases h

/-- However a runner of the language is fed, its contexts stay in order and its stack is never found empty. -/
theorem stack_safe (tape : τ) (policy : Policy) (input : Source) (output : Sink) {r₀ r : Runner τ Empty}
    (hstart : start tape {} .standard policy input output = .ok r₀) {fuel : Nat} {text : List Char}
    (hfed : r₀.endure Machine.noHost fuel text = some r) :
    r.machine.stack.InOrder .standard ∧
      ∀ fuel c r', r.execute Machine.noHost fuel c ≠ .failed .emptyStack r' := by
  obtain rfl := Except.ok.inj ((start_machine .standard tape policy input output).symm.trans hstart)
  have hroot : (Dialect.standard (κ := Empty)).Sound ⟨[], 0⟩ := trivial
  obtain ⟨nest, s, isFinished, rfl, hsound⟩ := sound_of_endure rfl hroot hfed
  refine ⟨Dialect.inOrder_machine _ nest s, ?_⟩
  intro fuel c r' hc
  exact (Dialect.execute_failed rfl hsound hc).2 rfl

/-- The sink refuses a byte in the middle of a replay.  The closed loop is left behind, and another is opened in it. -/
theorem stack_safe_after_failed_replay :
    let r₀ : Runner FixedTape Empty :=
      ⟨Dialect.standard.machine ⟨[], 0⟩ ⟨⟨#[0], 0⟩, .ofBytes [], .closingAfter 1⟩, .standard, false⟩
    let r : Runner FixedTape Empty :=
      ⟨Dialect.standard.machine ⟨[⟨[], true⟩, ⟨['.'], false⟩], 0⟩
        ⟨⟨#[1], 0⟩, .ofBytes [], { written := #[1], lasting := .refuse "sink closed" }⟩, .standard, false⟩
    start (⟨#[0], 0⟩ : FixedTape) {} .standard .standard (.ofBytes []) (.closingAfter 1) = .ok r₀ ∧
      r₀.endure Machine.noHost 9 ['+', '[', '.', ']', '['] = some r ∧
      r.machine.stack.InOrder .standard ∧ ∀ fuel c r', r.execute Machine.noHost fuel c ≠ .failed .emptyStack r' := by
  intro r₀ r
  have hstart : start (⟨#[0], 0⟩ : FixedTape) {} .standard .standard (.ofBytes []) (.closingAfter 1) = .ok r₀ := rfl
  have hfed : r₀.endure Machine.noHost 9 ['+', '[', '.', ']', '['] = some r := rfl
  exact ⟨hstart, hfed, stack_safe _ _ _ _ hstart hfed⟩

end Runner

end TapeMachine
