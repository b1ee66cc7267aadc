import Mathlib
import TapeMachine.Proofs.Verbatim

/-!
# The context of the program stays

However a runner is fed, the context at the bottom of its stack stays there and its stack is never found empty, if the
characters that close its loops stand for nothing else and each of them closes loops of one kind (`root_safe`).  The
loops may be of any number of kinds.  `Kept` lists the machines that such a mapping can lead to: the contexts are those
of a sound nest of loops of one kind, or the machine is jammed.

If two kinds of loop share the character that closes them, all of this breaks down: a loop that is skipped counts the
brackets of its own kind only, and so may end elsewhere than the same loop when it is entered.  The context of the
program can then be dropped by a program that never fails (`root_dropped_of_shared_exit`).  The same happens if the
characters that close loops are commands of other loops (`root_dropped_of_bound_exits`).
-/

namespace TapeMachine

variable {τ : Type} {commands : CommandMap Empty}

open Machine (ofTower noHost noCustom onStore)

namespace CommandMap

variable {κ : Type}

/-- A loop whose brackets are new can be added. -/
theorem ExitsApart.insert {commands : CommandMap κ} (h : commands.ExitsApart) {c x : Char} (hne : c ≠ x)
    (hx : commands[x]? = none)
    (hnew : ∀ c' : Char, commands[c']? ≠ some (.enterLoop c) ∧ commands[c']? ≠ some (.enterLoop x)) :
    ExitsApart (Std.TreeMap.insert commands c (.enterLoop x)) := by
  have hget (c' : Char) : (Std.TreeMap.insert commands c (.enterLoop x))[c']? =
      if c = c' then some (.enterLoop x) else commands[c']? := by
    simp [Std.TreeMap.getElem?_insert]
  constructor
  · intro c' x' h'
    rw [hget] at h' ⊢
    split at h'
    · cases h'
      rw [if_neg hne, hx]
    · have hc : c ≠ x' := by
        rintro rfl
        exact (hnew c').1 h'
      rw [if_neg hc, h.unbound h']
  · intro c₁ c₂ x' h₁ h₂
    rw [hget] at h₁ h₂
    split at h₁
    · next hc₁ =>
      cases h₁
      split at h₂
      · next hc₂ => rw [← hc₁, hc₂]
      · exact absurd h₂ (hnew c₂).2
    · split at h₂
      · cases h₂
        exact absurd h₁ (hnew c₁).2
      · exact h.unique h₁ h₂

/-- The language with a second kind of loop. -/
def twoLoops : CommandMap κ := standard.insert '(' (.enterLoop ')')

theorem exitsApart_twoLoops : (twoLoops : CommandMap κ).ExitsApart := by
  have hstandard : (standard : CommandMap κ).ExitsApart := Dialect.exitsApart (d := .standard) rfl
  refine hstandard.insert (by decide) rfl fun c' => ?_
  simp [getElem?_standard_iff, bindings]

end CommandMap

/-- The machines that a program of several kinds of loop can lead to. -/
inductive Kept (commands : CommandMap Empty) : Machine τ Empty → Prop where
  | root (s : Store τ) : Kept commands (ofTower [.plain commands] s)
  | nest {d : Dialect Empty} (hd : d.commands = commands) {nest : Nest} (hs : d.Sound nest) (s : Store τ) :
    Kept commands (d.machine nest s)
  | jammed {tower : List (Context Empty)} (h : Jammed commands tower) (s : Store τ) : Kept commands (ofTower tower s)

/-- A step leaves a machine in `good` behind, and has not found the stack empty. -/
inductive Outcome.Keeps {σ : Type} (good : σ → Prop) : Outcome σ → Prop where
  | done {s : σ} (h : good s) : Keeps good (.done s)
  | failed {fault : Fault} (hfault : fault ≠ .emptyStack) {s : σ} (h : good s) : Keeps good (.failed fault s)
  | aborted (cause : Abort) : Keeps good (.aborted cause)

theorem Fault.IsOwn.ne_emptyStack {fault : Fault} (h : fault.IsOwn) : fault ≠ .emptyStack := by
  rintro rfl
  exact h

theorem Kept.get?_root {m : Machine τ Empty} (h : Kept commands m) : m.stack.get? 0 = some (.plain commands) := by
  cases h with
  | root => rfl
  | @nest d hd nest _ s =>
    rw [d.get?_machine_root, hd]
  | jammed h s =>
    obtain ⟨loops, rfl⟩ := h.stacked.exists_eq_concat
    exact Machine.get?_ofTower loops (.plain commands) [] s

variable [Tape τ]

/-- A jammed machine is kept. -/
theorem Jams.keeps {passable : Prop} {o : Outcome (Machine τ Empty)} (h : Jams commands noCustom passable o) :
    o.Keeps (Kept commands) := by
  cases h with
  | done _ h s => exact .done (.jammed h s)
  | refused c h s => exact .failed (by simp) (.jammed h s)
  | failed hloop hperform h => exact .failed (Store.isOwn_of_perform hloop hperform).ne_emptyStack (.jammed h _)
  | aborted cause => exact .aborted cause

namespace Dialect

variable {d : Dialect Empty} {nest : Nest} {s : Store τ} {c : Char}

theorem Leads.keeps {o : Outcome (Machine τ Empty)} (h : d.Leads noCustom nest c s o) (hs : d.Sound nest) :
    o.Keeps (Kept d.commands) := by
  cases h with
  | done h s' => exact .done (.nest rfl (h.sound hs) s')
  | failed h s' => exact .failed h.isOwn.ne_emptyStack (.nest rfl (h.sound hs) s')
  | unknown => exact .failed (by simp) (.nest rfl hs s)
  | aborted cause => exact .aborted cause

theorem executeAt_keeps (hexits : d.commands.ExitsApart) (hs : d.Sound nest) (hroot : d.Foreign c → nest ≠ ⟨[], 0⟩)
    (fuel : Nat) (s : Store τ) :
    (Machine.executeAt (onStore noCustom) fuel (topIndex nest) c (d.machine nest s)).Keeps (Kept d.commands) := by
  have houtlying : d.Outlying c → nest ≠ ⟨[], 0⟩ := by
    rintro (hc | ⟨rfl, hbound⟩)
    · exact hroot hc
    · exact absurd (hexits.unbound d.enter_bound) hbound
  rcases executeAt_leads_or_jams (fun _ => hexits) fuel c s hs houtlying with hleads | ⟨-, hjams⟩
  · exact hleads.keeps hs
  · exact hjams.keeps

end Dialect

/-! ### Calls of a runner -/

/-- At the root a character opens a loop of its kind, does what its command does, or is refused. -/
private theorem executeAt_root_keeps (hexits : commands.ExitsApart) (fuel : Nat) (c : Char) (s : Store τ) :
    (Machine.executeAt (onStore noCustom) fuel 0 c (ofTower [.plain commands] s)).Keeps (Kept commands) := by
  cases fuel with
  | zero => exact .aborted _
  | succ fuel =>
    have hget : (ofTower [.plain commands] s).stack.get? 0 = some (.plain commands) := rfl
    cases hc : commands[c]? with
    | none =>
      rw [Machine.executeAt_plain_unknown hget hc]
      exact .failed (by simp) (.root s)
    | some command =>
      by_cases hloop : ∃ x, command = .enterLoop x
      · obtain ⟨x, rfl⟩ := hloop
        have hne : x ≠ c := by
          rintro rfl
          rw [hexits.unbound hc] at hc
          cases hc
        let d : Dialect Empty := ⟨⟨c, x, hne⟩, commands, hc⟩
        have hroot : d.Sound ⟨[], 0⟩ := trivial
        exact Dialect.executeAt_keeps hexits hroot (absurd · Dialect.not_foreign_enter) (fuel + 1) s
      · rw [not_exists] at hloop
        rw [Machine.executeAt_plain hget hc, Machine.invoke_ofTower noCustom hloop]
        cases hperform : s.perform noCustom command with
        | done s' => exact .done (.root s')
        | failed fault s' => exact .failed (Store.isOwn_of_perform hloop hperform).ne_emptyStack (.root s')
        | aborted cause => exact .aborted cause

/-- What the context on top does keeps the machine. -/
theorem Kept.executeAt (hexits : commands.ExitsApart) {m : Machine τ Empty} (h : Kept commands m) (fuel : Nat)
    (c : Char) :
    ∃ top, m.stack.topIndex? = some top ∧ (m.executeAt (onStore noCustom) fuel top c).Keeps (Kept commands) := by
  cases h with
  | root s => exact ⟨0, rfl, executeAt_root_keeps hexits fuel c s⟩
  | @nest d hd nest hs s =>
    subst hd
    refine ⟨_, Dialect.topIndex?_machine nest s, ?_⟩
    by_cases hroot : nest = ⟨[], 0⟩
    · subst hroot
      exact executeAt_root_keeps hexits fuel c s
    · exact Dialect.executeAt_keeps hexits hs (fun _ => hroot) fuel s
  | jammed h s => exact ⟨_, h.stacked.topIndex? s, (h.executeAt hexits fuel c s).keeps⟩

namespace Runner

omit [Tape τ] in
theorem settle_keeps (policy : Policy) {o : Outcome (Machine τ Empty)} (h : o.Keeps (Kept commands)) :
    (settle policy o).Keeps fun r => Kept commands r.machine := by
  cases h with
  | done h => exact .done h
  | @failed fault hfault _ h =>
    cases fault with
    | unknownCharacter c =>
      simp only [settle]
      split
      · exact .done h
      · exact .failed hfault h
    | outOfBounds _ | emptyStack | io _ | runOver => exact .failed hfault h
  | aborted cause => exact .aborted cause

theorem execute_keeps (hexits : commands.ExitsApart) {r : Runner τ Empty} (h : Kept commands r.machine) (fuel : Nat)
    (c : Char) : (r.execute noHost fuel c).Keeps fun r => Kept commands r.machine := by
  obtain ⟨m, policy, isFinished⟩ := r
  cases isFinished with
  | true => exact .failed (by simp) h
  | false =>
    obtain ⟨top, htop, hkeeps⟩ := Kept.executeAt hexits h fuel c
    simp only [execute, htop, Machine.noHost_eq_onStore]
    exact settle_keeps policy hkeeps

theorem kept_of_endure (hexits : commands.ExitsApart) {fuel : Nat} {text : List Char} {r r' : Runner τ Empty}
    (h : Kept commands r.machine) (hfed : r.endure noHost fuel text = some r') : Kept commands r'.machine := by
  induction text generalizing r with
  | nil =>
    cases hfed
    exact h
  | cons c rest ih =>
    have hkeeps := execute_keeps hexits h fuel c
    unfold endure at hfed
    generalize r.execute noHost fuel c = outcome at hkeeps hfed
    cases hkeeps with
    | done h => exact ih h hfed
    | failed _ h => exact ih h hfed
    | aborted cause => cases hfed

/-- However a runner is fed, the context of the program stays at the bottom of its stack and the stack is never found
empty, if no character closes loops of two kinds or has another meaning besides. -/
theorem root_safe (hexits : commands.ExitsApart) (tape : τ) (policy : Policy) (input : Source) (output : Sink)
    {r₀ r : Runner τ Empty} (hstart : start tape {} commands policy input output = .ok r₀) {fuel : Nat}
    {text : List Char} (hfed : r₀.endure noHost fuel text = some r) :
    r.machine.stack.get? 0 = some (.plain commands) ∧
      ∀ fuel c r', r.execute noHost fuel c ≠ .failed .emptyStack r' := by
  have hroot : Kept commands r₀.machine := by
    obtain rfl := Except.ok.inj hstart
    exact .root ⟨tape, input, output⟩
  have hkept := kept_of_endure hexits hroot hfed
  refine ⟨hkept.get?_root, ?_⟩
  intro fuel c r' hempty
  have hkeeps := execute_keeps hexits hkept fuel c
  rw [hempty] at hkeeps
  cases hkeeps with
  | failed hfault => exact hfault rfl

/-- A round loop is opened inside a square one.  The round bracket that should close it is refused by the square loop,
and the square bracket by the round one. -/
theorem root_safe_after_jam :
    let r₀ : Runner FixedTape Empty :=
      ⟨ofTower [.plain .twoLoops] ⟨⟨#[0], 0⟩, .ofBytes [], {}⟩, .standard, false⟩
    let r : Runner FixedTape Empty :=
      ⟨ofTower [.recording { commands := .twoLoops, exit := ')', recorded := #[')'], parent := some 1 },
        .recording { commands := .twoLoops, exit := ']', recorded := #['('] }, .plain .twoLoops]
          ⟨⟨#[1], 0⟩, .ofBytes [], {}⟩, .standard, false⟩
    start (⟨#[0], 0⟩ : FixedTape) {} .twoLoops .standard (.ofBytes []) {} = .ok r₀ ∧
      r₀.endure noHost 9 ['+', '[', '(', ')', ']'] = some r ∧
      r.machine.stack.get? 0 = some (.plain .twoLoops) ∧
      ∀ fuel c r', r.execute noHost fuel c ≠ .failed .emptyStack r' := by
  intro r₀ r
  have hstart : start (⟨#[0], 0⟩ : FixedTape) {} .twoLoops .standard (.ofBytes []) {} = .ok r₀ := rfl
  have hfed : r₀.endure noHost 9 ['+', '[', '(', ')', ']'] = some r := by cbv
  exact ⟨hstart, hfed, root_safe CommandMap.exitsApart_twoLoops _ _ _ _ hstart hfed⟩

/-- With two kinds of loop that share the character which closes them, a program whose calls all succeed drops the
context of the program, and the next call finds the stack empty.  In the first pass of the outer loop the inner one is
entered; in the second it is skipped, and ends one bracket too early. -/
theorem root_dropped_of_shared_exit :
    let commands : CommandMap Empty := CommandMap.standard.insert '(' (.enterLoop ']')
    let r : Runner FixedTape Empty := ⟨ofTower [] ⟨⟨#[0, 0], 0⟩, .ofBytes [], {}⟩, .standard, false⟩
    ∃ r₀, start (⟨#[0, 0], 0⟩ : FixedTape) {} commands .standard (.ofBytes []) {} = .ok r₀ ∧
      r₀.executeAll noHost 9 ['+', '+', '>', '+', '<', '[', '>', '(', '[', '-', ']', ']', '<', '-', ']'] = .done r ∧
      r.machine.stack.get? 0 = none ∧ r.execute noHost 9 '+' = .failed .emptyStack r := by
  intro commands r
  exact ⟨_, rfl, by cbv, rfl, rfl⟩

/-- It is not enough that the kinds of loop are closed by characters of their own, if these are bound as well.  In the
first pass `)` is a command of the innermost loop; in the second the loop around that is skipped and ends there, and the
`]` that follows closes the outermost loop from inside its own replay. -/
theorem root_dropped_of_bound_exits :
    let commands : CommandMap Empty :=
      ((CommandMap.standard.insert '(' (.enterLoop ')')).insert ')' .decrement).insert ']' .increment
    let r : Runner FixedTape Empty := ⟨ofTower [] ⟨⟨#[0, 65535], 0⟩, .ofBytes [], {}⟩, .standard, false⟩
    ∃ r₀, start (⟨#[0, 0], 0⟩ : FixedTape) {} commands .standard (.ofBytes []) {} = .ok r₀ ∧
      r₀.executeAll noHost 9 ['+', '+', '>', '+', '<', '[', '>', '(', '[', ')', ']', ')', '<', '-', ']'] = .done r ∧
      r.machine.stack.get? 0 = none ∧ r.execute noHost 9 '+' = .failed .emptyStack r := by
  intro commands r
  exact ⟨_, rfl, by cbv, rfl, rfl⟩

end Runner

end TapeMachine
