import Mathlib
import TapeMachine.Proofs.Footprint
import TapeMachine.Proofs.Verbatim

/-!
# Skipped loops

A loop whose guard is zero does nothing, and ends at the bracket that matches its own (`skipped_to_match`).  The
matching bracket is found by counting: it is the last character of the first text after the opening bracket that closes
more loops than it opens.  Until then every character is added to the recordings around the loop, each of which knows
the closing bracket as its own and does not react to it.

* While no call fails, every loop around a point of the program is still being recorded (`Nest.AllOpen`), if the
  commands of the host do not fail on an unknown character.
* `executeAll_skipped` follows the skipped text character by character.  The depth of the skip context is one more than
  the loops opened in the text minus those closed.
-/

namespace TapeMachine

variable {τ κ : Type}

/-! ### Recordings that are all open -/

/-- The context after it has taken `text` down, if it is being recorded. -/
def Context.takeDown (text : List Char) : Context κ → Context κ
  | .recording r => .recording (if r.isOpen then { r with recorded := r.recorded ++ text.toArray } else r)
  | other => other

/-- Every loop that was entered is still being recorded. -/
def Nest.AllOpen (nest : Nest) : Prop := ∀ level ∈ nest.levels, level.isOpen

theorem note_eq_map {levels : List Level} (hopen : ∀ level ∈ levels, level.isOpen) (c : Char) :
    note c levels = levels.map fun level => { level with body := level.body ++ [c] } := by
  induction levels with
  | nil => rfl
  | cons level levels ih =>
    have hlevel := hopen level List.mem_cons_self
    have hrest := ih fun level hlevel => hopen level (List.mem_cons_of_mem _ hlevel)
    rw [note, if_pos hlevel, hrest, List.map_cons]

theorem isOpen_of_mem_note {levels : List Level} (hopen : ∀ level ∈ levels, level.isOpen) (c : Char) :
    ∀ level ∈ note c levels, level.isOpen := by
  intro level hlevel
  rw [note_eq_map hopen] at hlevel
  obtain ⟨before, hbefore, rfl⟩ := List.mem_map.1 hlevel
  exact hopen before hbefore

namespace Dialect

variable {d : Dialect κ}

theorem noteAll_eq_map {levels : List Level} (hopen : ∀ level ∈ levels, level.isOpen) (text : List Char) :
    noteAll text levels = levels.map fun level => { level with body := level.body ++ text } := by
  induction text using List.reverseRecOn with
  | nil => simp [noteAll]
  | append_singleton text c ih =>
    have hopen' : ∀ level ∈ noteAll text levels, level.isOpen := by
      intro level hlevel
      rw [ih] at hlevel
      obtain ⟨before, hbefore, rfl⟩ := List.mem_map.1 hlevel
      exact hopen before hbefore
    rw [noteAll_concat, note_eq_map hopen', ih, List.map_map]
    simp

/-- Recordings that are all open take a text down together. -/
theorem tower_noteAll {levels : List Level} (hopen : ∀ level ∈ levels, level.isOpen) (text : List Char) :
    d.tower (noteAll text levels) = (d.tower levels).map (Context.takeDown text) := by
  rw [noteAll_eq_map hopen]
  induction levels with
  | nil => rfl
  | cons level levels ih =>
    have hlevel := hopen level List.mem_cons_self
    have hrest := ih fun level hlevel => hopen level (List.mem_cons_of_mem _ hlevel)
    simp only [List.map_cons, tower, hrest, recording, Context.takeDown, hlevel, if_true, scope_eq, List.length_map]
    simp

theorem Step.allOpen {nest nest' : Nest} {c : Char} (h : d.Step nest c nest') (hopen : nest.AllOpen) :
    nest'.AllOpen := by
  cases h with
  | act _ levels | pass _ levels => exact isOpen_of_mem_note hopen _
  | skip levels => exact isOpen_of_mem_note hopen _
  | unskip levels => exact isOpen_of_mem_note hopen _
  | enter levels =>
    intro level hlevel
    rcases List.mem_cons.1 hlevel with rfl | hlevel
    · rfl
    · exact isOpen_of_mem_note hopen _ level hlevel
  | exit body isOpen levels =>
    have hlevels : ∀ level ∈ levels, level.isOpen := fun level hlevel => hopen level (List.mem_cons_of_mem _ hlevel)
    cases isOpen with
    | true => exact isOpen_of_mem_note hlevels _
    | false => exact hlevels

end Dialect

/-! ### Passing over a text -/

open Machine (onStore)

variable [Tape τ]

namespace Runner

theorem executeAll_append (host : κ → Machine τ κ → Outcome (Machine τ κ)) (fuel : Nat) (text rest : List Char)
    (r : Runner τ κ) :
    r.executeAll host fuel (text ++ rest) = (r.executeAll host fuel text).andThen (executeAll host fuel rest) := by
  induction text generalizing r with
  | nil => rfl
  | cons c text ih =>
    simp only [List.cons_append, executeAll, Outcome.andThen_assoc]
    exact congrArg _ (funext ih)

variable {d : Dialect κ} {custom : κ → Store τ → Outcome (Store τ)} {policy : Policy} {fuel : Nat}

/-- While no call fails, every loop is still being recorded. -/
theorem allOpen_of_executeAll [d.Sole] (hexit : d.commands[d.exit]? = none)
    (hcustom : ∀ command s c s', custom command s ≠ .failed (.unknownCharacter c) s') {text : List Char} {nest : Nest}
    {s : Store τ} {r : Runner τ κ} (hsound : d.Sound nest) (hopen : nest.AllOpen)
    (h : executeAll (onStore custom) fuel text ⟨d.machine nest s, policy, false⟩ = .done r) :
    ∃ nest' s', r = ⟨d.machine nest' s', policy, false⟩ ∧ nest'.AllOpen := by
  induction text generalizing nest s with
  | nil =>
    cases h
    exact ⟨nest, s, rfl, hopen⟩
  | cons c rest ih =>
    obtain ⟨r', hc, hrest⟩ := Outcome.andThen_eq_done_iff.1 h
    obtain ⟨nest', s', rfl, hstep | ⟨-, rfl, rfl⟩⟩ := Dialect.execute_done_of_known hcustom hexit hsound hc
    · exact ih (hstep.sound hsound) (hstep.allOpen hopen) hrest
    · exact ih hsound hopen hrest

/-- The opening bracket of a loop whose guard is zero. -/
theorem execute_enter_skipped (levels : List Level) (hfuel : levels.length < fuel) {s s' : Store τ}
    (hguard : s.guard? = some (0, s')) :
    execute (onStore custom) fuel d.enter ⟨d.machine ⟨levels, 0⟩ s, policy, false⟩ =
      .done ⟨d.machine ⟨note d.enter levels, 1⟩ s', policy, false⟩ := by
  obtain ⟨fuel, rfl⟩ : ∃ n, fuel = n + 1 := ⟨fuel - 1, by omega⟩
  have hexecute := Dialect.executeAt_enter (d := d) custom levels (Nat.le_of_lt_succ hfuel) s
  simp only [hguard, if_true] at hexecute
  rw [Dialect.execute_onStore, Dialect.topIndex, if_pos rfl, hexecute]
  rfl

/-- A character inside a loop that is skipped. -/
theorem execute_skipped {c : Char} (hc : d.Knows c) (levels : List Level) (depth : Nat) (hfuel : levels.length < fuel)
    (s : Store τ) :
    execute (onStore custom) fuel c ⟨d.machine ⟨levels, depth + 1⟩ s, policy, false⟩ =
      .done ⟨d.machine ⟨note c levels, if c = d.enter then depth + 2 else if c = d.exit then depth else depth + 1⟩ s,
        policy, false⟩ := by
  obtain ⟨fuel, rfl⟩ : ∃ n, fuel = n + 1 := ⟨fuel - 1, by omega⟩
  have hexecute := Dialect.executeAt_skipped custom hc levels depth (Nat.le_of_lt_succ hfuel) s
  rw [Dialect.execute_onStore, Dialect.topIndex, if_neg (Nat.succ_ne_zero depth), hexecute]
  rfl

/-- Nothing of a skipped text is carried out, as long as no shorter piece of it closes more loops than it opens. -/
theorem executeAll_skipped {levels : List Level} (hfuel : levels.length < fuel) {s s' : Store τ}
    (hguard : s.guard? = some (0, s')) {passed : List Char} (hknows : ∀ c ∈ passed, d.Knows c)
    (hfirst : ∀ shorter, shorter <+: passed → shorter ≠ passed → shorter.count d.exit ≤ shorter.count d.enter) :
    executeAll (onStore custom) fuel (d.enter :: passed) ⟨d.machine ⟨levels, 0⟩ s, policy, false⟩ =
      .done ⟨d.machine ⟨Dialect.noteAll (d.enter :: passed) levels, passed.count d.enter + 1 - passed.count d.exit⟩ s',
        policy, false⟩ := by
  induction passed using List.reverseRecOn with
  | nil => rw [executeAll, execute_enter_skipped levels hfuel hguard]; rfl
  | append_singleton passed c ih =>
    have hpassed : passed.count d.exit ≤ passed.count d.enter := hfirst passed (List.prefix_append _ _) (by simp)
    have hskipped := ih (fun c hc => hknows c (List.mem_append_left _ hc)) ?_
    · -- the skip context is still there before the last character
      obtain ⟨depth, hdepth⟩ : ∃ depth, passed.count d.enter + 1 - passed.count d.exit = depth + 1 :=
        ⟨passed.count d.enter - passed.count d.exit, by omega⟩
      have hcount : (if c = d.enter then depth + 2 else if c = d.exit then depth else depth + 1) =
          (passed ++ [c]).count d.enter + 1 - (passed ++ [c]).count d.exit := by
        rw [List.count_append, List.count_append, List.count_singleton, List.count_singleton]
        by_cases hn : c = d.enter
        · simp only [hn, if_true, beq_iff_eq, if_neg d.distinct.symm]
          omega
        by_cases hx : c = d.exit
        · simp only [hx, if_true, beq_iff_eq, if_neg d.distinct, beq_self_eq_true]
          omega
        · simp only [hn, hx, if_false, beq_iff_eq]
          omega
      have hc : d.Knows c := hknows c (by simp)
      have hlen : (Dialect.noteAll (d.enter :: passed) levels).length < fuel := by rwa [Dialect.length_noteAll]
      rw [← List.cons_append, executeAll_append, hskipped, hdepth, Outcome.done_andThen, executeAll,
        execute_skipped hc _ depth hlen, hcount, ← Dialect.noteAll_concat]
      rfl
    · intro shorter hshorter hne
      refine hfirst shorter (hshorter.trans (List.prefix_append _ _)) ?_
      rintro rfl
      simpa using hshorter.length_le

end Runner

/-- A loop whose guard is zero does nothing, and ends at the bracket that matches its own: the last of the first piece
of text that closes more loops than it opens.  The contexts are then those of before, except that the recordings hold
the loop.  Before that there is a skip context on top of them.  What the commands of the host would do is of no
importance. -/
theorem skipped_to_match [Tape.Steady τ] (d : Dialect κ) [d.Sole] (hexit : d.commands[d.exit]? = none)
    {custom : κ → Store τ → Outcome (Store τ)}
    (hcustom : ∀ command s c s', custom command s ≠ .failed (.unknownCharacter c) s') (tape : τ) (policy : Policy)
    (input : Source) (output : Sink) {r₀ r : Runner τ κ}
    (hstart : Runner.start tape {} d.commands policy input output = .ok r₀) {fuel : Nat} {fed : List Char}
    (hfed : r₀.executeAll (onStore custom) fuel fed = .done r) (htop : ∀ skip, r.machine.stack.top? ≠ some (.skip skip))
    {tape' : τ} (hread : Tape.read? r.machine.tape = some (0, tape')) {text : List Char}
    (hbound : ∀ c ∈ text, c = d.exit ∨ ∃ command, d.commands[c]? = some command) {passed : List Char}
    (hpassed : passed <+: text)
    (hfirst : ∀ shorter, shorter <+: passed → shorter ≠ passed → shorter.count d.exit ≤ shorter.count d.enter)
    {fuel' : Nat} (hfuel : r.depth ≤ fuel') :
    Tape.SameView r.machine.tape tape' ∧ ∃ stack,
      (∀ custom', r.executeAll (onStore custom') fuel' (d.enter :: passed) =
        .done { r with machine := { r.machine with tape := tape', stack } }) ∧
      let around := r.machine.stack.items.map (Context.takeDown (d.enter :: passed))
      if passed.count d.enter < passed.count d.exit then stack = { r.machine.stack with items := around }
      else ∃ skip, skip.depth + passed.count d.exit = passed.count d.enter + 1 ∧
        stack = { r.machine.stack with items := around.push (.skip skip) } := by
  obtain rfl := Except.ok.inj ((Runner.start_machine d tape policy input output).symm.trans hstart)
  have hroot : d.Sound ⟨[], 0⟩ := trivial
  obtain ⟨⟨levels, skipped⟩, s, rfl, hopen⟩ := Runner.allOpen_of_executeAll hexit hcustom hroot nofun hfed
  cases skipped with
  | succ depth => exact absurd (Machine.top?_ofTower _ _ s) (htop _)
  | zero =>
    have hguard : s.guard? = some (0, { s with tape := tape' }) := by
      have hread : Tape.read? s.tape = some (0, tape') := hread
      rw [Store.guard?, hread]
      rfl
    have hlevels : levels.length < fuel' := by
      rw [Runner.depth, Dialect.size_machine] at hfuel
      simp only [if_true] at hfuel
      omega
    have hknows : ∀ c ∈ passed, d.Knows c := fun c hc => hbound c (hpassed.subset hc)
    have haround : (d.tower (Dialect.noteAll (d.enter :: passed) levels)).reverse.toArray =
        (d.machine ⟨levels, 0⟩ s).stack.items.map (Context.takeDown (d.enter :: passed)) := by
      rw [Dialect.tower_noteAll hopen]
      simp [Dialect.machine, Machine.ofTower, Dialect.contexts_levels]
    refine ⟨Tape.Steady.sameView_of_read hread, _,
      fun custom' => Runner.executeAll_skipped hlevels hguard hknows hfirst, ?_⟩
    simp only [← haround]
    split
    · next hclosed =>
      have hdepth : passed.count d.enter + 1 - passed.count d.exit = 0 := by omega
      simp only [hdepth]
      rfl
    · next hopened =>
      obtain ⟨depth, hdepth⟩ : ∃ depth, passed.count d.enter + 1 - passed.count d.exit = depth + 1 :=
        ⟨passed.count d.enter - passed.count d.exit, by omega⟩
      let levels' := Dialect.noteAll (d.enter :: passed) levels
      refine ⟨⟨d.commands, d.enter, d.exit, depth + 1, scope levels'⟩, ?_, ?_⟩
      · change depth + 1 + _ = _
        omega
      · rw [hdepth, List.push_toArray, ← List.reverse_cons]
        rfl

/-- A language with round brackets, a command that ends the run and one of a host. -/
def Dialect.round : Dialect Unit where
  enter := '('
  exit := ')'
  distinct := by decide
  commands := .ofList ([('>', .moveRight), ('+', .increment), ('(', .enterLoop ')'), ('!', .halt), ('#', .host ())] :
    List (Char × Command Unit))
  enter_bound := rfl

instance : Dialect.round.Sole where
  enter_of_loop c x hc := by
    have hlist : Dialect.round.commands.toList =
        [('!', .halt), ('#', .host ()), ('(', .enterLoop ')'), ('+', .increment), ('>', .moveRight)] := rfl
    rw [← Std.TreeMap.mem_toList_iff_getElem?_eq_some, hlist] at hc
    simp only [List.mem_cons, Prod.mk.injEq, reduceCtorEq, and_false, false_or, List.not_mem_nil, or_false] at hc
    exact hc.1

/-- Two loops are being recorded.  The one that is skipped holds another, the end of the run and a command of the host
that always fails. -/
theorem skipped_to_match_inside_two_loops :
    let custom : Unit → Store FixedTape → Outcome (Store FixedTape) := fun _ s => .failed (.io "no host") s
    let commands := Dialect.round.commands
    let outer (text : List Char) : Context Unit := .recording { commands, exit := ')', recorded := text.toArray }
    let inner (text : List Char) : Context Unit :=
      .recording { commands, exit := ')', recorded := text.toArray, parent := some 1 }
    let r (before after : List Char) : Runner FixedTape Unit :=
      ⟨⟨⟨#[1, 0], 1⟩, { items := #[.plain commands, outer before, inner after] }, .ofBytes [], {}⟩, .standard, false⟩
    ∃ r₀, Runner.start (⟨#[0, 0], 0⟩ : FixedTape) {} commands .standard (.ofBytes []) {} = .ok r₀ ∧
      r₀.executeAll (onStore custom) 3 ['+', '(', '(', '>'] = .done (r ['(', '>'] ['>']) ∧
      ['!', '(', '#', ')', '+', ')'] <+: ['!', '(', '#', ')', '+', ')', '+'] ∧
      (r ['(', '>'] ['>']).executeAll (onStore custom) 3 ['(', '!', '(', '#', ')', '+', ')'] =
        .done (r ['(', '>', '(', '!', '(', '#', ')', '+', ')'] ['>', '(', '!', '(', '#', ')', '+', ')']) := by
  intro custom commands outer inner r
  have hstart : ∃ r₀, Runner.start (⟨#[0, 0], 0⟩ : FixedTape) {} commands .standard (.ofBytes []) {} = .ok r₀ :=
    ⟨_, rfl⟩
  obtain ⟨r₀, hstart⟩ := hstart
  have hfed : r₀.executeAll (onStore custom) 3 ['+', '(', '(', '>'] = .done (r ['(', '>'] ['>']) := by
    cases hstart
    cbv
  have hbound : ∀ c ∈ ['!', '(', '#', ')', '+', ')', '+'], c = ')' ∨ ∃ command, commands[c]? = some command := by
    intro c hc
    simp only [List.mem_cons, List.not_mem_nil, or_false] at hc
    rcases hc with rfl | rfl | rfl | rfl | rfl | rfl | rfl
    · exact .inr ⟨.halt, rfl⟩
    · exact .inr ⟨.enterLoop ')', rfl⟩
    · exact .inr ⟨.host (), rfl⟩
    · exact .inl rfl
    · exact .inr ⟨.increment, rfl⟩
    · exact .inl rfl
    · exact .inr ⟨.increment, rfl⟩
  have hpassed : ['!', '(', '#', ')', '+', ')'] <+: ['!', '(', '#', ')', '+', ')', '+'] := ⟨['+'], rfl⟩
  have hfirst : ∀ shorter ∈ ['!', '(', '#', ')', '+', ')'].inits, shorter ≠ ['!', '(', '#', ')', '+', ')'] →
      shorter.count ')' ≤ shorter.count '(' := by
    decide
  have hfuel : (r ['(', '>'] ['>']).depth ≤ 3 := by decide
  obtain ⟨-, stack, hskipped, hstack⟩ :=
    skipped_to_match .round rfl (by simp [custom]) _ .standard _ _ hstart hfed (by rintro skip ⟨⟩)
      (show Tape.read? (⟨#[1, 0], 1⟩ : FixedTape) = some (0, ⟨#[1, 0], 1⟩) from rfl) hbound hpassed
      (fun shorter hshorter => hfirst shorter ((List.mem_inits _ _).2 hshorter)) hfuel
  refine ⟨r₀, hstart, hfed, hpassed, ?_⟩
  rw [if_pos (by decide)] at hstack
  refine (hskipped custom).trans ?_
  rw [hstack]
  simp [r, outer, inner, Context.takeDown, Dialect.round]

end TapeMachine
