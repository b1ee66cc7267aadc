import TapeMachine.Proofs.Safety

/-!
# Recordings are verbatim

While no call fails, the contexts of a runner of the language can be read off the text that it was given
(`recordings_verbatim`).  There is a context for each bracket still open, except that the innermost ones may share a
skip context, and each recording holds the characters of the language given after its bracket: those that were
executed, those that were skipped, and those of inner loops that have been replayed since.
-/

namespace TapeMachine

variable {τ κ : Type} [Tape τ]

/-- Give the characters to the runner one after the other, until one of the calls fails. -/
def Runner.executeAll (host : κ → Machine τ κ → Outcome (Machine τ κ)) (fuel : Nat) :
    List Char → Runner τ κ → Outcome (Runner τ κ)
  | [], r => .done r
  | c :: rest, r => (r.execute host fuel c).andThen (executeAll host fuel rest)

open Dialect (inside Step)

theorem Dialect.Step.knows {d : Dialect κ} {nest nest' : Nest} {c : Char} (h : d.Step nest c nest') : d.Knows c := by
  cases h with
  | act hc => exact knows_of_acts hc
  | skip | enter => exact d.knows_enter
  | pass hc => exact knows_iff.2 (.inr (.inr (.inr hc)))
  | unskip | exit => exact d.knows_exit

/-- The nest that a text leaves behind: a loop for each bracket still open, the innermost of them being skipped.  The
characters that are not `known` do not count. -/
def Dialect.LeftBy (d : Dialect κ) (known : Char → Bool) (text : List Char) (nest : Nest) : Prop :=
  ∃ skipped, skipped ≤ (d.openTails (text.filter known)).length ∧
    nest = inside [] (d.openTails (text.filter known)) skipped

section

variable {d : Dialect Empty} [d.Sole] (hexit : d.commands[d.exit]? = none) {known : Char → Bool}
  (hknown : ∀ c, d.Knows c ↔ known c) {policy : Policy} {fuel : Nat}
  {nest : Nest} {s : Store τ} {r : Runner τ Empty}

include hexit hknown

/-- A call that succeeds leaves the nest that the text leaves with one more character. -/
theorem Dialect.LeftBy.execute {text : List Char} {c : Char} (hnest : d.LeftBy known text nest) (hsound : d.Sound nest)
    (h : Runner.execute Machine.noHost fuel c ⟨d.machine nest s, policy, false⟩ = .done r) :
    ∃ nest' s', r = ⟨d.machine nest' s', policy, false⟩ ∧ d.Sound nest' ∧ d.LeftBy known (text ++ [c]) nest' := by
  obtain ⟨nest', s', rfl, hstep | ⟨hunknown, rfl, rfl⟩⟩ := Dialect.execute_done hexit hsound h
  · refine ⟨nest', s', rfl, hstep.sound hsound, ?_⟩
    obtain ⟨skipped, hskipped, rfl⟩ := hnest
    rw [LeftBy, List.filter_append, List.filter_cons_of_pos ((hknown c).1 hstep.knows), List.filter_nil]
    exact hstep.inside hskipped fun _ => .inl rfl
  · refine ⟨nest', s', rfl, hsound, ?_⟩
    by_cases hc : known c
    · -- a bracket that closes nothing is passed over, and closes nothing in the text either
      obtain ⟨rfl, -, hlevels, hzero⟩ := hunknown.resolve_left fun h => h ((hknown c).2 hc)
      obtain ⟨skipped, hskipped, rfl⟩ := hnest
      obtain rfl : skipped = 0 := hzero
      have htails : d.openTails (text.filter known) = [] := by simpa [inside] using hlevels
      rw [LeftBy, List.filter_append, List.filter_cons_of_pos hc, List.filter_nil, Brackets.openTails_exit, htails]
      exact ⟨0, Nat.le_refl _, rfl⟩
    · rwa [LeftBy, List.filter_append, List.filter_cons_of_neg hc, List.filter_nil, List.append_nil]

theorem Dialect.LeftBy.executeAll {text rest : List Char} (hnest : d.LeftBy known text nest) (hsound : d.Sound nest)
    (h : Runner.executeAll Machine.noHost fuel rest ⟨d.machine nest s, policy, false⟩ = .done r) :
    ∃ nest' s', r = ⟨d.machine nest' s', policy, false⟩ ∧ d.LeftBy known (text ++ rest) nest' := by
  induction rest generalizing text nest s with
  | nil =>
    cases h
    rw [List.append_nil]
    exact ⟨nest, s, rfl, hnest⟩
  | cons c rest ih =>
    obtain ⟨r', hc, hrest⟩ := Outcome.andThen_eq_done_iff.1 h
    obtain ⟨nest', s', rfl, hsound', hnest'⟩ := hnest.execute hexit hknown hsound hc
    rw [List.append_cons]
    exact ih hnest' hsound' hrest

end

/-- The levels inside which a text ends, from the outside: the `i`-th holds the text after the `i`-th open bracket. -/
private theorem getElem?_reverse_levels {tails : List (List Char)} {skipped i : Nat}
    (hi : i < tails.length - skipped) :
    ∃ tail, tails.reverse[i]? = some tail ∧ (inside [] tails skipped).levels.reverse[i]? = some ⟨tail, true⟩ := by
  have hlt : i < tails.reverse.length := by rw [List.length_reverse]; omega
  refine ⟨tails.reverse[i], List.getElem?_eq_getElem hlt, ?_⟩
  rw [inside, List.append_nil, ← List.map_reverse, List.reverse_drop, List.getElem?_map, List.getElem?_take_of_lt hi,
    List.getElem?_eq_getElem hlt]
  rfl

/-- The stack is that of a text: a plain context, an open recording for each of the outermost brackets still open and a
skip context for the others, if there are any.  Each recording holds what the text has after its bracket. -/
def ContextStack.Transcribes (stack : ContextStack κ) (text : List Char) : Prop :=
  ∃ entered skipped, entered + skipped = Brackets.square.bracketDepth text ∧
    stack.size = 1 + entered + (if skipped = 0 then 0 else 1) ∧
    stack.get? 0 = some (.plain .standard) ∧
    (∀ i < entered, ∃ recording tail, stack.get? (i + 1) = some (.recording recording) ∧ recording.isOpen ∧
      (Brackets.square.openTails text).reverse[i]? = some tail ∧
      recording.recorded.toList = tail.filter isCommandChar) ∧
    (skipped ≠ 0 → ∃ skip, stack.get? (entered + 1) = some (.skip skip) ∧ skip.depth = skipped)

/-- While no call fails, the stack of a runner of the language is that of the text it was given. -/
theorem recordings_verbatim (tape : τ) (policy : Policy) (input : Source) (output : Sink) {r₀ r : Runner τ Empty}
    (hstart : Runner.start tape {} .standard policy input output = .ok r₀) {fuel : Nat} {text : List Char}
    (hfed : r₀.executeAll Machine.noHost fuel text = .done r) : r.machine.stack.Transcribes text := by
  obtain rfl := Except.ok.inj ((Runner.start_machine .standard tape policy input output).symm.trans hstart)
  have hroot : (Dialect.standard (κ := Empty)).LeftBy isCommandChar [] ⟨[], 0⟩ := ⟨0, Nat.le_refl _, rfl⟩
  obtain ⟨nest, s, rfl, skipped, hskipped, rfl⟩ :=
    hroot.executeAll rfl (fun _ => Dialect.knows_standard_iff) trivial hfed
  rw [List.nil_append] at hskipped ⊢
  have htails : (Dialect.standard (κ := Empty)).openTails (text.filter isCommandChar) =
      (Brackets.square.openTails text).map (·.filter isCommandChar) :=
    Brackets.openTails_filter (b := .square) (by decide) (by decide) text
  rw [htails, List.length_map] at hskipped
  rw [htails]
  have hlevels : (inside [] ((Brackets.square.openTails text).map (·.filter isCommandChar)) skipped).levels.length =
      (Brackets.square.openTails text).length - skipped := by
    simp [inside]
  refine ⟨(Brackets.square.openTails text).length - skipped, skipped, ?_, ?_, Dialect.get?_machine_root _ _ _, ?_, ?_⟩
  · rw [← Brackets.length_openTails]
    omega
  · rw [Dialect.size_machine, hlevels]
    rfl
  · intro i hi
    obtain ⟨level, around, -, hlevel, hcontext⟩ := Dialect.get?_machine_level _ _ s (hlevels ▸ hi)
    rw [← List.length_map (·.filter isCommandChar)] at hi
    obtain ⟨tail, htail, hlevel'⟩ := getElem?_reverse_levels hi
    rw [hlevel', Option.some.injEq] at hlevel
    subst hlevel
    rw [← List.map_reverse, List.getElem?_map] at htail
    obtain ⟨given, hgiven, rfl⟩ := Option.map_eq_some_iff.1 htail
    exact ⟨_, given, hcontext, rfl, hgiven, rfl⟩
  · intro hpos
    rw [← hlevels]
    exact ⟨_, Dialect.get?_machine_skipped _ s hpos, rfl⟩

/-- An inner loop is entered and replayed, a second one is skipped with a third inside it, and a blank is passed
over. -/
theorem recordings_verbatim_of_nested_loops :
    let r₀ : Runner FixedTape Empty :=
      ⟨Dialect.standard.machine ⟨[], 0⟩ ⟨⟨#[0], 0⟩, .ofBytes [], {}⟩, .standard, false⟩
    let r : Runner FixedTape Empty :=
      ⟨Dialect.standard.machine ⟨[⟨['+', '[', '-', ']', '[', '['], true⟩], 2⟩ ⟨⟨#[0], 0⟩, .ofBytes [], {}⟩, .standard,
        false⟩
    let text := ['+', '[', ' ', '+', '[', '-', ']', '[', '[']
    Runner.start (⟨#[0], 0⟩ : FixedTape) {} .standard .standard (.ofBytes []) {} = .ok r₀ ∧
      r₀.executeAll Machine.noHost 9 text = .done r ∧ r.machine.stack.Transcribes text := by
  intro r₀ r text
  have hstart : Runner.start (⟨#[0], 0⟩ : FixedTape) {} .standard .standard (.ofBytes []) {} = .ok r₀ := rfl
  have hfed : r₀.executeAll Machine.noHost 9 text = .done r := rfl
  exact ⟨hstart, hfed, recordings_verbatim _ _ _ _ hstart hfed⟩

end TapeMachine
