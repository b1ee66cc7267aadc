import TapeMachine.Proofs.Chunks
import TapeMachine.Proofs.Safety

/-!
# Characters that are passed over

A character that is no command may be tolerated.  It then leaves no trace, at the root and inside loops, whether they
are recorded, replayed or skipped: a runner of the language ends with a program as it does with the program without
these characters (`tolerated_invisible`).

* `marks` are the characters that are kept, with their places in the program.
* `FeedOutcome.Mirrors` compares the two feeds.  Their runners are the same, and a failure is on the same character.
-/

namespace TapeMachine

/-- Whether a character of a program counts: it is a command, or is not tolerated. -/
def Policy.keeps (policy : Policy) (c : Char) : Bool := isCommandChar c || !policy.tolerates c

/-- The characters of a source that are kept, each with its place in the source. -/
def marks (keep : Char → Bool) (source : List Char) : List (Char × Nat) := source.zipIdx.filter (keep ·.1)

example : marks Policy.standard.keeps [' ', '+', ' ', '!'] = [('+', 1), ('!', 3)] := by decide

section

variable {keep : Char → Bool} {c : Char} {rest : List Char}

private theorem marks_cons (c : Char) (rest : List Char) :
    marks keep (c :: rest) =
      (if keep c then [(c, 0)] else []) ++ (marks keep rest).map (Prod.map id (· + 1)) := by
  rw [marks, List.zipIdx_cons', List.filter_cons, List.filter_map]
  split <;> rfl

theorem getElem?_marks_of_kept (hc : keep c) {i place : Nat} {c' : Char}
    (h : (marks keep rest)[i]? = some (c', place)) :
    (marks keep (c :: rest))[i + 1]? = some (c', place + 1) := by
  rw [marks_cons, if_pos hc, List.singleton_append, List.getElem?_cons_succ, List.getElem?_map, h]
  rfl

theorem getElem?_marks_of_passed (hc : ¬keep c) {i place : Nat} {c' : Char}
    (h : (marks keep rest)[i]? = some (c', place)) : (marks keep (c :: rest))[i]? = some (c', place + 1) := by
  rw [marks_cons, if_neg hc, List.nil_append, List.getElem?_map, h]
  rfl

theorem getElem?_marks_zero (hc : keep c) : (marks keep (c :: rest))[0]? = some (c, 0) := by
  rw [marks_cons, if_pos hc]
  rfl

end

variable {τ κ : Type}

/-- How a feed of `source` ends beside a feed of the characters of `source` that are kept: both have come to the end, or
both have been stopped by the same character. -/
inductive FeedOutcome.Mirrors (keep : Char → Bool) (source : List Char) : FeedOutcome τ κ → FeedOutcome τ κ → Prop where
  | ended (r : Runner τ κ) :
    Mirrors keep source (.ended ⟨source.length, false⟩ r) (.ended ⟨(source.filter keep).length, false⟩ r)
  | halted {place i : Nat} {c : Char} (hc : (marks keep source)[i]? = some (c, place)) (r : Runner τ κ) :
    Mirrors keep source (.ended ⟨place + 1, true⟩ r) (.ended ⟨i + 1, true⟩ r)
  | failed {place i : Nat} {c : Char} (hc : (marks keep source)[i]? = some (c, place)) (fault : Fault)
    (r : Runner τ κ) : Mirrors keep source (.failed ⟨place, c, fault⟩ r) (.failed ⟨i, c, fault⟩ r)
  | aborted (cause : Abort) : Mirrors keep source (.aborted cause) (.aborted cause)

namespace FeedOutcome.Mirrors

variable {keep : Char → Bool} {c : Char} {rest : List Char} {o o' : FeedOutcome τ κ}

theorem aborted_iff (h : Mirrors keep rest o o') (cause : Abort) : o = .aborted cause ↔ o' = .aborted cause := by
  cases h <;> simp

theorem kept (h : Mirrors keep rest o o') (hc : keep c) : Mirrors keep (c :: rest) (o.behind 1) (o'.behind 1) := by
  cases h with
  | ended r =>
    have hended : Mirrors keep (c :: rest) (.ended ⟨(c :: rest).length, false⟩ r) _ := .ended r
    rw [List.filter_cons_of_pos hc, List.length_cons, List.length_cons] at hended
    simpa only [behind, Nat.add_comm 1] using hended
  | halted hmark r =>
    simpa only [behind, Nat.add_comm 1] using Mirrors.halted (getElem?_marks_of_kept hc hmark) r
  | failed hmark fault r =>
    simpa only [behind, Nat.add_comm 1] using Mirrors.failed (getElem?_marks_of_kept hc hmark) fault r
  | aborted cause => exact .aborted cause

theorem passed (h : Mirrors keep rest o o') (hc : ¬keep c) : Mirrors keep (c :: rest) (o.behind 1) o' := by
  cases h with
  | ended r =>
    have hended : Mirrors keep (c :: rest) (.ended ⟨(c :: rest).length, false⟩ r) _ := .ended r
    rw [List.filter_cons_of_neg hc, List.length_cons] at hended
    simpa only [behind, Nat.add_comm 1] using hended
  | halted hmark r =>
    simpa only [behind, Nat.add_comm 1] using Mirrors.halted (getElem?_marks_of_passed hc hmark) r
  | failed hmark fault r =>
    simpa only [behind, Nat.add_comm 1] using Mirrors.failed (getElem?_marks_of_passed hc hmark) fault r
  | aborted cause => exact .aborted cause

end FeedOutcome.Mirrors

variable [Tape τ]

open Machine (noHost noCustom)

section

variable {d : Dialect Empty} [d.Sole] (hexit : d.commands[d.exit]? = none) {policy : Policy} {keep : Char → Bool}
  (hknows : ∀ c, d.Knows c → keep c) (htolerates : ∀ c, ¬keep c → policy.tolerates c)

include hexit hknows htolerates

/-- The induction is on the source.  A character that is not kept is refused by the context on top and passed over by
the policy, so that the runner is the same before and after it. -/
theorem Dialect.feed_mirrors (fuel : Nat) (source : List Char) {nest : Nest} (hs : d.Sound nest) (s : Store τ) :
    FeedOutcome.Mirrors keep source
      (Runner.feed noHost (fuel + 1) source ⟨d.machine nest s, policy, false⟩)
      (Runner.feed noHost (fuel + 1) (source.filter keep) ⟨d.machine nest s, policy, false⟩) := by
  induction source generalizing nest s with
  | nil => exact .ended _
  | cons c rest ih =>
    by_cases hc : keep c
    · rw [List.filter_cons_of_pos hc, Runner.feed_cons, Runner.feed_cons]
      cases hexecute : Runner.execute noHost (fuel + 1) c ⟨d.machine nest s, policy, false⟩ with
      | done r =>
        obtain ⟨nest', s', rfl, hstep | ⟨-, rfl, rfl⟩⟩ := Dialect.execute_done hexit hs hexecute
        · exact (ih (hstep.sound hs) s').kept hc
        · exact (ih hs s').kept hc
      | failed fault r =>
        cases fault with
        | runOver => exact .halted (getElem?_marks_zero hc) r
        | outOfBounds _ | unknownCharacter _ | emptyStack | io _ => exact .failed (getElem?_marks_zero hc) _ r
      | aborted cause => exact .aborted cause
    · have hunknown : d.Unknown nest c := .inl fun h => hc (hknows c h)
      have hexecute : Runner.execute noHost (fuel + 1) c ⟨d.machine nest s, policy, false⟩ =
          .done ⟨d.machine nest s, policy, false⟩ := by
        rw [execute_machine, executeAt_unknown noCustom hunknown, Runner.settle, if_pos (htolerates c hc)]
      rw [List.filter_cons_of_neg hc, Runner.feed_cons, hexecute]
      exact (ih hs s).passed hc

end

/-- A runner of the language that is fed a program ends as it does without the characters that its policy tolerates and
that are no commands. -/
theorem tolerated_invisible (tape : τ) (policy : Policy) (input : Source) (output : Sink) {r₀ : Runner τ Empty}
    (hstart : Runner.start tape {} .standard policy input output = .ok r₀) (source : List Char) :
    ((∃ o, r₀.Yields noHost source o) ↔ ∃ o, r₀.Yields noHost (source.filter policy.keeps) o) ∧
      ∀ o o', r₀.Yields noHost source o → r₀.Yields noHost (source.filter policy.keeps) o' →
        o.Mirrors policy.keeps source o' := by
  obtain rfl := Except.ok.inj ((Runner.start_machine .standard tape policy input output).symm.trans hstart)
  have hroot : (Dialect.standard (κ := Empty)).Sound ⟨[], 0⟩ := trivial
  have hknows : ∀ c, (Dialect.standard (κ := Empty)).Knows c → policy.keeps c := by
    intro c hc
    rw [Policy.keeps, Dialect.knows_standard_iff.1 hc, Bool.true_or]
  have htolerates : ∀ c, ¬policy.keeps c → policy.tolerates c := by
    intro c hc
    by_contra hrefuses
    simp [Policy.keeps, hrefuses] at hc
  have hmirrors (fuel : Nat) :=
    Dialect.feed_mirrors rfl hknows htolerates fuel source hroot (⟨tape, input, output⟩ : Store τ)
  refine ⟨⟨?_, ?_⟩, ?_⟩
  · rintro ⟨o, ho⟩
    obtain ⟨enough, hfeed⟩ := ho.eventually
    have hsame := hmirrors enough
    rw [hfeed (enough + 1) (Nat.le_succ enough)] at hsame
    exact ⟨_, fun hout => ho.1 ((hsame.aborted_iff _).2 hout), enough + 1, rfl⟩
  · rintro ⟨o', ho'⟩
    obtain ⟨enough, hfeed⟩ := ho'.eventually
    have hsame := hmirrors enough
    rw [hfeed (enough + 1) (Nat.le_succ enough)] at hsame
    exact ⟨_, fun hout => ho'.1 ((hsame.aborted_iff _).1 hout), enough + 1, rfl⟩
  · intro o o' ho ho'
    obtain ⟨enough, hfeed⟩ := ho.eventually
    obtain ⟨enough', hfeed'⟩ := ho'.eventually
    have hsame := hmirrors (max enough enough')
    rwa [hfeed (max enough enough' + 1) (by omega), hfeed' (max enough enough' + 1) (by omega)] at hsame

/-- The sink refuses the second byte, in the replay of a loop with two blanks.  Both feeds fail on the bracket that
closes the loop. -/
theorem tolerated_invisible_in_failed_replay :
    let source := ['+', ' ', '[', '.', ' ', ']', '+']
    let r₀ : Runner FixedTape Empty :=
      ⟨Dialect.standard.machine ⟨[], 0⟩ ⟨⟨#[0], 0⟩, .ofBytes [], .closingAfter 1⟩, .standard, false⟩
    ∃ r₁, r₀.feed noHost 9 source = .failed ⟨5, ']', .io "sink closed"⟩ r₁ ∧
      r₀.Yields noHost (source.filter Policy.standard.keeps) (.failed ⟨3, ']', .io "sink closed"⟩ r₁) := by
  intro source r₀
  have hstart : Runner.start (⟨#[0], 0⟩ : FixedTape) {} .standard .standard (.ofBytes []) (.closingAfter 1) = .ok r₀ :=
    rfl
  have hfeed : ∃ r₁, r₀.feed noHost 9 source = .failed ⟨5, ']', .io "sink closed"⟩ r₁ := ⟨_, by cbv⟩
  obtain ⟨r₁, hfeed⟩ := hfeed
  obtain ⟨hreturns, hmirrors⟩ := tolerated_invisible _ .standard _ _ hstart source
  have hyields : r₀.Yields noHost source (.failed ⟨5, ']', .io "sink closed"⟩ r₁) := ⟨by simp, 9, hfeed⟩
  obtain ⟨o', ho'⟩ := hreturns.1 ⟨_, hyields⟩
  have hsame := hmirrors _ _ hyields ho'
  refine ⟨r₁, hfeed, ?_⟩
  cases hsame with
  | @failed _ i _ hc =>
    -- the bracket stands at place 5 of the source, and is the fourth character that is kept
    have hmarks : marks Policy.standard.keeps source = [('+', 0), ('[', 2), ('.', 3), (']', 5), ('+', 6)] := by decide
    rw [hmarks] at hc
    obtain rfl : i = 3 := by
      rcases i with _ | _ | _ | _ | _ | i <;> simp at hc ⊢
    exact ho'

end TapeMachine
