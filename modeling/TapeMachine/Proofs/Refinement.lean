import TapeMachine.Feed.Fuel
import TapeMachine.Proofs.Reference
import TapeMachine.Proofs.Safety

/-!
# Feeding a program runs it

A runner of the language that is fed a program ends if and only if the program does in the reference semantics, and
then in the same way (`feed_evaluates`).  The program may hold other characters, as long as the policy of the runner
tolerates them.
-/

namespace TapeMachine

variable {τ κ : Type} [Tape τ]

open Machine (noHost noCustom onStore executeAt replayPass Ends)

/-- How a feed reports the end of a run that would be at `finish` after the last character. -/
inductive FeedOutcome.Reports (policy : Policy) (finish : Nat) :
    Outcome (Machine τ κ) → FeedOutcome τ κ → Prop where
  | done (m : Machine τ κ) : Reports policy finish (.done m) (.ended ⟨finish, false⟩ ⟨m, policy, false⟩)
  | halted (position : Nat) (m : Machine τ κ) :
    Reports policy finish (.failed .runOver m) (.ended ⟨position + 1, true⟩ ⟨m, policy, true⟩)
  | failed (position : Nat) (c : Char) {fault : Fault} (hfault : fault ≠ .runOver) (m : Machine τ κ) :
    Reports policy finish (.failed fault m) (.failed ⟨position, c, fault⟩ ⟨m, policy, false⟩)
  | aborted (cause : Abort) : Reports policy finish (.aborted cause) (.aborted cause)

omit [Tape τ] in
theorem FeedOutcome.Reports.outOfFuel_iff {policy : Policy} {finish : Nat} {o : Outcome (Machine τ κ)}
    {report : FeedOutcome τ κ} (h : Reports policy finish o report) :
    o = .aborted .outOfFuel ↔ report = .aborted .outOfFuel := by
  cases h <;> simp

/-- A feed of characters that are all known reports how they end. -/
theorem FeedOutcome.reports_feedFrom {host : κ → Machine τ κ → Outcome (Machine τ κ)} {policy : Policy} {fuel : Nat}
    {source : List Char} (position : Nat) (m : Machine τ κ)
    (hknown : ∀ c m', replayPass (executeAt host fuel) source m ≠ .failed (.unknownCharacter c) m') :
    Reports policy (position + source.length) (replayPass (executeAt host fuel) source m)
      (Runner.feedFrom host fuel position source ⟨m, policy, false⟩) := by
  induction source generalizing position m with
  | nil => exact .done m
  | cons c rest ih =>
    have hfinish : position + (c :: rest).length = position + 1 + rest.length := by
      rw [List.length_cons]
      omega
    rw [hfinish]
    simp only [replayPass, Runner.feedFrom, Runner.execute] at hknown ⊢
    cases htop : m.stack.topIndex? with
    | none => exact .failed position c (by simp) m
    | some top =>
      simp only [htop] at hknown ⊢
      generalize executeAt host fuel top c m = outcome at hknown ⊢
      cases outcome with
      | done m' => exact ih (position + 1) m' hknown
      | failed fault m' =>
        cases fault with
        | unknownCharacter c' => exact absurd rfl (hknown c' m')
        | runOver => exact .halted position m'
        | outOfBounds _ | emptyStack | io _ => exact .failed position c (by simp) m'
      | aborted cause => exact .aborted cause

section

variable {d : Dialect Empty} [d.Sole] (hexit : d.commands[d.exit]? = none) {known : Char → Bool}
  (hknown : ∀ c, d.Knows c ↔ known c) {policy : Policy} (fuel : Nat)

include hexit hknown

/-- A feed reports how the known characters end, if they do not close more loops than they open. -/
theorem Dialect.reports_feedFrom {source : List Char} (htolerated : ∀ c ∈ source, known c ∨ policy.tolerates c)
    {nest : Nest} (hs : d.Sound nest) (position : Nat) (s : Store τ)
    (hclosed : ∀ c m, replayPass (executeAt (onStore noCustom) (fuel + 1)) (source.filter known) (d.machine nest s) ≠
      .failed (.unknownCharacter c) m) :
    FeedOutcome.Reports policy (position + source.length)
      (replayPass (executeAt (onStore noCustom) (fuel + 1)) (source.filter known) (d.machine nest s))
      (Runner.feedFrom noHost (fuel + 1) position source ⟨d.machine nest s, policy, false⟩) := by
  induction source generalizing nest position s with
  | nil => exact .done _
  | cons c rest ih =>
    have hrest : ∀ c ∈ rest, known c ∨ policy.tolerates c := fun c hc => htolerated c (List.mem_cons_of_mem _ hc)
    have hfinish : position + (c :: rest).length = position + 1 + rest.length := by
      rw [List.length_cons]
      omega
    rw [hfinish, Runner.feedFrom, execute_machine]
    by_cases hc : known c
    · rw [List.filter_cons_of_pos hc, replayPass_machine] at hclosed ⊢
      have hleads : d.Leads noCustom nest c s _ := executeAt_leads hexit (fuel + 1) c s hs
      generalize executeAt _ (fuel + 1) (topIndex nest) c (d.machine nest s) = outcome at hleads hclosed ⊢
      cases hleads with
      | @done nest' hstep s' => exact ih hrest (hstep.sound hs) (position + 1) s' hclosed
      | @failed fault nest' hfall s' =>
        have hown := hfall.isOwn
        cases fault with
        | unknownCharacter _ | emptyStack => cases hown
        | outOfBounds _ | io _ => exact .failed position c (by simp) _
        | runOver => exact .halted position _
      | unknown hunknown =>
        -- a known character that means nothing is a bracket that closes nothing
        exact absurd rfl (hclosed c _)
      | aborted cause => exact .aborted cause
    · rw [List.filter_cons_of_neg hc] at hclosed ⊢
      have hunknown : d.Unknown nest c := .inl fun h => hc ((hknown c).1 h)
      have htolerates := (htolerated c List.mem_cons_self).resolve_left hc
      rw [executeAt_unknown noCustom hunknown, Runner.settle, if_pos htolerates]
      exact ih hrest hs (position + 1) s hclosed

end

namespace Reference

/-- The source and the sink never fail, and a run that fails has left the row. -/
inductive Untroubled : Result State → Prop where
  | ok {s : State} (hinput : s.input.refusal? = fun _ => none) (hspells : s.output.spells = [])
    (hlasting : s.output.lasting = .accept) : Untroubled (.ok s)
  | outOfBounds (cause : OutOfBounds) (s : State) : Untroubled (.error (.outOfBounds cause, s))

/-- The characters of the language that are not brackets. -/
def IsPlainCommand (c : Char) : Prop := isCommandChar c ∧ c ≠ '[' ∧ c ≠ ']'

variable {s : State}

private theorem untroubled_setCell (hs : Untroubled (.ok s)) (value : Cell) : Untroubled (.ok (s.setCell value)) := by
  cases hs with
  | ok hinput hspells hlasting => exact .ok hinput hspells hlasting

private theorem untroubled_moveTo (hs : Untroubled (.ok s)) (position : Int) : Untroubled (s.moveTo position) := by
  unfold State.moveTo
  split
  · cases hs with
    | ok hinput hspells hlasting => exact .ok hinput hspells hlasting
  · exact .outOfBounds _ s

private theorem untroubled_write (hs : Untroubled (.ok s)) (byte : UInt8) : Untroubled (s.write byte) := by
  cases hs with
  | ok hinput hspells hlasting =>
    have hwrite : s.output.write byte =
        (.ok (), { s.output with written := s.output.written.push byte, spells := [] }) := by
      simp only [Sink.write, hspells, hlasting, Sink.verdict]
    unfold State.write
    rw [hwrite]
    exact .ok hinput rfl hlasting

private theorem untroubled_read (hs : Untroubled (.ok s)) : Untroubled s.read := by
  cases hs with
  | ok hinput hspells hlasting =>
    unfold State.read Source.read
    simp only [hinput]
    cases s.input.bytes with
    | nil => exact .ok rfl hspells hlasting
    | cons byte rest =>
      have hread : Untroubled (.ok { s with input := ⟨rest, s.input.reads + 1, fun _ => none⟩ }) :=
        .ok rfl hspells hlasting
      exact untroubled_setCell hread byte.toUInt16

private theorem untroubled_obey {c : Char} (hc : IsPlainCommand c) (hs : Untroubled (.ok s)) :
    Untroubled (s.obey c) := by
  unfold State.obey
  split
  · exact untroubled_moveTo hs _
  · exact untroubled_moveTo hs _
  · exact untroubled_setCell hs _
  · exact untroubled_setCell hs _
  · exact untroubled_write hs _
  · exact untroubled_read hs
  · next hright hleft hplus hminus hdot hcomma =>
    obtain ⟨hcommand, hn, hx⟩ := hc
    have hmem : c ∈ commandChars := List.contains_iff_mem.1 hcommand
    simp only [commandChars, List.mem_cons, List.not_mem_nil, or_false] at hmem
    tauto

/-- A machine of the language that starts in a state. -/
def State.machine (s : State) : Machine FixedTape Empty := Dialect.standard.machine ⟨[], 0⟩ s.store

private theorem acts_of_isPlainCommand {c : Char} (hc : IsPlainCommand c) :
    (Dialect.standard : Dialect Empty).Acts c := by
  obtain ⟨hcommand, hn, hx⟩ := hc
  exact Dialect.acts_of_knows (Dialect.knows_standard_iff.2 hcommand) hn hx

section

variable {source : List Char} {p : Program} (hp : Program.parse? .square (source.filter isCommandChar) = some p)

include hp

private theorem forall_isPlainCommand : p.Forall IsPlainCommand := by
  refine Program.forall_of_parse hp fun c hc hn hx => ⟨?_, hn, hx⟩
  exact (List.mem_filter.1 hc).2

private theorem tracks_source (s : State) :
    (Dialect.standard : Dialect Empty).Tracks (.ofStore State.store) [] (semantics.Evaluates p s)
      (Ends (onStore noCustom) (source.filter isCommandChar) s.machine) := by
  have hacts := (forall_isPlainCommand hp).mono fun _ => acts_of_isPlainCommand
  have htracks := Dialect.tracks_text (implements_semantics CommandMap.addsHalts_standard) hacts [] s
  rw [Dialect.noteAll_nil] at htracks
  rw [← Program.text_of_parse hp]
  exact htracks

variable {s : State} (hs : Untroubled (.ok s))

include hs

private theorem untroubled_of_evaluates {r : Result State} (hr : semantics.Evaluates p s r) : Untroubled r :=
  hr.preserves Untroubled (fun _ _ => untroubled_obey) (forall_isPlainCommand hp) hs

/-- The feed of a program reports the outcome of its characters. -/
private theorem reports_feed {policy : Policy} (htolerated : ∀ c ∈ source, isCommandChar c ∨ policy.tolerates c)
    (fuel : Nat) :
    FeedOutcome.Reports policy source.length
      (replayPass (executeAt (onStore noCustom) (fuel + 1)) (source.filter isCommandChar)
        s.machine)
      (Runner.feed noHost (fuel + 1) source ⟨s.machine, policy, false⟩) := by
  have hroot : (Dialect.standard (κ := Empty)).Sound ⟨[], 0⟩ := trivial
  have hreports :=
    Dialect.reports_feedFrom rfl (fun _ => Dialect.knows_standard_iff) fuel htolerated hroot 0 s.store ?_
  · rw [Nat.zero_add] at hreports
    exact hreports
  · intro c m hunknown
    obtain ⟨r, hr, hover⟩ := (tracks_source hp s).result ⟨by simp, fuel + 1, hunknown⟩
    have huntroubled := untroubled_of_evaluates hp hs hr
    cases hover with
    | stopped hshows =>
      obtain ⟨_, hfailed, -⟩ := View.shows_ofStore_iff.1 hshows
      cases huntroubled
      cases hfailed

end

end Reference

end TapeMachine
