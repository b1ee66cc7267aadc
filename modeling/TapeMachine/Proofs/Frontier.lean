import TapeMachine.Feed
import TapeMachine.Proofs.Jump
import TapeMachine.Proofs.Reference
import TapeMachine.Proofs.Safety

/-!
# Where a feed stops

A runner does not know where in the program it is: a command that fails may be run from memory, long after it was fed.
The feed reports the character that it was about to finish, and that is the furthest one that a run with jumps has seen
(`feed_announces`).
-/

namespace TapeMachine

variable {τ κ : Type} [Tape τ]

namespace Machine

variable {host : κ → Machine τ κ → Outcome (Machine τ κ)}

/-- A machine that is given a text fails on the character behind `passed` others, and leaves the store `s` behind. -/
def FailsOn (host : κ → Machine τ κ → Outcome (Machine τ κ)) (text : List Char) (m : Machine τ κ) (passed : Nat)
    (fault : Fault) (s : Store τ) : Prop :=
  ∃ before c after m₁ m₂, text = before ++ c :: after ∧ before.length = passed ∧ Ends host before m (.done m₁) ∧
    Ends host [c] m₁ (.failed fault m₂) ∧ m₂.store = s

variable {text rest : List Char} {m m' : Machine τ κ} {passed : Nat} {fault : Fault} {s : Store τ}

theorem failsOn_single {c : Char} (h : Ends host [c] m (.failed fault m')) (hstore : m'.store = s) :
    FailsOn host [c] m 0 fault s :=
  ⟨[], c, [], m, m', rfl, rfl, ends_nil.2 rfl, h, hstore⟩

theorem FailsOn.append (h : FailsOn host text m passed fault s) (rest : List Char) :
    FailsOn host (text ++ rest) m passed fault s := by
  obtain ⟨before, c, after, m₁, m₂, rfl, hpassed, hbefore, hc, hstore⟩ := h
  refine ⟨before, c, after ++ rest, m₁, m₂, ?_, hpassed, hbefore, hc, hstore⟩
  rw [List.append_assoc, List.cons_append]

theorem FailsOn.prepend (htext : Ends host text m (.done m')) (h : FailsOn host rest m' passed fault s) :
    FailsOn host (text ++ rest) m (text.length + passed) fault s := by
  obtain ⟨before, c, after, m₁, m₂, rfl, rfl, hbefore, hc, hstore⟩ := h
  refine ⟨text ++ before, c, after, m₁, m₂, ?_, List.length_append, htext.append_iff.2 hbefore, hc, hstore⟩
  rw [List.append_assoc]

end Machine

open Machine (noHost noCustom onStore executeAt replayPass Ends FailsOn)

/-- A machine that is given the text of a program fails where the program stops. -/
theorem Dialect.failsOn_text {d : Dialect κ} {custom : κ → Store τ → Outcome (Store τ)} {σ : Type}
    {sem : Semantics σ (Fault × σ)} {store : σ → Store τ} (himpl : d.Implements custom sem (.ofStore store))
    {p : Program} (hacts : p.Forall d.Acts) {s : σ} {passed : Nat} {e : Fault × σ}
    (h : sem.StopsAt d.toBrackets p s passed e) (levels : List Level) :
    FailsOn (onStore custom) (p.text d.toBrackets) (d.machine ⟨levels, 0⟩ (store s)) passed e.1 (store e.2) := by
  induction h generalizing levels with
  | @act_error c rest s e hact =>
    obtain ⟨m, hm, hstore⟩ := (tracks_act himpl hacts.1 levels s).failed hact.symm
    exact (Machine.failsOn_single hm hstore).append (rest.text d.toBrackets)
  | @act c rest s s' passed e hact _ ih =>
    have hc := (tracks_act himpl hacts.1 levels s).done hact.symm
    have hrest := (ih hacts.2 (note c levels)).prepend hc
    rw [List.length_singleton, Nat.add_comm] at hrest
    exact hrest
  | @body body rest s passed e hcell _ ih =>
    have henter := ends_enter himpl levels s
    rw [if_neg hcell] at henter
    have hbody := (ih hacts.1 (⟨[], true⟩ :: note d.enter levels)).prepend henter
    rw [List.length_singleton, Nat.add_comm] at hbody
    have hloop := hbody.append (d.exit :: rest.text d.toBrackets)
    rw [List.append_assoc] at hloop
    exact hloop
  | @replay body rest s s' e hcell hbody hloop =>
    -- whichever pass fails and however deep inside the body, the machine is still at the closing bracket
    have henter := ends_enter himpl levels s
    rw [if_neg hcell] at henter
    have hfirst := (tracks_text himpl hacts.1 (⟨[], true⟩ :: note d.enter levels) s).done hbody
    rw [noteAll_open, List.nil_append] at hfirst
    obtain ⟨m, hm, hstore⟩ := (tracks_exit himpl (tracks_text himpl hacts.1) _ s').failed hloop
    have hexit := ((Machine.failsOn_single hm hstore).append (rest.text d.toBrackets)).prepend hfirst
    have hall := hexit.prepend henter
    rw [List.length_singleton, Nat.add_zero, Nat.add_comm] at hall
    exact hall
  | @rest body rest s s' passed e hloop _ ih =>
    have hends := (tracks_loop himpl hacts.1 (tracks_text himpl hacts.1) levels s).done hloop
    have hrest := (ih hacts.2 _).prepend hends
    have htext : d.enter :: (body.text d.toBrackets ++ [d.exit]) ++ rest.text d.toBrackets =
        (Program.loop body rest).text d.toBrackets := by
      simp [Program.text]
    have hlength : (d.enter :: (body.text d.toBrackets ++ [d.exit])).length = (body.text d.toBrackets).length + 2 := by
      simp
    rw [htext, hlength] at hrest
    exact hrest

namespace Runner

variable {host : κ → Machine τ κ → Outcome (Machine τ κ)} {policy : Policy} {fuel : Nat}

/-- A feed goes on behind the characters that were carried out. -/
theorem feedFrom_append {text : List Char} {m m' : Machine τ κ} (h : replayPass (executeAt host fuel) text m = .done m')
    (position : Nat) (rest : List Char) :
    feedFrom host fuel position (text ++ rest) ⟨m, policy, false⟩ =
      feedFrom host fuel (position + text.length) rest ⟨m', policy, false⟩ := by
  induction text generalizing m position with
  | nil =>
    cases h
    rfl
  | cons c text ih =>
    unfold replayPass at h
    split at h
    · cases h
    · next top htop =>
      obtain ⟨m₁, hc, htext⟩ := Outcome.andThen_eq_done_iff.1 h
      have hlength : position + (c :: text).length = position + 1 + text.length := by
        rw [List.length_cons]
        omega
      rw [List.cons_append, feedFrom, hlength, ← ih htext (position + 1)]
      simp only [execute, htop, hc, settle]

theorem feed_of_ends {text : List Char} {m m' : Machine τ κ} (h : Ends host text m (.done m')) :
    ∃ fuel, feed host fuel text ⟨m, policy, false⟩ = .ended ⟨text.length, false⟩ ⟨m', policy, false⟩ := by
  obtain ⟨-, fuel, h⟩ := h
  refine ⟨fuel, ?_⟩
  have hfeed : feedFrom host fuel 0 (text ++ []) ⟨m, policy, false⟩ = _ := feedFrom_append h 0 []
  rw [List.append_nil, Nat.zero_add] at hfeed
  exact hfeed

private theorem execute_of_replayPass {c : Char} {m m' : Machine τ κ} {fault : Fault} (hown : fault.IsOwn)
    (h : replayPass (executeAt host fuel) [c] m = .failed fault m') :
    execute host fuel c ⟨m, policy, false⟩ = settle policy (.failed fault m') := by
  unfold replayPass at h
  split at h
  · cases h
    cases hown
  · next top htop =>
    have hexecute : executeAt host fuel top c m = .failed fault m' := (Outcome.andThen_done _).symm.trans h
    simp only [execute, htop, hexecute]

theorem feed_of_failsOn {text : List Char} {m : Machine τ κ} {passed : Nat} {fault : Fault} {s : Store τ}
    (h : FailsOn host text m passed fault s) (hown : fault.IsOwn) :
    ∃ fuel c m', text[passed]? = some c ∧ m'.store = s ∧
      feed host fuel text ⟨m, policy, false⟩ =
        if fault = .runOver then .ended ⟨passed + 1, true⟩ ⟨m', policy, true⟩
        else .failed ⟨passed, c, fault⟩ ⟨m', policy, false⟩ := by
  obtain ⟨before, c, after, m₁, m₂, rfl, rfl, ⟨-, fuel₁, hbefore⟩, ⟨-, fuel₂, hc⟩, hstore⟩ := h
  refine ⟨max fuel₁ fuel₂, c, m₂, ?_, hstore, ?_⟩
  · rw [List.getElem?_append_right (Nat.le_refl _), Nat.sub_self]
    rfl
  have hbefore' := (Machine.grows_replayPass before m (Nat.le_max_left fuel₁ fuel₂) (by simp [hbefore])).trans hbefore
  have hc' := (Machine.grows_replayPass [c] m₁ (Nat.le_max_right fuel₁ fuel₂) (by simp [hc])).trans hc
  rw [feed, feedFrom_append hbefore', Nat.zero_add, feedFrom, execute_of_replayPass hown hc']
  cases fault with
  | unknownCharacter _ | emptyStack => cases hown
  | outOfBounds _ | io _ | runOver => rfl

end Runner

namespace Reference

/-- How a feed of `source` announces the end of a run with jumps that stops at `final`. -/
inductive Announces (source : List Char) (final : Jump.Config State) :
    Result State → FeedOutcome FixedTape Empty → Prop where
  | ended {s : State} {r : Runner FixedTape Empty} (hstore : r.machine.store = s.store) :
    Announces source final (.ok s) (.ended ⟨source.length, false⟩ r)
  | halted {s : State} {r : Runner FixedTape Empty} (hstore : r.machine.store = s.store) (hfinished : r.isFinished) :
    Announces source final (.error (.runOver, s)) (.ended ⟨final.furthest + 1, true⟩ r)
  | failed {c : Char} {fault : Fault} {s : State} {r : Runner FixedTape Empty} (hfault : fault ≠ .runOver)
    (hc : source[final.furthest]? = some c) (hstore : r.machine.store = s.store) :
    Announces source final (.error (fault, s)) (.failed ⟨final.furthest, c, fault⟩ r)

private theorem isOwn_of_evaluates {commands : CommandMap Empty} (h : commands.AddsHalts) {p : Program}
    (hacts : p.Forall (Dialect.withHalts commands h).Acts) {s : State} {e : Fault × State}
    (heval : semantics.Evaluates p s (.error e)) : e.1.IsOwn := by
  refine heval.preserves (fun r => ∀ e, r = .error e → e.1.IsOwn) ?_ hacts nofun e rfl
  intro c s hc _ e herror
  have hact := (implements_semantics h).act hc s
  rw [show semantics.act c s = _ from herror] at hact
  exact Dialect.isOwn_of_act hc hact

/-- A feed stops at the furthest character that a run with jumps has seen, and reports it. -/
theorem feed_announces {commands : CommandMap Empty} (hcommands : commands.AddsHalts) (tape : FixedTape)
    (htape : tape.head < tape.cells.size) (hsize : tape.cells.size < 0x8000000000000000) (policy : Policy)
    (input : Source) (output : Sink) {r₀ : Runner FixedTape Empty}
    (hstart : Runner.start tape {} commands policy input output = .ok r₀)
    {source : List Char} (hsource : ∀ c ∈ source, c = ']' ∨ ∃ command, commands[c]? = some command)
    (hbalanced : Brackets.square.Balanced source) {n : Nat} {final : Jump.Config State} {r : Result State}
    (hpath : Jump.Path semantics .square source n ⟨0, 0, ⟨tape.cells, ⟨tape.head, htape⟩, input, output, hsize⟩⟩ final)
    (hstops : Jump.Stops semantics .square source final r) :
    ∃ fuel, Announces source final r (r₀.feed noHost fuel source) := by
  obtain rfl := Except.ok.inj
    ((Runner.start_machine (.withHalts commands hcommands) tape policy input output).symm.trans hstart)
  have himpl := implements_semantics hcommands
  obtain ⟨p, hp⟩ := Program.exists_parse hbalanced
  have hacts : p.Forall (Dialect.withHalts commands hcommands).Acts := by
    refine Program.forall_of_parse hp fun c hc hn hx => ?_
    have hknows : (Dialect.withHalts commands hcommands).Knows c := hsource c hc
    exact Dialect.acts_of_knows hknows hn hx
  obtain rfl := Program.text_of_parse hp
  have hplain := hacts.mono fun c hc => And.intro (Dialect.ne_enter_of_acts hc) (Dialect.ne_exit_of_acts hc)
  rw [Machine.noHost_eq_onStore]
  rcases hpath.result hplain hstops with ⟨s, rfl, heval⟩ | ⟨⟨fault, s⟩, rfl, hstopsAt⟩
  · have hends := (Dialect.tracks_text himpl hacts [] _).done heval
    obtain ⟨fuel, hfeed⟩ := Runner.feed_of_ends hends
    exact ⟨fuel, Eq.subst (motive := Announces _ final _) hfeed.symm (.ended rfl)⟩
  · have hfails := Dialect.failsOn_text himpl hacts hstopsAt []
    have hown := isOwn_of_evaluates hcommands hacts hstopsAt.evaluates
    obtain ⟨fuel, c, m, hc, hstore, hfeed⟩ := Runner.feed_of_failsOn hfails hown
    refine ⟨fuel, Eq.subst (motive := Announces _ final _) hfeed.symm ?_⟩
    by_cases hfault : fault = .runOver
    · subst hfault
      rw [if_pos rfl]
      exact .halted hstore rfl
    · rw [if_neg hfault]
      exact .failed hfault hc hstore

/-- The sink refuses a byte in the second pass of a loop.  The run is then back inside the loop, and the feed is at the
bracket that closes it. -/
theorem feed_announces_failed_replay :
    let commands := (CommandMap.standard : CommandMap Empty).insert '!' .halt
    let source := ['+', '[', '.', ']', '!']
    let r₀ : Runner FixedTape Empty :=
      ⟨⟨⟨#[0], 0⟩, { items := #[.plain commands] }, .ofBytes [], .closingAfter 1⟩, .standard, false⟩
    let start : State := ⟨#[0], ⟨0, by decide⟩, .ofBytes [], .closingAfter 1, by decide⟩
    let closed : Sink := { written := #[1], lasting := .refuse "sink closed" }
    let last : State := ⟨#[1], ⟨0, by decide⟩, .ofBytes [], { closed with spells := [⟨0, some .accept⟩] }, by decide⟩
    let final : Jump.Config State := ⟨2, 3, last⟩
    let result : Result State := .error (.io "sink closed", { last with output := closed })
    Runner.start (⟨#[0], 0⟩ : FixedTape) {} commands .standard (.ofBytes []) (.closingAfter 1) = .ok r₀ ∧
      Jump.Path semantics .square source 4 ⟨0, 0, start⟩ final ∧ Jump.Stops semantics .square source final result ∧
      ∃ fuel, Announces source final result (r₀.feed noHost fuel source) := by
  intro commands source r₀ start closed last final result
  have hunbound : ∀ command, ('!', command) ∉ CommandMap.bindings Empty := by simp [CommandMap.bindings]
  have hcommands : CommandMap.AddsHalts commands := CommandMap.addsHalts_standard.insert hunbound
  have hstart : Runner.start (⟨#[0], 0⟩ : FixedTape) {} commands .standard (.ofBytes []) (.closingAfter 1) = .ok r₀ :=
    rfl
  have hsource : ∀ c ∈ source, c = ']' ∨ ∃ command, commands[c]? = some command := by
    intro c hc
    simp only [source, List.mem_cons, List.not_mem_nil, or_false] at hc
    rcases hc with rfl | rfl | rfl | rfl | rfl
    · exact .inr ⟨.increment, rfl⟩
    · exact .inr ⟨.enterLoop ']', rfl⟩
    · exact .inr ⟨.output, rfl⟩
    · exact .inl rfl
    · exact .inr ⟨.halt, rfl⟩
  have hmatches : Jump.Matches .square source 1 3 := .intro ['+'] ['.'] ['!'] (by decide)
  have hplus : Jump.Step semantics .square source ⟨0, 0, start⟩ ⟨1, 1, { start with cells := #[1] }⟩ :=
    .act rfl (by decide) (by decide) rfl
  have henter : Jump.Step semantics .square source ⟨1, 1, { start with cells := #[1] }⟩
      ⟨2, 2, { start with cells := #[1] }⟩ :=
    .enter rfl (by decide)
  have hdot : Jump.Step semantics .square source ⟨2, 2, { start with cells := #[1] }⟩ ⟨3, 3, last⟩ :=
    .act rfl (by decide) (by decide) rfl
  have hback : Jump.Step semantics .square source ⟨3, 3, last⟩ final := .back hmatches (by decide)
  have hpath : Jump.Path semantics .square source 4 ⟨0, 0, start⟩ final :=
    .cons hplus (.cons henter (.cons hdot (.cons hback (.refl _))))
  have hstops : Jump.Stops semantics .square source final result := .failed rfl (by decide) (by decide) rfl
  exact ⟨hstart, hpath, hstops,
    feed_announces hcommands ⟨#[0], 0⟩ (by decide) (by decide) .standard _ _ hstart hsource (by decide) hpath hstops⟩

end Reference

end TapeMachine
