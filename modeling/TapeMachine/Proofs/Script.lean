import TapeMachine.Proofs.Refinement
import TapeMachine.Proofs.Rooted

/-!
# Several kinds of loop

A mapping may have loops of several kinds, each with its own brackets.  A `Script` is a program in which every loop
tells the brackets it is written with.  A text is the text of a script if it is `Nested`: every loop is closed by the
character that belongs to it, the innermost first (`exists_script`).

* A runner that is fed a script in which no loop stands inside one of another kind ends if and only if the program does,
  and in the same way (`feed_evaluates_script`).  At the root the contexts do not tell the kinds of loop apart, and
  inside a loop there is one kind only.
* With a loop inside one of another kind that is no longer so.  The bracket that closes it is passed on to the loop
  around it, where it stands for nothing and is refused (`feed_refuses_mixed_script`).
-/

namespace TapeMachine

/-- A program with several kinds of loop. -/
inductive Script where
  | done
  | act (c : Char) (rest : Script)
  | loop (b : Brackets) (body rest : Script)

namespace Script

/-- The script as it is written. -/
def text : Script → List Char
  | done => []
  | act c rest => c :: rest.text
  | loop b body rest => b.enter :: (body.text ++ b.exit :: rest.text)

/-- What the script means: to a program all loops are alike. -/
def program : Script → Program
  | done => .done
  | act c rest => .act c rest.program
  | loop _ body rest => .loop body.program rest.program

/-- The script is written in the characters of a mapping, and its loops in the brackets of the mapping. -/
def WrittenIn {κ : Type} (commands : CommandMap κ) : Script → Prop
  | done => True
  | act c rest => (∃ command, commands[c]? = some command ∧ ∀ x, command ≠ .enterLoop x) ∧ rest.WrittenIn commands
  | loop b body rest =>
    commands[b.enter]? = some (.enterLoop b.exit) ∧ body.WrittenIn commands ∧ rest.WrittenIn commands

/-- All loops of the script are of one kind. -/
def OfKind (b : Brackets) : Script → Prop
  | done => True
  | act _ rest => rest.OfKind b
  | loop b' body rest => b' = b ∧ body.OfKind b ∧ rest.OfKind b

/-- No loop of the script stands inside one of another kind. -/
def Unmixed : Script → Prop
  | done => True
  | act _ rest => rest.Unmixed
  | loop b body rest => body.OfKind b ∧ rest.Unmixed

theorem OfKind.text_eq {b : Brackets} {script : Script} (h : script.OfKind b) :
    script.program.text b = script.text := by
  induction script with
  | done => rfl
  | act c rest ih => rw [program, Program.text, text, ih h]
  | loop b' body rest ihbody ihrest =>
    obtain ⟨rfl, hbody, hrest⟩ := h
    rw [program, Program.text, text, ihbody hbody, ihrest hrest]

theorem WrittenIn.forall_bound {κ : Type} {commands : CommandMap κ} {script : Script} (h : script.WrittenIn commands) :
    script.program.Forall fun c => ∃ command, commands[c]? = some command ∧ ∀ x, command ≠ .enterLoop x := by
  induction script with
  | done => trivial
  | act c rest ih => exact ⟨h.1, ih h.2⟩
  | loop b body rest ihbody ihrest => exact ⟨ihbody h.2.1, ihrest h.2.2⟩

theorem WrittenIn.forall_acts {κ : Type} {d : Dialect κ} (hexit : d.commands[d.exit]? = none) {script : Script}
    (h : script.WrittenIn d.commands) : script.program.Forall d.Acts := by
  refine h.forall_bound.mono ?_
  rintro c ⟨command, hc, hloop⟩
  refine ⟨?_, command, hc, hloop⟩
  rintro rfl
  rw [hexit] at hc
  cases hc

end Script

/-! ### Texts whose brackets match -/

namespace CommandMap

variable {κ : Type} (commands : CommandMap κ)

/-- The characters that are to close the open loops, the innermost first, after one more character.  There are none if
the character stands for nothing and closes nothing. -/
def await? (awaited : List Char) (c : Char) : Option (List Char) :=
  match commands[c]?, awaited with
  | some (.enterLoop x), awaited => some (x :: awaited)
  | some _, awaited => some awaited
  | none, x :: awaited => if c = x then some awaited else none
  | none, [] => none

/-- The characters that are to close the loops which are open after a text. -/
def awaitedFrom (awaited text : List Char) : Option (List Char) := text.foldlM commands.await? awaited

/-- Every loop of the text is closed by the character that belongs to it. -/
def Nested (text : List Char) : Prop := commands.awaitedFrom [] text = some []

instance (text : List Char) : Decidable (commands.Nested text) :=
  inferInstanceAs (Decidable (commands.awaitedFrom [] text = some []))

/-- Scripts with the awaited characters between them. -/
private inductive Pieces : List Char → List Char → Prop where
  | last {script : Script} (h : script.WrittenIn commands) : Pieces [] script.text
  | next {script : Script} (h : script.WrittenIn commands) (x : Char) {awaited text : List Char}
    (hrest : Pieces awaited text) : Pieces (x :: awaited) (script.text ++ x :: text)

variable {commands}

/-- What can be put before a script can be put before the first of several. -/
private theorem Pieces.prepend (before : List Char)
    (hbefore : ∀ script : Script, script.WrittenIn commands →
      ∃ script' : Script, script'.WrittenIn commands ∧ script'.text = before ++ script.text)
    {awaited text : List Char} (h : Pieces commands awaited text) : Pieces commands awaited (before ++ text) := by
  cases h with
  | last h =>
    obtain ⟨script', h', htext⟩ := hbefore _ h
    rw [← htext]
    exact .last h'
  | next h x hrest =>
    obtain ⟨script', h', htext⟩ := hbefore _ h
    rw [← List.append_assoc, ← htext]
    exact .next h' x hrest

private theorem pieces_of_awaitedFrom (hexits : commands.ExitsApart) {awaited text : List Char}
    (h : commands.awaitedFrom awaited text = some []) : Pieces commands awaited text := by
  induction text generalizing awaited with
  | nil =>
    cases h
    have hdone : Script.done.WrittenIn commands := trivial
    exact .last hdone
  | cons c rest ih =>
    rw [awaitedFrom, List.foldlM_cons] at h
    obtain ⟨awaited', hawait, hrest⟩ := Option.bind_eq_some_iff.1 h
    have hpieces := ih hrest
    unfold await? at hawait
    split at hawait
    · next x hc =>
      -- the first piece is the body of the loop that `c` opens
      cases hawait
      cases hpieces with
      | @next body hbody _ _ text hpieces =>
        have hne : x ≠ c := by
          rintro rfl
          rw [hexits.unbound hc] at hc
          cases hc
        have hloop := hpieces.prepend (c :: (body.text ++ [x])) fun script h =>
          ⟨.loop ⟨c, x, hne⟩ body script, ⟨hc, hbody, h⟩, by simp [Script.text]⟩
        simpa using hloop
    · next command hloop hc =>
      cases hawait
      refine hpieces.prepend [c] fun script h => ⟨.act c script, ⟨⟨command, hc, ?_⟩, h⟩, rfl⟩
      rintro x rfl
      exact hloop x rfl
    · next x awaited =>
      split at hawait
      · next hx =>
        cases hawait
        subst hx
        have hdone : Script.done.WrittenIn commands := trivial
        exact .next hdone c hpieces
      · cases hawait
    · cases hawait

/-- A text whose brackets match is the text of a script. -/
theorem exists_script (hexits : commands.ExitsApart) {text : List Char} (h : commands.Nested text) :
    ∃ script : Script, script.WrittenIn commands ∧ script.text = text := by
  cases pieces_of_awaitedFrom hexits h with
  | last hwritten => exact ⟨_, hwritten, rfl⟩

end CommandMap

namespace Reference

open Machine (ofTower noHost noCustom onStore executeAt replayPass Ends)

variable {commands : CommandMap Empty} {s : State}

/-- A command at the root does what the reference semantics says. -/
private theorem tracks_root_act {c : Char} {command : Command Empty} (hc : commands[c]? = some command)
    (hloop : ∀ x, command ≠ .enterLoop x) (s : State) :
    Tracks (ofTower [.plain commands]) (.ofStore State.store) (· = (semanticsOf commands).act c s)
      (Ends (onStore noCustom) [c] (ofTower [.plain commands] s.store)) := by
  have hexecute (fuel : Nat) : replayPass (executeAt (onStore noCustom) (fuel + 1)) [c]
      (ofTower [.plain commands] s.store) =
        (View.outcome (.ofStore State.store) (s.carryOut command)).map (ofTower [.plain commands]) := by
    have hget : (ofTower [.plain commands] s.store).stack.get? 0 = some (.plain commands) := rfl
    rw [← perform_store s hloop, ← Machine.invoke_ofTower noCustom hloop c none, ← Machine.executeAt_plain hget hc fuel]
    exact Outcome.andThen_done _
  have hends {o : Outcome (Machine FixedTape Empty)}
      (hne : (View.outcome (.ofStore State.store) (s.carryOut command)).map (ofTower [.plain commands]) ≠
        .aborted .outOfFuel) : Ends (onStore noCustom) [c] _ o ↔ o = _ :=
    (Outcome.settles_of_add (Machine.grows_replayPass [c] _) 1 hexecute).trans (Outcome.settles_const hne)
  have hact : (semanticsOf commands).act c s = s.carryOut command := by simp only [semanticsOf, hc]
  rw [hact]
  cases hcarry : s.carryOut command with
  | ok s' =>
    rw [hcarry] at hends
    exact (tracks_eq (.done s')).congr (fun _ => Iff.rfl) fun o => hends (by simp [View.outcome])
  | error e =>
    rw [hcarry] at hends
    have hshows := (View.ofStore State.store).shows_map_ofTower e [.plain commands]
    exact (tracks_eq (.stopped hshows)).congr (fun _ => Iff.rfl) fun o => hends hshows.ne_outOfFuel

/-- A machine runs an unmixed script as its program says. -/
theorem tracks_script (hexits : commands.ExitsApart) {script : Script} (hwritten : script.WrittenIn commands)
    (hunmixed : script.Unmixed) (s : State) :
    Tracks (ofTower [.plain commands]) (.ofStore State.store) ((semanticsOf commands).Evaluates script.program s)
      (Ends (onStore noCustom) script.text (ofTower [.plain commands] s.store)) := by
  induction script generalizing s with
  | done => exact (tracks_eq (.done s)).congr (fun _ => Semantics.evaluates_done_iff) fun _ => Machine.ends_nil
  | act c rest ih =>
    obtain ⟨⟨command, hc, hloop⟩, hrest⟩ := hwritten
    have htracks := (tracks_root_act hc hloop s).andThen (ih hrest hunmixed)
    refine htracks.congr (fun r => ?_) fun o => ?_
    · rw [Script.program, Semantics.evaluates_act_iff]
      simp only [exists_eq_left]
    · rw [Script.text, ← List.singleton_append, Machine.ends_append]
  | loop b body rest _ ihrest =>
    -- at the root the machine of the kind of loop that comes next is the machine of any other
    let d : Dialect Empty := ⟨b, commands, hwritten.1⟩
    have hacts := Script.WrittenIn.forall_acts (d := d) (hexits.unbound hwritten.1) hwritten.2.1
    have himpl := implements_semanticsOf d
    have hloop := Dialect.tracks_loop himpl hacts (Dialect.tracks_text himpl hacts) [] s
    rw [Dialect.noteAll_nil, show body.program.text d.toBrackets = body.text from hunmixed.1.text_eq] at hloop
    have htracks : Tracks (ofTower [.plain commands]) _ _ _ := hloop.andThen (ihrest hwritten.2.2 hunmixed.2)
    refine htracks.congr (fun r => Semantics.evaluates_loop_iff) fun o => ?_
    have htext : b.enter :: (body.text ++ [b.exit]) ++ rest.text = (Script.loop b body rest).text := by
      simp [Script.text]
    rw [← htext]
    exact Machine.ends_append

/-- A feed and a program end in the same way: with the same fault, cells, head, input and output, and on success with
nothing but the context of the program. -/
inductive EndsLike (commands : CommandMap Empty) (length : Nat) :
    FeedOutcome FixedTape Empty → Result State → Prop where
  | ok {r : Runner FixedTape Empty} {s : State} (hstore : r.machine.store = s.store)
    (hstack : r.machine.stack.items = #[.plain commands]) (hfinished : r.isFinished = false) :
    EndsLike commands length (.ended ⟨length, false⟩ r) (.ok s)
  | halted {consumed : Nat} {r : Runner FixedTape Empty} {s : State} (hstore : r.machine.store = s.store)
    (hfinished : r.isFinished) : EndsLike commands length (.ended ⟨consumed, true⟩ r) (.error (.runOver, s))
  | failed (error : FeedError) {r : Runner FixedTape Empty} {s : State} (hfault : error.fault ≠ .runOver)
    (hstore : r.machine.store = s.store) : EndsLike commands length (.failed error r) (.error (error.fault, s))

private theorem endsLike_of_reports {policy : Policy} {length : Nat} {r : Result State}
    {o : Outcome (Machine FixedTape Empty)} {report : FeedOutcome FixedTape Empty}
    (hover : Over (ofTower [.plain commands]) (.ofStore State.store) r o)
    (hreports : FeedOutcome.Reports policy length o report) : EndsLike commands length report r := by
  cases hover with
  | done s =>
    cases hreports
    exact .ok rfl rfl rfl
  | @stopped e o hshows =>
    obtain ⟨fault, s⟩ := e
    obtain ⟨m, rfl, hstore⟩ := View.shows_ofStore_iff.1 hshows
    cases hreports with
    | halted => exact .halted hstore rfl
    | failed position c hfault => exact .failed ⟨position, c, fault⟩ hfault hstore

section

variable (hexits : commands.ExitsApart) {script : Script} (hwritten : script.WrittenIn commands)
  (hunmixed : script.Unmixed)

include hwritten in
private theorem isOwn_of_script {e : Fault × State}
    (heval : (semanticsOf commands).Evaluates script.program s (.error e)) : e.1.IsOwn := by
  refine heval.preserves (fun r => ∀ e, r = .error e → e.1.IsOwn) ?_ hwritten.forall_bound nofun e rfl
  rintro c s ⟨command, hc, hloop⟩ _ e herror
  simp only [semanticsOf, hc] at herror
  have hperform := perform_store s hloop
  rw [herror] at hperform
  exact Store.isOwn_of_perform hloop hperform

include hexits hwritten hunmixed

/-- The feed of a script reports the outcome of its characters. -/
private theorem reports_script (policy : Policy) (fuel : Nat) (s : State) :
    FeedOutcome.Reports policy script.text.length
      (replayPass (executeAt (onStore noCustom) fuel) script.text (ofTower [.plain commands] s.store))
      (Runner.feed noHost fuel script.text ⟨ofTower [.plain commands] s.store, policy, false⟩) := by
  rw [← Machine.noHost_eq_onStore, ← Nat.zero_add script.text.length]
  refine FeedOutcome.reports_feedFrom 0 _ ?_
  intro c m hunknown
  rw [Machine.noHost_eq_onStore] at hunknown
  obtain ⟨r, hr, hover⟩ := (tracks_script hexits hwritten hunmixed s).result ⟨by simp, fuel, hunknown⟩
  cases hover with
  | stopped hshows =>
    have hown := isOwn_of_script hwritten hr
    obtain ⟨_, hfailed, -⟩ := View.shows_ofStore_iff.1 hshows
    rw [← (Outcome.failed.inj hfailed).1] at hown
    exact hown

end

/-- A text whose brackets match is a script, and a runner that is fed the text ends if and only if the program of the
script does, and in the same way, if no loop of the script stands inside one of another kind. -/
theorem feed_evaluates_script (hexits : commands.ExitsApart) (tape : FixedTape) (htape : tape.head < tape.cells.size)
    (hsize : tape.cells.size < 0x8000000000000000) (policy : Policy) (input : Source) (output : Sink)
    {r₀ : Runner FixedTape Empty} (hstart : Runner.start tape {} commands policy input output = .ok r₀)
    {source : List Char} (hnested : commands.Nested source) :
    (∃ script : Script, script.WrittenIn commands ∧ script.text = source) ∧
    ∀ script : Script, script.WrittenIn commands → script.text = source → script.Unmixed →
      ((∃ fuel, r₀.feed noHost fuel source ≠ .aborted .outOfFuel) ↔
        ∃ r, (semanticsOf commands).Evaluates script.program ⟨tape.cells, ⟨tape.head, htape⟩, input, output, hsize⟩ r) ∧
      ∀ fuel r, r₀.feed noHost fuel source ≠ .aborted .outOfFuel →
        (semanticsOf commands).Evaluates script.program ⟨tape.cells, ⟨tape.head, htape⟩, input, output, hsize⟩ r →
        EndsLike commands source.length (r₀.feed noHost fuel source) r := by
  refine ⟨CommandMap.exists_script hexits hnested, ?_⟩
  rintro script hwritten rfl hunmixed
  obtain rfl := Except.ok.inj hstart
  let s : State := ⟨tape.cells, ⟨tape.head, htape⟩, input, output, hsize⟩
  have htracks := tracks_script hexits hwritten hunmixed s
  have hreports (fuel : Nat) := reports_script hexits hwritten hunmixed policy fuel s
  refine ⟨⟨?_, ?_⟩, ?_⟩
  · rintro ⟨fuel, hfeed⟩
    have hne := (hreports fuel).outOfFuel_iff.not.2 hfeed
    obtain ⟨r, hr, -⟩ := htracks.result ⟨hne, fuel, rfl⟩
    exact ⟨r, hr⟩
  · rintro ⟨r, hr⟩
    obtain ⟨o, ⟨hne, fuel, rfl⟩, -⟩ := htracks.outcome hr
    exact ⟨fuel, (hreports fuel).outOfFuel_iff.not.1 hne⟩
  · intro fuel r hfeed hr
    have hne := (hreports fuel).outOfFuel_iff.not.2 hfeed
    obtain ⟨o, ho, hover⟩ := htracks.outcome hr
    obtain rfl := ho.unique ⟨hne, fuel, rfl⟩
    exact endsLike_of_reports hover (hreports fuel)

/-- A loop of each kind, one after the other. -/
theorem feed_evaluates_script_of_two_loops :
    let source := ['+', '[', '-', ']', '+', '(', '.', '-', ')']
    let script : Script :=
      .act '+' (.loop .square (.act '-' .done)
        (.act '+' (.loop ⟨'(', ')', by decide⟩ (.act '.' (.act '-' .done)) .done)))
    let r₀ : Runner FixedTape Empty := ⟨ofTower [.plain .twoLoops] ⟨⟨#[0], 0⟩, .ofBytes [], {}⟩, .standard, false⟩
    let r₁ : Runner FixedTape Empty :=
      ⟨ofTower [.plain .twoLoops] ⟨⟨#[0], 0⟩, .ofBytes [], { written := #[1] }⟩, .standard, false⟩
    script.text = source ∧ r₀.feed noHost 9 source = .ended ⟨9, false⟩ r₁ ∧
      ∃ r, (semanticsOf .twoLoops).Evaluates script.program ⟨#[0], ⟨0, by decide⟩, .ofBytes [], {}, by decide⟩ r ∧
        EndsLike .twoLoops 9 (.ended ⟨9, false⟩ r₁) r := by
  intro source script r₀ r₁
  have hstart : Runner.start (⟨#[0], 0⟩ : FixedTape) {} .twoLoops .standard (.ofBytes []) {} = .ok r₀ := rfl
  have hfeed : r₀.feed noHost 9 source = .ended ⟨9, false⟩ r₁ := by cbv
  have hreturns : r₀.feed noHost 9 source ≠ .aborted .outOfFuel := by simp [hfeed]
  have hnested : CommandMap.Nested (.twoLoops : CommandMap Empty) source := by decide
  have hwritten : script.WrittenIn (.twoLoops : CommandMap Empty) := by
    refine ⟨⟨.increment, rfl, by simp⟩, rfl, ⟨⟨.decrement, rfl, by simp⟩, trivial⟩, ⟨.increment, rfl, by simp⟩, rfl, ?_,
      trivial⟩
    exact ⟨⟨.output, rfl, by simp⟩, ⟨.decrement, rfl, by simp⟩, trivial⟩
  have hunmixed : script.Unmixed := by simp [script, Script.Unmixed, Script.OfKind]
  obtain ⟨-, hscript⟩ := feed_evaluates_script CommandMap.exitsApart_twoLoops ⟨#[0], 0⟩ (by decide) (by decide)
    .standard (.ofBytes []) {} hstart hnested
  obtain ⟨hends, hlike⟩ := hscript script hwritten rfl hunmixed
  obtain ⟨r, hr⟩ := hends.1 ⟨9, hreturns⟩
  have hsame := hlike 9 r hreturns hr
  rw [hfeed] at hsame
  exact ⟨rfl, hfeed, r, hr, hsame⟩

/-- A round loop inside a square one.  The brackets match and the program ends well, and the feed fails on the bracket
that closes the round loop. -/
theorem feed_refuses_mixed_script :
    let source := ['+', '[', '(', '-', ')', ']']
    let script : Script := .act '+' (.loop .square (.loop ⟨'(', ')', by decide⟩ (.act '-' .done) .done) .done)
    let r₀ : Runner FixedTape Empty := ⟨ofTower [.plain .twoLoops] ⟨⟨#[0], 0⟩, .ofBytes [], {}⟩, .standard, false⟩
    let s : State := ⟨#[0], ⟨0, by decide⟩, .ofBytes [], {}, by decide⟩
    CommandMap.ExitsApart (.twoLoops : CommandMap Empty) ∧ CommandMap.Nested (.twoLoops : CommandMap Empty) source ∧
      script.WrittenIn (.twoLoops : CommandMap Empty) ∧ script.text = source ∧
      Runner.start (⟨#[0], 0⟩ : FixedTape) {} .twoLoops .standard (.ofBytes []) {} = .ok r₀ ∧
      (semanticsOf .twoLoops).Evaluates script.program s (.ok s) ∧
      (∃ r, r₀.feed noHost 9 source = .failed ⟨4, ')', .unknownCharacter ')'⟩ r) ∧
      ¬EndsLike .twoLoops 6 (r₀.feed noHost 9 source) (.ok s) := by
  intro source script r₀ s
  have hwritten : script.WrittenIn (.twoLoops : CommandMap Empty) :=
    ⟨⟨.increment, rfl, by simp⟩, rfl, ⟨rfl, ⟨⟨.decrement, rfl, by simp⟩, trivial⟩, trivial⟩, trivial⟩
  let s₁ : State := ⟨#[1], ⟨0, by decide⟩, .ofBytes [], {}, by decide⟩
  have hplus : (semanticsOf .twoLoops).act '+' s = .ok s₁ := rfl
  have hminus : (semanticsOf .twoLoops).act '-' s₁ = .ok s := by cbv
  have hround : (semanticsOf .twoLoops).Evaluates (.loop (.act '-' .done) .done) s₁ (.ok s) :=
    .pass (by decide) (.act hminus (.done s)) (.exit rfl (.done s))
  have heval : (semanticsOf .twoLoops).Evaluates script.program s (.ok s) :=
    .act hplus (.pass (by decide) hround (.exit rfl (.done s)))
  have hfeed : ∃ r, r₀.feed noHost 9 source = .failed ⟨4, ')', .unknownCharacter ')'⟩ r := ⟨_, by cbv⟩
  refine ⟨CommandMap.exitsApart_twoLoops, by decide, hwritten, rfl, rfl, heval, hfeed, ?_⟩
  obtain ⟨r, hfeed⟩ := hfeed
  rw [hfeed]
  rintro ⟨⟩

end Reference

end TapeMachine
