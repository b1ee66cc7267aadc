import TapeMachine.Feed

/-!
# Machines that differ in their tapes

The engine asks four things of a tape: where the head is, to move it, to read and to write.  If two tapes answer these
alike and go on doing so (`Tape.Bisimulation`), then two machines with the same contexts, source and sink cannot be told
apart by what they do: `executeAt_alike` says so for a character and `feedFrom_alike` for a program, for every amount of
fuel.  Both tapes must always have a cell under the head.
-/

namespace TapeMachine

variable {τ τ' κ : Type} {R S : τ → τ' → Prop}

/-- Two tapes in the relation answer the engine alike, and stay in the relation. -/
structure Tape.Bisimulation [Tape τ] [Tape τ'] (R : τ → τ' → Prop) : Prop where
  head {t : τ} {t' : τ'} (h : R t t') : Tape.head t = Tape.head t'
  moveHead {t : τ} {t' : τ'} (h : R t t') (position : Int) :
    (∃ u u', Tape.moveHead t position = .ok u ∧ Tape.moveHead t' position = .ok u' ∧ R u u') ∨
      ∃ cause, Tape.moveHead t position = .error cause ∧ Tape.moveHead t' position = .error cause
  read {t : τ} {t' : τ'} (h : R t t') :
    ∃ value u u', Tape.read? t = some (value, u) ∧ Tape.read? t' = some (value, u') ∧ R u u'
  write {t : τ} {t' : τ'} (h : R t t') (value : Cell) :
    ∃ u u', Tape.write? t value = some u ∧ Tape.write? t' value = some u' ∧ R u u'

/-- Two steps end alike: in related states and with the same fault, or both on a position that is not a word, or both
are cut short. -/
inductive Outcome.Alike {σ ρ : Type} (R : σ → ρ → Prop) : Outcome σ → Outcome ρ → Prop where
  | done {s : σ} {t : ρ} (h : R s t) : Alike R (.done s) (.done t)
  | failed (fault : Fault) {s : σ} {t : ρ} (h : R s t) : Alike R (.failed fault s) (.failed fault t)
  | overflow : Alike R (.aborted .overflow) (.aborted .overflow)
  | outOfFuel : Alike R (.aborted .outOfFuel) (.aborted .outOfFuel)

/-- The machines differ in their tapes, if at all. -/
structure Machine.Alike (R : τ → τ' → Prop) (m : Machine τ κ) (m' : Machine τ' κ) : Prop where
  tape : R m.tape m'.tape
  stack : m.stack = m'.stack
  input : m.input = m'.input
  output : m.output = m'.output

/-- The runners differ in the tapes of their machines, if at all. -/
structure Runner.Alike (R : τ → τ' → Prop) (r : Runner τ κ) (r' : Runner τ' κ) : Prop where
  machine : r.machine.Alike R r'.machine
  policy : r.policy = r'.policy
  isFinished : r.isFinished = r'.isFinished

/-- Two feeds end alike: with the same tally or the same error and related runners, or both on a position that is not a
word, or both are cut short. -/
inductive FeedOutcome.Alike (R : τ → τ' → Prop) : FeedOutcome τ κ → FeedOutcome τ' κ → Prop where
  | ended (tally : FeedTally) {r : Runner τ κ} {r' : Runner τ' κ} (h : r.Alike R r') :
    Alike R (.ended tally r) (.ended tally r')
  | failed (error : FeedError) {r : Runner τ κ} {r' : Runner τ' κ} (h : r.Alike R r') :
    Alike R (.failed error r) (.failed error r')
  | overflow : Alike R (.aborted .overflow) (.aborted .overflow)
  | outOfFuel : Alike R (.aborted .outOfFuel) (.aborted .outOfFuel)

theorem FeedOutcome.Alike.mono (hRS : ∀ t t', R t t' → S t t') {o : FeedOutcome τ κ} {o' : FeedOutcome τ' κ}
    (h : o.Alike R o') : o.Alike S o' := by
  cases h with
  | ended tally h => exact .ended tally ⟨⟨hRS _ _ h.machine.tape, h.machine.stack, h.machine.input, h.machine.output⟩,
      h.policy, h.isFinished⟩
  | failed error h => exact .failed error ⟨⟨hRS _ _ h.machine.tape, h.machine.stack, h.machine.input,
      h.machine.output⟩, h.policy, h.isFinished⟩
  | overflow => exact .overflow
  | outOfFuel => exact .outOfFuel

theorem Outcome.Alike.andThen {σ ρ : Type} {R : σ → ρ → Prop} {o : Outcome σ} {o' : Outcome ρ} {f : σ → Outcome σ}
    {g : ρ → Outcome ρ} (h : o.Alike R o') (hnext : ∀ s t, R s t → (f s).Alike R (g t)) :
    (o.andThen f).Alike R (o'.andThen g) := by
  cases h with
  | done h => exact hnext _ _ h
  | failed fault h => exact .failed fault h
  | overflow => exact .overflow
  | outOfFuel => exact .outOfFuel

namespace Machine

variable {m : Machine τ κ} {m' : Machine τ' κ}

/-! ### The contexts -/

theorem modifyContext_alike (h : m.Alike R m') (index : Nat) (f : Context κ → Context κ) :
    (m.modifyContext index f).Alike R (m'.modifyContext index f) :=
  ⟨h.tape, congrArg (·.modify index f) h.stack, h.input, h.output⟩

theorem pushContext_alike (h : m.Alike R m') (c : Context κ) :
    (m.pushContext c).Alike (Machine.Alike R) (m'.pushContext c) := by
  unfold pushContext
  rw [← h.stack]
  split
  · exact .done ⟨h.tape, rfl, h.input, h.output⟩
  · exact .failed _ h

theorem popContext_alike (h : m.Alike R m') : m.popContext.Alike (Machine.Alike R) m'.popContext := by
  unfold popContext
  rw [← h.stack]
  split
  · exact .done ⟨h.tape, rfl, h.input, h.output⟩
  · exact .failed _ h

theorem saveAt_alike (h : m.Alike R m') (index : Nat) (c : Char) : (m.saveAt index c).Alike R (m'.saveAt index c) :=
  modifyContext_alike h index _

theorem countAt_alike (h : m.Alike R m') (index : Nat) (c : Char) :
    (m.countAt index c).Alike (Machine.Alike R) (m'.countAt index c) := by
  unfold countAt
  rw [← h.stack]
  split
  · next skip _ =>
    split
    · next counted _ =>
      have hcounted := modifyContext_alike h index fun _ => .skip counted
      dsimp only
      split
      · exact popContext_alike hcounted
      · exact .done hcounted
    · exact .overflow
  · exact .failed _ h

section

variable {execute : Nat → Char → Machine τ κ → Outcome (Machine τ κ)}
  {execute' : Nat → Char → Machine τ' κ → Outcome (Machine τ' κ)}
  (hexecute : ∀ index c m m', m.Alike R m' → (execute index c m).Alike (Machine.Alike R) (execute' index c m'))

include hexecute

theorem forward_alike (h : m.Alike R m') (parent : Option Nat) (c : Char) :
    (m.forward execute parent c).Alike (Machine.Alike R) (m'.forward execute' parent c) := by
  cases parent with
  | none => exact .done h
  | some parent => exact hexecute parent c m m' h

theorem replayPass_alike (h : m.Alike R m') (body : List Char) :
    (replayPass execute body m).Alike (Machine.Alike R) (replayPass execute' body m') := by
  induction body generalizing m m' with
  | nil => exact .done h
  | cons c rest ih =>
    unfold replayPass
    rw [← h.stack]
    split
    · exact .failed _ h
    · next top _ => exact (hexecute top c m m' h).andThen fun _ _ h => ih h

end

variable [Tape τ] [Tape τ'] (hR : Tape.Bisimulation R)

include hR

/-! ### The tape, the source and the sink -/

theorem moveTo_alike (h : m.Alike R m') (position : Int) :
    (m.moveTo position).Alike (Machine.Alike R) (m'.moveTo position) := by
  unfold moveTo
  rcases hR.moveHead h.tape position with ⟨u, u', hu, hu', hR'⟩ | ⟨cause, hu, hu'⟩
  · rw [hu, hu']
    exact .done ⟨hR', h.stack, h.input, h.output⟩
  · rw [hu, hu']
    exact .failed _ h

theorem withCell_alike (h : m.Alike R m') {next : Cell → Machine τ κ → Outcome (Machine τ κ)}
    {next' : Cell → Machine τ' κ → Outcome (Machine τ' κ)}
    (hnext : ∀ value m m', m.Alike R m' → (next value m).Alike (Machine.Alike R) (next' value m')) :
    (m.withCell next).Alike (Machine.Alike R) (m'.withCell next') := by
  obtain ⟨value, u, u', hu, hu', hR'⟩ := hR.read h.tape
  unfold withCell
  dsimp only
  rw [hu, hu']
  exact hnext value _ _ ⟨hR', h.stack, h.input, h.output⟩

theorem setCell_alike (h : m.Alike R m') (value : Cell) :
    (m.setCell value).Alike (Machine.Alike R) (m'.setCell value) := by
  obtain ⟨u, u', hu, hu', hR'⟩ := hR.write h.tape value
  unfold setCell
  dsimp only
  rw [hu, hu']
  exact .done ⟨hR', h.stack, h.input, h.output⟩

omit hR [Tape τ] [Tape τ'] in
theorem emit_alike (h : m.Alike R m') (byte : UInt8) : (m.emit byte).Alike (Machine.Alike R) (m'.emit byte) := by
  unfold emit
  dsimp only
  rw [← h.output]
  split
  · exact .done ⟨h.tape, h.stack, h.input, rfl⟩
  · exact .failed _ ⟨h.tape, h.stack, h.input, rfl⟩

theorem accept_alike (h : m.Alike R m') : m.accept.Alike (Machine.Alike R) m'.accept := by
  unfold accept
  dsimp only
  rw [← h.input]
  split
  · next byte input _ =>
    have hread : Machine.Alike R (⟨m.tape, m.stack, input, m.output⟩ : Machine τ κ)
        ⟨m'.tape, m'.stack, input, m'.output⟩ :=
      ⟨h.tape, h.stack, rfl, h.output⟩
    exact setCell_alike hR hread byte.toUInt16
  · exact .done ⟨h.tape, h.stack, rfl, h.output⟩
  · exact .failed _ ⟨h.tape, h.stack, rfl, h.output⟩

/-! ### Commands -/

theorem enterLoop_alike (h : m.Alike R m') (enter exit : Char) (parent : Option Nat) :
    (m.enterLoop enter exit parent).Alike (Machine.Alike R) (m'.enterLoop enter exit parent) := by
  unfold enterLoop
  rw [← h.stack]
  split
  · exact .failed _ h
  · exact withCell_alike hR h fun value m m' h => pushContext_alike h _

variable {host : κ → Machine τ κ → Outcome (Machine τ κ)} {host' : κ → Machine τ' κ → Outcome (Machine τ' κ)}
  (hhost : ∀ command m m', m.Alike R m' → (host command m).Alike (Machine.Alike R) (host' command m'))

include hhost

theorem invoke_alike (h : m.Alike R m') (command : Command κ) (c : Char) (scope : Option Nat) :
    (m.invoke host command c scope).Alike (Machine.Alike R) (m'.invoke host' command c scope) := by
  have hmove (offset : Int) : (m.moveBy offset).Alike (Machine.Alike R) (m'.moveBy offset) := by
    unfold moveBy
    rw [hR.head h.tape]
    split
    · exact moveTo_alike hR h _
    · exact .overflow
  have hchange (f : Cell → Cell) : (m.changeCell f).Alike (Machine.Alike R) (m'.changeCell f) :=
    withCell_alike hR h fun value m m' h => setCell_alike hR h (f value)
  cases command with
  | moveRight => exact hmove 1
  | moveLeft => exact hmove (-1)
  | increment => exact hchange (· + 1)
  | decrement => exact hchange (· - 1)
  | output => exact withCell_alike hR h fun value m m' h => emit_alike h value.toUInt8
  | input => exact accept_alike hR h
  | enterLoop exit => exact enterLoop_alike hR h c exit scope
  | halt => exact .failed _ h
  | host command => exact hhost command m m' h

omit hhost in
theorem replay_alike {execute : Nat → Char → Machine τ κ → Outcome (Machine τ κ)}
    {execute' : Nat → Char → Machine τ' κ → Outcome (Machine τ' κ)}
    (hexecute : ∀ index c m m', m.Alike R m' → (execute index c m).Alike (Machine.Alike R) (execute' index c m'))
    (h : m.Alike R m') (body : List Char) (fuel : Nat) :
    (replay execute body fuel m).Alike (Machine.Alike R) (replay execute' body fuel m') := by
  induction fuel generalizing m m' with
  | zero => exact .outOfFuel
  | succ fuel ih =>
    refine withCell_alike hR h fun guard m m' h => ?_
    split
    · exact .done h
    · exact (replayPass_alike hexecute h body).andThen fun _ _ h => ih h

omit hhost in
theorem exitLoop_alike {execute : Nat → Char → Machine τ κ → Outcome (Machine τ κ)}
    {execute' : Nat → Char → Machine τ' κ → Outcome (Machine τ' κ)}
    (hexecute : ∀ index c m m', m.Alike R m' → (execute index c m).Alike (Machine.Alike R) (execute' index c m'))
    (h : m.Alike R m') (fuel index : Nat) :
    (m.exitLoop execute fuel index).Alike (Machine.Alike R) (m'.exitLoop execute' fuel index) := by
  unfold exitLoop
  rw [← h.stack]
  split
  · next r _ =>
    have hclosed := modifyContext_alike h index fun _ => .recording r.close
    exact (replay_alike hR hexecute hclosed _ fuel).andThen fun _ _ h => popContext_alike h
  · exact .failed _ h

/-- Machines that differ in their tapes execute a character alike. -/
theorem executeAt_alike (fuel : Nat) (h : m.Alike R m') (index : Nat) (c : Char) :
    (executeAt host fuel index c m).Alike (Machine.Alike R) (executeAt host' fuel index c m') := by
  induction fuel generalizing m m' index c with
  | zero => exact .outOfFuel
  | succ fuel ih =>
    have hexecute : ∀ index c m m', m.Alike R m' →
        (executeAt host fuel index c m).Alike (Machine.Alike R) (executeAt host' fuel index c m') :=
      fun index c m m' h => ih h index c
    unfold executeAt
    rw [← h.stack]
    split
    · exact .failed _ h
    · split
      · exact .failed _ h
      · exact invoke_alike hR hhost h _ c none
    · split
      · exact .failed _ h
      · next effect _ =>
        refine (forward_alike hexecute (saveAt_alike h index c) _ c).andThen fun m m' h => ?_
        split
        · cases effect with
          | invoke command => exact invoke_alike hR hhost h command c (some index)
          | replay => exact exitLoop_alike hR hexecute h fuel index
        · exact .done h
    · split
      · refine (forward_alike hexecute h _ c).andThen fun m m' h => ?_
        split
        · exact countAt_alike h index c
        · exact .done h
      · exact .failed _ h

end Machine

namespace Runner

variable {r : Runner τ κ} {r' : Runner τ' κ}

theorem settle_alike (policy : Policy) {o : Outcome (Machine τ κ)} {o' : Outcome (Machine τ' κ)}
    (h : o.Alike (Machine.Alike R) o') : (settle policy o).Alike (Runner.Alike R) (settle policy o') := by
  cases h with
  | done h => exact .done ⟨h, rfl, rfl⟩
  | failed fault h =>
    cases fault with
    | unknownCharacter c =>
      simp only [settle]
      split
      · exact .done ⟨h, rfl, rfl⟩
      · exact .failed _ ⟨h, rfl, rfl⟩
    | outOfBounds _ | emptyStack | io _ | runOver => exact .failed _ ⟨h, rfl, rfl⟩
  | overflow => exact .overflow
  | outOfFuel => exact .outOfFuel

variable [Tape τ] [Tape τ'] (hR : Tape.Bisimulation R)
  {host : κ → Machine τ κ → Outcome (Machine τ κ)} {host' : κ → Machine τ' κ → Outcome (Machine τ' κ)}
  (hhost : ∀ command m m', m.Alike R m' → (host command m).Alike (Machine.Alike R) (host' command m'))

include hR hhost

theorem execute_alike (h : r.Alike R r') (fuel : Nat) (c : Char) :
    (r.execute host fuel c).Alike (Runner.Alike R) (r'.execute host' fuel c) := by
  obtain ⟨m, policy, isFinished⟩ := r
  obtain ⟨m', _, _⟩ := r'
  obtain ⟨hm, rfl, rfl⟩ := h
  dsimp only at hm
  cases isFinished with
  | true => exact .failed _ ⟨hm, rfl, rfl⟩
  | false =>
    simp only [execute, ← hm.stack]
    split
    · exact .failed _ ⟨hm, rfl, rfl⟩
    · exact settle_alike policy (Machine.executeAt_alike hR hhost fuel hm _ c)

/-- Runners that differ in their tapes run a program alike. -/
theorem feedFrom_alike (h : r.Alike R r') (fuel position : Nat) (program : List Char) :
    (r.feedFrom host fuel position program).Alike R (r'.feedFrom host' fuel position program) := by
  induction program generalizing position r r' with
  | nil => exact .ended _ h
  | cons c rest ih =>
    have hc := execute_alike hR hhost h fuel c
    simp only [feedFrom]
    generalize r.execute host fuel c = o at hc ⊢
    generalize r'.execute host' fuel c = o' at hc ⊢
    cases hc with
    | done h => exact ih h (position + 1)
    | failed fault h =>
      cases fault with
      | runOver => exact .ended _ h
      | outOfBounds _ | unknownCharacter _ | emptyStack | io _ => exact .failed _ h
    | overflow => exact .overflow
    | outOfFuel => exact .outOfFuel

end Runner

end TapeMachine
