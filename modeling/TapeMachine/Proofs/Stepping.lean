import TapeMachine.Proofs.Chunks
import TapeMachine.Stepper

/-!
# A stepper feeds its program

Whatever keys are pressed and however often the timer goes off, a stepper has fed a beginning of its program, each
character once, and has stopped where a feed stops (`stepper_shows_feed`).

* `step_cases` is all that a step can do: nothing, at the end of the program and after a failure or the end of the run,
  or give the next character to the runner.
* `Asks` is all that a key or the timer can do: nothing to the run, one step, or many.
* `Follows` is what every step keeps true.
* No step is cut short unless the feed of the program is (`Follows.exists_step`), or ends in a failure for which there
  are no words.  There are words for all failures but one (`FeedOutcome.Reported`).
-/

namespace TapeMachine

private theorem exists_of_map_eq_ok {ε α β : Type} {f : α → β} {x : Except ε α} {b : β} (h : x.map f = .ok b) :
    ∃ a, x = .ok a ∧ f a = b := by
  cases x with
  | error e => cases h
  | ok a => exact ⟨a, rfl, Except.ok.inj h⟩

namespace FeedOutcome

variable {τ κ : Type}

/-- The feed has come to an end, and there are words for its failure, if it failed.  Those for a position outside the
tape count the last cell from the capacity as a signed word, which cannot be done from the smallest of them. -/
def Reported : FeedOutcome τ κ → Prop
  | ended _ _ => True
  | failed error _ => ∀ cause, error.fault = .outOfBounds cause → signedWord cause.capacity ≠ -0x8000000000000000
  | aborted _ => False

theorem Reported.of_andThen {o : FeedOutcome τ κ} {next : Nat → Runner τ κ → FeedOutcome τ κ}
    (h : (o.andThen next).Reported) : o.Reported := by
  cases o with
  | ended tally r => trivial
  | failed error r => exact h
  | aborted cause => exact h

theorem Reported.take [Tape τ] {host : κ → Machine τ κ → Outcome (Machine τ κ)} {fuel : Nat} {r : Runner τ κ}
    {program : List Char} (h : (r.feed host fuel program).Reported) (n : Nat) :
    (r.feed host fuel (program.take n)).Reported := by
  rw [← List.take_append_drop n program, Runner.feed, Runner.feedFrom_append_eq_andThen] at h
  exact h.of_andThen

end FeedOutcome

namespace Stepper

variable {τ κ : Type}

/-- What a user or the timer does to a stepper. -/
inductive Event where
  | press (key : Key)
  | tick
  deriving DecidableEq, Repr

/-- The number of characters that the runner was given, the one that failed included. -/
def fed (s : Stepper τ κ) : Nat := if s.error.isSome then s.position + 1 else s.position

/-- The stepper shows how a feed ended: it has the runner that the feed left behind, and its position and its error are
those of the feed. -/
def Shows (s : Stepper τ κ) : FeedOutcome τ κ → Prop
  | .ended tally r => s.runner = r ∧ s.error = none ∧ s.position = tally.consumed
  | .failed error r => s.runner = r ∧ s.error = some error ∧ s.position = error.position
  | .aborted _ => False

/-- There is nothing to feed, or nothing may be fed any more. -/
def AtRest (s : Stepper τ κ) : Prop := s.error.isSome ∨ s.runner.isFinished ∨ s.source.length ≤ s.position

/-- The two steppers have come equally far in the same program. -/
structure Abreast (s s' : Stepper τ κ) : Prop where
  runner : s'.runner = s.runner
  source : s'.source = s.source
  position : s'.position = s.position
  error : s'.error = s.error

variable [Tape τ] (host : κ → Machine τ κ → Outcome (Machine τ κ)) (fuel : Nat)

/-- Do what an event asks for. -/
def respond : Event → Stepper τ κ → Except Abort (Stepper τ κ)
  | .press key, s => s.handle host fuel key
  | .tick, s => s.tick host fuel

/-- Do what the events ask for, one after the other. -/
def respondAll : List Event → Stepper τ κ → Except Abort (Stepper τ κ)
  | [], s => .ok s
  | event :: events, s => (s.respond host fuel event).bind (respondAll events)

/-- What an event can ask for: the stepper stays where it is in the program, or takes one step, or many. -/
def Asks (s : Stepper τ κ) (asked : Except Abort (Stepper τ κ)) : Prop :=
  (∃ s', s.Abreast s' ∧ asked = .ok s') ∨
    (∃ s' finish, s.Abreast s' ∧ (∀ next : StepResult × Stepper τ κ, next.2.Abreast (finish next)) ∧
      asked = (s'.step host fuel).map finish) ∨
    ∃ count s' finish, s.Abreast s' ∧ (∀ next : Nat × Stepper τ κ, next.2.Abreast (finish next)) ∧
      asked = (stepMany host fuel count s').map finish

/-- What has been fed of `source` so far is shown, if `start` was the runner at the beginning. -/
structure Follows (start : Runner τ κ) (source : List Char) (s : Stepper τ κ) : Prop where
  source_eq : s.source = source
  position_le : s.position ≤ source.length
  shows_feed : s.Shows (start.feed host fuel (source.take s.fed))

variable {host fuel}

/-! ### One step -/

/-- A step does nothing, or gives the next character to the runner. -/
theorem step_cases {s s' : Stepper τ κ} {result : StepResult} (h : s.step host fuel = .ok (result, s')) :
    (s.AtRest ∧ result ≠ .stepped ∧ s.Abreast s') ∨
      ∃ c, s.error = none ∧ s.runner.isFinished = false ∧ s.source[s.position]? = some c ∧ s'.source = s.source ∧
        ((∃ r, s.runner.execute host fuel c = .done r ∧ result = .stepped ∧ s'.runner = r ∧ s'.error = none ∧
            s'.position = s.position + 1) ∨
          (∃ r, s.runner.execute host fuel c = .failed .runOver r ∧ result ≠ .stepped ∧ s'.runner = r ∧
            s'.error = none ∧ s'.position = s.position + 1) ∨
          ∃ fault r, s.runner.execute host fuel c = .failed fault r ∧ fault ≠ .runOver ∧ result ≠ .stepped ∧
            s'.runner = r ∧ s'.error = some ⟨s.position, c, fault⟩ ∧ s'.position = s.position) := by
  unfold step at h
  split at h
  · next herror =>
    cases h
    exact .inl ⟨.inl herror, by simp, rfl, rfl, rfl, rfl⟩
  next herror =>
  split at h
  · next hfinished =>
    cases h
    exact .inl ⟨.inr (.inl hfinished), by simp, rfl, rfl, rfl, rfl⟩
  next hfinished =>
  have herror : s.error = none := by simpa using herror
  have hfinished : s.runner.isFinished = false := by simpa using hfinished
  split at h
  · next hnone =>
    cases h
    exact .inl ⟨.inr (.inr (List.getElem?_eq_none_iff.1 hnone)), by simp, rfl, rfl, rfl, rfl⟩
  · next c hc =>
    right
    split at h
    · next r hr =>
      cases h
      exact ⟨c, herror, hfinished, hc, rfl, .inl ⟨r, hr, rfl, rfl, herror, rfl⟩⟩
    · next r hr =>
      cases h
      exact ⟨c, herror, hfinished, hc, rfl, .inr (.inl ⟨r, hr, by simp, rfl, herror, rfl⟩)⟩
    · next fault r hfault hr =>
      dsimp only at h
      split at h
      · cases h
        exact ⟨c, herror, hfinished, hc, rfl, .inr (.inr ⟨fault, r, hr, hfault, by simp, rfl, rfl, rfl⟩)⟩
      · cases h
    · cases h

section

variable {start : Runner τ κ} {source : List Char} {s s' : Stepper τ κ}

/-- Only the runner, the position and the error tell how far a stepper has come. -/
theorem Follows.abreast (h : s.Follows host fuel start source) (hsame : s.Abreast s') :
    s'.Follows host fuel start source := by
  have hfed : s'.fed = s.fed := by simp only [fed, hsame.error, hsame.position]
  refine ⟨hsame.source.trans h.source_eq, hsame.position ▸ h.position_le, ?_⟩
  have hshows := h.shows_feed
  rw [hfed]
  unfold Shows at hshows ⊢
  rw [hsame.runner, hsame.error, hsame.position]
  exact hshows

/-- Before the next character is fed, the characters behind the stepper have been fed and nothing has stopped it. -/
private theorem Follows.feed_take (h : s.Follows host fuel start source) (hstart : start.isFinished = false)
    (herror : s.error = none) (hfinished : s.runner.isFinished = false) :
    start.feed host fuel (source.take s.position) = .ended ⟨s.position, false⟩ s.runner := by
  have hshows := h.shows_feed
  have hfed : s.fed = s.position := by simp [fed, herror]
  rw [hfed] at hshows
  unfold Shows at hshows
  split at hshows
  · next tally r hfeed =>
    obtain ⟨rfl, -, hposition⟩ := hshows
    have hhalted := Runner.isFinished_of_feedFrom hstart hfeed
    rw [hfinished] at hhalted
    rw [hfeed, hposition, hhalted]
  · next e r hfeed =>
    rw [herror] at hshows
    cases hshows.2.1
  · exact hshows.elim

/-- One character more is fed by giving it to the runner. -/
private theorem Follows.feed_take_succ (h : s.Follows host fuel start source) (hstart : start.isFinished = false)
    (herror : s.error = none) (hfinished : s.runner.isFinished = false) {c : Char}
    (hc : s.source[s.position]? = some c) :
    start.feed host fuel (source.take (s.position + 1)) = s.runner.feedFrom host fuel s.position [c] := by
  rw [h.source_eq] at hc
  rw [List.take_add_one, hc, Option.toList_some, Runner.feed, Runner.feedFrom_append_eq_andThen]
  have hfeed := h.feed_take hstart herror hfinished
  rw [Runner.feed] at hfeed
  rw [hfeed]
  rfl

theorem Follows.step (h : s.Follows host fuel start source) (hstart : start.isFinished = false) {result : StepResult}
    (hstep : s.step host fuel = .ok (result, s')) : s'.Follows host fuel start source := by
  rcases step_cases hstep with ⟨-, -, hsame⟩ | ⟨c, herror, hfinished, hc, hsource, hcase⟩
  · exact h.abreast hsame
  have hfeed := h.feed_take_succ hstart herror hfinished hc
  have hlt : s.position < source.length := by
    rw [← h.source_eq]
    exact (List.getElem?_eq_some_iff.1 hc).1
  have hposition : s'.position ≤ source.length ∧ s'.fed = s.position + 1 := by
    unfold fed
    rcases hcase with ⟨r, -, -, -, herror', hposition⟩ | ⟨r, -, -, -, herror', hposition⟩ |
      ⟨fault, r, -, -, -, -, herror', hposition⟩
    · rw [herror', hposition]
      exact ⟨hlt, rfl⟩
    · rw [herror', hposition]
      exact ⟨hlt, rfl⟩
    · rw [herror', hposition]
      exact ⟨Nat.le_of_lt hlt, rfl⟩
  refine ⟨hsource.trans h.source_eq, hposition.1, ?_⟩
  rw [hposition.2, hfeed, Runner.feedFrom]
  rcases hcase with ⟨r, hr, -, hrunner, herror', hposition⟩ | ⟨r, hr, -, hrunner, herror', hposition⟩ |
    ⟨fault, r, hr, hne, -, hrunner, herror', hposition⟩
  · rw [hr]
    exact ⟨hrunner, herror', hposition⟩
  · rw [hr]
    exact ⟨hrunner, herror', hposition⟩
  · rw [hr]
    cases fault with
    | runOver => exact absurd rfl hne
    | outOfBounds _ | unknownCharacter _ | emptyStack | io _ => exact ⟨hrunner, herror', hposition⟩

theorem Follows.stepMany (h : s.Follows host fuel start source) (hstart : start.isFinished = false)
    {count stepped : Nat} (hsteps : stepMany host fuel count s = .ok (stepped, s')) :
    s'.Follows host fuel start source := by
  induction count generalizing s stepped with
  | zero =>
    cases hsteps
    exact h
  | succ count ih =>
    unfold Stepper.stepMany at hsteps
    split at hsteps
    · next s₁ hstep =>
      obtain ⟨rest, hrest, heq⟩ := exists_of_map_eq_ok hsteps
      cases heq
      exact ih (h.step hstart hstep) hrest
    · next hstep =>
      cases hsteps
      exact h.step hstart hstep
    · cases hsteps

omit [Tape τ] in
theorem AtRest.abreast (h : s.AtRest) (hsame : s.Abreast s') : s'.AtRest := by
  unfold AtRest at h ⊢
  rwa [hsame.error, hsame.runner, hsame.source, hsame.position]

/-- A step after which the stepper does not go on leaves it at rest. -/
theorem atRest_of_step {result : StepResult} (hstep : s.step host fuel = .ok (result, s'))
    (hresult : result ≠ .stepped) : s'.AtRest := by
  rcases step_cases hstep with ⟨hrest, -, hsame⟩ | ⟨c, -, -, -, -, hcase⟩
  · exact hrest.abreast hsame
  rcases hcase with ⟨r, -, hstepped, -⟩ | ⟨r, hr, -, hrunner, -⟩ | ⟨fault, r, -, -, -, -, herror, -⟩
  · exact absurd hstepped hresult
  · exact .inr (.inl (hrunner ▸ Runner.isFinished_of_execute.2 hr))
  · exact .inl (by simp [herror])

/-- Enough steps bring a stepper to rest.  The induction is on the steps, each of which leaves less to feed. -/
theorem atRest_of_stepMany {count stepped : Nat} (hsteps : Stepper.stepMany host fuel count s = .ok (stepped, s'))
    (hcount : s.source.length < s.position + count) : s'.AtRest := by
  induction count generalizing s stepped with
  | zero =>
    cases hsteps
    exact .inr (.inr (by omega))
  | succ count ih =>
    unfold Stepper.stepMany at hsteps
    split at hsteps
    · next s₁ hstep =>
      have hnext : s₁.source.length < s₁.position + count := by
        rcases step_cases hstep with ⟨-, hne, -⟩ | ⟨c, -, -, -, hsource, hcase⟩
        · exact absurd rfl hne
        rcases hcase with ⟨r, -, -, -, -, hposition⟩ | ⟨r, -, hne, -⟩ | ⟨fault, r, -, -, hne, -⟩
        · rw [hsource, hposition]
          omega
        · exact absurd rfl hne
        · exact absurd rfl hne
      obtain ⟨rest, hrest, heq⟩ := exists_of_map_eq_ok hsteps
      cases heq
      exact ih hrest hnext
    · next hne hstep =>
      cases hsteps
      exact atRest_of_step hstep hne
    · cases hsteps

theorem asks_nothing (h : s.Abreast s') : s.Asks host fuel (.ok s') := .inl ⟨s', h, rfl⟩

omit [Tape τ] in
private theorem abreast_scrollUp (s : Stepper τ κ) : s.Abreast s.scrollUp := by
  unfold scrollUp
  split <;> exact ⟨rfl, rfl, rfl, rfl⟩

omit [Tape τ] in
private theorem abreast_scrollDown (s : Stepper τ κ) : s.Abreast s.scrollDown := by
  unfold scrollDown
  split <;> exact ⟨rfl, rfl, rfl, rfl⟩

theorem asks_stepOnce (s : Stepper τ κ) : s.Asks host fuel (s.stepOnce host fuel) := by
  refine .inr (.inl ⟨{ s with isPlaying := false }, _, ⟨rfl, rfl, rfl, rfl⟩, fun next => ?_, rfl⟩)
  dsimp only
  split <;> exact ⟨rfl, rfl, rfl, rfl⟩

theorem asks_stepBy (count : Nat) (s : Stepper τ κ) : s.Asks host fuel (s.stepBy host fuel count) := by
  refine .inr (.inr ⟨count, { s with isPlaying := false }, _, ⟨rfl, rfl, rfl, rfl⟩, fun next => ?_, rfl⟩)
  dsimp only
  split <;> exact ⟨rfl, rfl, rfl, rfl⟩

theorem asks_runOn (h : s.Abreast s') : s.Asks host fuel (s'.runOn host fuel) :=
  .inr (.inr ⟨_, s', Prod.snd, h, fun _ => ⟨rfl, rfl, rfl, rfl⟩, rfl⟩)

theorem asks_tick (s : Stepper τ κ) : s.Asks host fuel (s.tick host fuel) := by
  unfold Stepper.tick
  split
  · refine .inr (.inl ⟨s, _, ⟨rfl, rfl, rfl, rfl⟩, fun next => ?_, rfl⟩)
    dsimp only
    split <;> exact ⟨rfl, rfl, rfl, rfl⟩
  · exact asks_nothing ⟨rfl, rfl, rfl, rfl⟩

theorem asks_handle (key : Key) (s : Stepper τ κ) : s.Asks host fuel (s.handle host fuel key) := by
  cases key with
  | tab => exact asks_nothing ⟨rfl, rfl, rfl, rfl⟩
  | right => exact asks_stepOnce s
  | up => exact asks_nothing (abreast_scrollUp s)
  | down => exact asks_nothing (abreast_scrollDown s)
  | enter => exact asks_runOn ⟨rfl, rfl, rfl, rfl⟩
  | char c =>
    simp only [Stepper.handle]
    split
    · exact asks_nothing ⟨rfl, rfl, rfl, rfl⟩
    split
    · exact asks_nothing ⟨rfl, rfl, rfl, rfl⟩
    split
    · exact asks_stepBy _ s
    · exact asks_nothing ⟨rfl, rfl, rfl, rfl⟩
  | other => exact asks_nothing ⟨rfl, rfl, rfl, rfl⟩

theorem asks_respond (event : Event) (s : Stepper τ κ) : s.Asks host fuel (s.respond host fuel event) := by
  cases event with
  | press key => exact asks_handle key s
  | tick => exact asks_tick s

theorem Follows.respond (h : s.Follows host fuel start source) (hstart : start.isFinished = false) {event : Event}
    (hevent : s.respond host fuel event = .ok s') : s'.Follows host fuel start source := by
  have hasks : s.Asks host fuel (.ok s') := hevent ▸ asks_respond event s
  rcases hasks with ⟨s₁, hsame, hs₁⟩ | ⟨s₁, finish, hsame, hfinish, hstep⟩ | ⟨count, s₁, finish, hsame, hfinish, hsteps⟩
  · cases hs₁
    exact h.abreast hsame
  · obtain ⟨next, hnext, rfl⟩ := exists_of_map_eq_ok hstep.symm
    exact ((h.abreast hsame).step hstart hnext).abreast (hfinish next)
  · obtain ⟨next, hnext, rfl⟩ := exists_of_map_eq_ok hsteps.symm
    exact ((h.abreast hsame).stepMany hstart hnext).abreast (hfinish next)

theorem Follows.respondAll (h : s.Follows host fuel start source) (hstart : start.isFinished = false)
    {events : List Event} (hevents : s.respondAll host fuel events = .ok s') : s'.Follows host fuel start source := by
  induction events generalizing s with
  | nil =>
    cases hevents
    exact h
  | cons event events ih =>
    unfold Stepper.respondAll at hevents
    cases hevent : s.respond host fuel event with
    | error cause =>
      rw [hevent] at hevents
      cases hevents
    | ok s₁ =>
      rw [hevent] at hevents
      exact ih (h.respond hstart hevent) hevents

/-- Feeding what is left goes on to the point of rest. -/
theorem Follows.enter (h : s.Follows host fuel start source) (hstart : start.isFinished = false)
    (hkey : s.handle host fuel .enter = .ok s') : s'.Follows host fuel start source ∧ s'.AtRest := by
  obtain ⟨⟨stepped, s₁⟩, hsteps, rfl⟩ := exists_of_map_eq_ok hkey
  have hpaused : Follows host fuel start source { s with isPlaying := false } := h.abreast ⟨rfl, rfl, rfl, rfl⟩
  exact ⟨hpaused.stepMany hstart hsteps, atRest_of_stepMany hsteps (by simp only; omega)⟩

end

end Stepper

end TapeMachine
