import TapeMachine.Proofs.Chunks
import TapeMachine.Proofs.Refinement
import TapeMachine.Proofs.Verbatim
import TapeMachine.Tape.Sparse

/-!
# Unfolding a loop

A loop that is entered does what its body does, and then the loop again (`loop_unfolds`).  The two are not run alike.
If the loop is fed, its body is run once inside the recording of the loop and then from memory.  If the body is fed
before the loop, it is run inside the contexts around the loop, and recorded with the loop when it comes a second time.

The characters may stand for commands of a host, as long as these keep to the store (`StoreCommands`).  What they mean
is a semantics on the stores whose head is on a cell (`StoreCommands.semantics`), in which a run is stopped by a fault
or by a position that is not a word.  There the law is that of `Semantics.evaluates_loop_of_ne_zero`, and
`Dialect.tracks_text` takes it back to the machine, inside any loops.
-/

namespace TapeMachine

variable {τ κ σ : Type}

/-! ### Tapes that do not lose their cell -/

namespace Tape

/-- The head is on a cell. -/
def HasCell [Tape τ] (t : τ) : Prop := (read? t).isSome

/-- The head stays on a cell, and reading changes nothing. -/
class Solid (τ : Type) [Tape τ] : Prop where
  eq_of_read {t t' : τ} {value : Cell} (h : read? t = some (value, t')) : t' = t
  hasCell_of_move {t t' : τ} (ht : HasCell t) {position : Int} (h : moveHead t position = .ok t') : HasCell t'
  exists_write {t : τ} (ht : HasCell t) (value : Cell) : ∃ t', write? t value = some t' ∧ HasCell t'

theorem exists_read [Tape τ] [Solid τ] {t : τ} (ht : HasCell t) : ∃ value, read? t = some (value, t) := by
  obtain ⟨⟨value, t'⟩, hread⟩ := Option.isSome_iff_exists.1 ht
  obtain rfl := Solid.eq_of_read hread
  exact ⟨value, hread⟩

end Tape

theorem FixedTape.hasCell_iff {t : FixedTape} : Tape.HasCell t ↔ t.head < t.cells.size := by
  change (t.cells[t.head]?.map _).isSome ↔ _
  simp

instance : Tape.Solid FixedTape where
  eq_of_read := FixedTape.eq_of_read
  hasCell_of_move := by
    intro t t' _ position h
    change (checkBounds position t.cells.size).map _ = .ok t' at h
    cases hcheck : checkBounds position t.cells.size with
    | error cause =>
      rw [hcheck] at h
      cases h
    | ok index =>
      rw [hcheck] at h
      cases h
      exact FixedTape.hasCell_iff.2 (checkBounds_eq_ok_iff.1 hcheck).2
  exists_write := by
    intro t ht value
    have hlt := FixedTape.hasCell_iff.1 ht
    refine ⟨_, dif_pos hlt, FixedTape.hasCell_iff.2 ?_⟩
    rwa [Array.size_set]

instance : Tape.Solid SparseTape where
  eq_of_read := SparseTape.eq_of_read
  hasCell_of_move := fun _ _ _ => rfl
  exists_write := fun _ _ => ⟨_, rfl, rfl⟩

/-! ### Commands that keep to the store -/

/-- The state that is left in any case. -/
def Result.state : Result σ → σ
  | .ok s => s
  | .error e => e.2

namespace Outcome

/-- The step was stopped, and not for want of fuel. -/
def Stops : Outcome σ → Prop
  | done _ => False
  | failed _ _ => True
  | aborted cause => cause ≠ .outOfFuel

/-- The step has left a state in `ok` behind, or has come to a fault that is not an unknown character, or to a position
that is not a word. -/
def Within (ok : σ → Prop) : Outcome σ → Prop
  | done s => ok s
  | failed fault _ => ∀ c, fault ≠ .unknownCharacter c
  | aborted cause => cause = .overflow

theorem within_failed {ok : σ → Prop} {fault : Fault} {s : σ} (h : fault.unknownCharacter? = none) :
    (failed fault s).Within ok := by
  rintro c rfl
  cases h

/-- What such a step amounts to. -/
def result {ok : σ → Prop} : (o : Outcome σ) → o.Within ok → Result {s // ok s} {o : Outcome σ // o.Stops}
  | done s, h => .ok ⟨s, h⟩
  | failed fault s, _ => .error ⟨failed fault s, trivial⟩
  | aborted cause, h => .error ⟨aborted cause, h ▸ nofun⟩

end Outcome

namespace View

/-- The view for runs on the stores in `ok`, with all that can stop them. -/
def within (ok : Store τ → Prop) : View {s // ok s} {o : Outcome (Store τ) // o.Stops} τ where
  store := Subtype.val
  stop := Subtype.val
  stop_ne_done := by
    rintro ⟨o, ho⟩ s rfl
    exact ho
  stop_ne_outOfFuel := by
    rintro ⟨o, ho⟩ rfl
    exact ho rfl

theorem outcome_result {ok : Store τ → Prop} (o : Outcome (Store τ)) (h : o.Within ok) :
    (within ok).outcome (o.result h) = o := by
  cases o <;> rfl

/-- The run was not stopped by an unknown character. -/
def Known {ε : Type} (view : View σ ε τ) : Result σ ε → Prop
  | .ok _ => True
  | .error e => ∀ c s, view.stop e ≠ .failed (.unknownCharacter c) s

theorem known_result {ok : Store τ → Prop} (o : Outcome (Store τ)) (h : o.Within ok) :
    (within ok).Known (o.result h) := by
  cases o with
  | done s => trivial
  | failed fault s =>
    rintro c s' hfault
    exact h c (Outcome.failed.inj hfault).1
  | aborted cause => exact fun _ _ => nofun

end View

/-- Commands of a host that work on the store alone.  They leave the head on a cell, as moving it and writing do, and do
not fail on an unknown character. -/
structure StoreCommands (τ κ : Type) [Tape τ] where
  run : κ → Store τ → Result (Store τ)
  hasCell (command : κ) {s : Store τ} (hs : Tape.HasCell s.tape) : Tape.HasCell (run command s).state.tape
  known (command : κ) (s s' : Store τ) (c : Char) : run command s ≠ .error (.unknownCharacter c, s')

/-- The one command of a host that writes a byte. -/
def StoreCommands.emitting [Tape τ] (byte : UInt8) : StoreCommands τ Unit where
  run _ s :=
    match s.output.write byte with
    | (.ok (), output) => .ok { s with output }
    | (.error reason, output) => .error (.io reason, { s with output })
  hasCell := by
    intro _ s hs
    split
    · exact hs
    · exact hs
  known := by
    intro _ s s' c
    split
    · simp
    · simp

namespace StoreCommands

variable [Tape τ] (own : StoreCommands τ κ)

def custom (command : κ) (s : Store τ) : Outcome (Store τ) := View.outcome (.ofStore id) (own.run command s)

/-- What the commands do on a machine. -/
def host : κ → Machine τ κ → Outcome (Machine τ κ) := Machine.onStore own.custom

theorem within_custom (command : κ) {s : Store τ} (hs : Tape.HasCell s.tape) :
    (own.custom command s).Within fun s => Tape.HasCell s.tape := by
  have hcell := own.hasCell command hs
  have hknown := own.known command s
  unfold custom
  cases hrun : own.run command s with
  | ok s' =>
    rw [hrun] at hcell
    exact hcell
  | error e =>
    rintro c hfault
    refine hknown e.2 c ?_
    rw [hrun, ← hfault]

variable [Tape.Solid τ]

theorem within_perform (command : Command κ) {s : Store τ} (hs : Tape.HasCell s.tape) :
    (s.perform own.custom command).Within fun s => Tape.HasCell s.tape := by
  obtain ⟨value, hread⟩ := Tape.exists_read hs
  have hwrite := Tape.Solid.exists_write hs
  unfold Store.perform
  cases command with
  | moveRight | moveLeft =>
    simp only [Machine.invoke, Machine.moveBy, Machine.moveTo, Machine.ofTower]
    split
    · split
      · next hmove => exact Tape.Solid.hasCell_of_move hs hmove
      · exact Outcome.within_failed rfl
    · rfl
  | increment =>
    obtain ⟨tape, hwrite, htape⟩ := hwrite (value + 1)
    simp only [Machine.invoke, Machine.changeCell, Machine.withCell, Machine.setCell, Machine.ofTower, hread, hwrite]
    exact htape
  | decrement =>
    obtain ⟨tape, hwrite, htape⟩ := hwrite (value - 1)
    simp only [Machine.invoke, Machine.changeCell, Machine.withCell, Machine.setCell, Machine.ofTower, hread, hwrite]
    exact htape
  | output =>
    simp only [Machine.invoke, Machine.withCell, Machine.emit, Machine.ofTower, hread]
    split
    · exact hs
    · exact Outcome.within_failed rfl
  | input =>
    simp only [Machine.invoke, Machine.accept, Machine.setCell, Machine.ofTower]
    split
    · next byte _ _ =>
      obtain ⟨tape, hwrite, htape⟩ := hwrite byte.toUInt16
      simp only [hwrite]
      exact htape
    · exact hs
    · exact Outcome.within_failed rfl
  | enterLoop x => exact Outcome.within_failed rfl
  | halt => exact Outcome.within_failed rfl
  | host command =>
    have hcustom := own.within_custom command hs
    simp only [Machine.invoke, Machine.onStore, Machine.store_ofTower]
    cases hrun : own.custom command s with
    | done s' | failed fault s' | aborted cause =>
      rw [hrun] at hcustom
      exact hcustom

/-- What the characters of a dialect mean on the stores whose head is on a cell. -/
def semantics (d : Dialect κ) : Semantics {s : Store τ // Tape.HasCell s.tape} {o : Outcome (Store τ) // o.Stops} where
  cell s := ((Tape.read? s.1.tape).get s.2).1
  act c s :=
    match d.commands[c]? with
    | some command => (s.1.perform own.custom command).result (own.within_perform command s.2)
    | none => .error ⟨.failed (.unknownCharacter c) s.1, trivial⟩

theorem implements_semantics (d : Dialect κ) :
    d.Implements own.custom (own.semantics d) (.within fun s => Tape.HasCell s.tape) := by
  constructor
  · intro s
    obtain ⟨value, hread⟩ := Tape.exists_read s.2
    simp only [Store.guard?, semantics, View.within, hread, Option.map_some, Option.get_some]
  · rintro c ⟨-, command, hcommand, -⟩ s
    simp only [Dialect.act, semantics, hcommand]
    exact (View.outcome_result _ _).symm

/-- A program of characters that act does not fail on an unknown one. -/
theorem known_of_evaluates {d : Dialect κ} {p : Program} (hp : p.Forall d.Acts) {s r}
    (h : (own.semantics d).Evaluates p s r) : View.Known (.within fun s : Store τ => Tape.HasCell s.tape) r := by
  refine h.preserves (View.Known _) ?_ hp trivial
  rintro c s ⟨-, command, hcommand, -⟩ -
  simp only [semantics, hcommand]
  exact View.known_result _ _

end StoreCommands

/-! ### Feeds of what a program tracks -/

section

open Machine (executeAt replayPass Ends)

variable [Tape τ] {host : κ → Machine τ κ → Outcome (Machine τ κ)} {text : List Char} {m : Machine τ κ}
  {policy : Policy} {place : Store τ → Machine τ κ} {ε : Type} {view : View σ ε τ} {results : Result σ ε → Prop}

/-- The character that a feed blames stands at the place that it names. -/
theorem Runner.getElem?_of_feedFrom {fuel position : Nat} {error : FeedError} {r r' : Runner τ κ}
    (h : r.feedFrom host fuel position text = .failed error r') :
    ∃ i, error.position = position + i ∧ text[i]? = some error.char := by
  induction text generalizing position r with
  | nil => cases h
  | cons c rest ih =>
    simp only [feedFrom] at h
    split at h
    · obtain ⟨i, hposition, hchar⟩ := ih h
      exact ⟨i + 1, by omega, hchar⟩
    · cases h
    · cases h
      exact ⟨0, rfl, rfl⟩
    · cases h

theorem Runner.Yields.getElem? {error : FeedError} {r r' : Runner τ κ} (h : r.Yields host text (.failed error r')) :
    text[error.position]? = some error.char := by
  obtain ⟨-, fuel, hfeed⟩ := h
  obtain ⟨i, hposition, hchar⟩ := getElem?_of_feedFrom hfeed
  rwa [hposition, Nat.zero_add]

variable (htracks : Tracks place view results (Ends host text m)) (hknown : ∀ r, results r → view.Known r)

include htracks hknown

theorem FeedOutcome.reports_feed (policy : Policy) (fuel : Nat) :
    Reports policy text.length (replayPass (executeAt host fuel) text m)
      (Runner.feed host fuel text ⟨m, policy, false⟩) := by
  rw [← Nat.zero_add text.length]
  refine FeedOutcome.reports_feedFrom 0 m ?_
  intro c m' hunknown
  obtain ⟨r, hr, hover⟩ := htracks.result ⟨by simp, fuel, hunknown⟩
  cases hover with
  | stopped hshows => exact hknown _ hr c m'.store hshows.symm

/-- A feed comes to an end if and only if the program does. -/
theorem Runner.exists_yields_iff (policy : Policy) :
    (∃ o, Runner.Yields host text ⟨m, policy, false⟩ o) ↔ ∃ r, results r := by
  constructor
  · rintro ⟨_, hne, fuel, rfl⟩
    have hreports := FeedOutcome.reports_feed htracks hknown policy fuel
    obtain ⟨r, hr, -⟩ := htracks.result ⟨fun hout => hne (hreports.outOfFuel_iff.1 hout), fuel, rfl⟩
    exact ⟨r, hr⟩
  · rintro ⟨r, hr⟩
    obtain ⟨o, ⟨hne, fuel, rfl⟩, -⟩ := htracks.outcome hr
    have hreports := FeedOutcome.reports_feed htracks hknown policy fuel
    exact ⟨_, fun hout => hne (hreports.outOfFuel_iff.2 hout), fuel, rfl⟩

/-- A feed reports what belongs to the result of the program. -/
theorem Runner.Yields.reports {r : Result σ ε} (hr : results r) {o : FeedOutcome τ κ}
    (h : Runner.Yields host text ⟨m, policy, false⟩ o) :
    ∃ outcome, Over place view r outcome ∧ FeedOutcome.Reports policy text.length outcome o := by
  obtain ⟨hne, fuel, rfl⟩ := h
  have hreports := FeedOutcome.reports_feed htracks hknown policy fuel
  obtain ⟨outcome, houtcome, hover⟩ := htracks.outcome hr
  have hends : Ends host text m _ := ⟨fun hout => hne (hreports.outOfFuel_iff.1 hout), fuel, rfl⟩
  obtain rfl := houtcome.unique hends
  exact ⟨_, hover, hreports⟩

end

/-! ### The contexts of a runner that has not failed -/

/-- The state that a step leaves behind, if it does, is in `good`. -/
def Outcome.Leaves (good : σ → Prop) : Outcome σ → Prop
  | done s => good s
  | failed _ s => good s
  | aborted _ => True

namespace Dialect

open Machine (onStore executeAt)

/-- The contexts of the machine are those of a sound nest. -/
def Nests (d : Dialect κ) (m : Machine τ κ) : Prop := ∃ nest s, m = d.machine nest s ∧ d.Sound nest

variable [Tape τ] {d : Dialect κ} [d.Sole] {custom : κ → Store τ → Outcome (Store τ)} {nest : Nest}

/-- At the root the closing bracket is a command like any other, if it is one at all. -/
theorem executeAt_root_exit {command : Command κ} (hcommand : d.commands[d.exit]? = some command) (fuel : Nat)
    (s : Store τ) :
    (executeAt (onStore custom) fuel 0 d.exit (d.machine ⟨[], 0⟩ s)).Leaves d.Nests := by
  cases fuel with
  | zero => trivial
  | succ fuel =>
    have hloop : ∀ x, command ≠ .enterLoop x := by
      rintro x rfl
      exact d.distinct (Sole.enter_of_loop _ _ hcommand)
    have hget : (d.machine ⟨[], 0⟩ s).stack.get? 0 = some (.plain d.commands) := rfl
    have hroot : d.Sound ⟨[], 0⟩ := trivial
    rw [Machine.executeAt_plain hget hcommand, machine, Machine.invoke_ofTower custom hloop]
    cases s.perform custom command with
    | done s' => exact ⟨⟨[], 0⟩, s', rfl, hroot⟩
    | failed fault s' => exact ⟨⟨[], 0⟩, s', rfl, hroot⟩
    | aborted cause => trivial

/-- Whatever a character does, the contexts that it leaves behind are those of a sound nest. -/
theorem executeAt_leaves_nests (hs : d.Sound nest) (fuel : Nat) (c : Char) (s : Store τ) :
    (executeAt (onStore custom) fuel (topIndex nest) c (d.machine nest s)).Leaves d.Nests := by
  by_cases hroot : nest = ⟨[], 0⟩ → c = d.exit → d.commands[c]? = none
  · have hleads : d.Leads custom nest c s (executeAt (onStore custom) fuel (topIndex nest) c (d.machine nest s)) :=
      executeAt_leads_of_root fuel c s hs hroot
    generalize executeAt _ fuel (topIndex nest) c (d.machine nest s) = outcome at hleads
    cases hleads with
    | done hstep s' => exact ⟨_, s', rfl, hstep.sound hs⟩
    | failed hfall s' => exact ⟨_, s', rfl, hfall.sound hs⟩
    | unknown => exact ⟨nest, s, rfl, hs⟩
    | aborted cause => trivial
  · simp only [not_forall] at hroot
    obtain ⟨rfl, rfl, hbound⟩ := hroot
    obtain ⟨command, hcommand⟩ := Option.ne_none_iff_exists'.1 hbound
    exact executeAt_root_exit hcommand fuel s

end Dialect

namespace Runner

open Machine (onStore)

theorem settle_done {policy : Policy} {good : Machine τ κ → Prop} {o : Outcome (Machine τ κ)} (ho : o.Leaves good)
    {r : Runner τ κ} (h : settle policy o = .done r) : ∃ m, r = ⟨m, policy, false⟩ ∧ good m := by
  cases o with
  | done m =>
    cases h
    exact ⟨m, rfl, ho⟩
  | failed fault m =>
    cases fault with
    | unknownCharacter c =>
      simp only [settle] at h
      split at h
      · cases h
        exact ⟨m, rfl, ho⟩
      · cases h
    | outOfBounds _ | emptyStack | io _ | runOver => cases h
  | aborted cause => cases h

variable [Tape τ] {d : Dialect κ} [d.Sole] {custom : κ → Store τ → Outcome (Store τ)} {policy : Policy} {fuel : Nat}
  {m : Machine τ κ} {r : Runner τ κ}

theorem nests_of_execute {isFinished : Bool} {c : Char} (hm : d.Nests m)
    (h : execute (onStore custom) fuel c ⟨m, policy, isFinished⟩ = .done r) :
    ∃ m', r = ⟨m', policy, false⟩ ∧ d.Nests m' := by
  cases isFinished with
  | true => cases h
  | false =>
    obtain ⟨nest, s, rfl, hs⟩ := hm
    simp only [execute, Dialect.topIndex?_machine] at h
    exact settle_done (Dialect.executeAt_leaves_nests hs fuel c s) h

theorem nests_of_executeAll {text : List Char} (hm : d.Nests m)
    (h : executeAll (onStore custom) fuel text ⟨m, policy, false⟩ = .done r) :
    ∃ m', r = ⟨m', policy, false⟩ ∧ d.Nests m' := by
  induction text generalizing m with
  | nil =>
    cases h
    exact ⟨m, rfl, hm⟩
  | cons c rest ih =>
    obtain ⟨r', hc, hrest⟩ := Outcome.andThen_eq_done_iff.1 h
    obtain ⟨m', rfl, hm'⟩ := nests_of_execute hm hc
    exact ih hm' hrest

end Runner

/-! ### The law -/

/-- The text of a loop. -/
def Brackets.loop (b : Brackets) (body : List Char) : List Char := b.enter :: (body ++ [b.exit])

/-- The characters of the language stand for their commands, and no other character opens a loop. -/
structure CommandMap.AddsCommands (commands : CommandMap κ) : Prop where
  bound {c : Char} {command : Command κ} (h : (c, command) ∈ bindings κ) : commands[c]? = some command
  other {c : Char} {command : Command κ} (h : commands[c]? = some command) :
    (c, command) ∈ bindings κ ∨ ∀ x, command ≠ .enterLoop x

theorem CommandMap.addsCommands_insert {c : Char} (hc : ∀ command, (c, command) ∉ bindings κ) {command : Command κ}
    (hloop : ∀ x, command ≠ .enterLoop x) : AddsCommands (Std.TreeMap.insert standard c command) := by
  constructor
  · intro c' command' hmem
    have hne : c ≠ c' := by
      rintro rfl
      exact hc command' hmem
    rw [Std.TreeMap.getElem?_insert, if_neg (by simpa using hne)]
    exact getElem?_standard_iff.2 hmem
  · intro c' command' hget
    rw [Std.TreeMap.getElem?_insert] at hget
    split at hget
    · cases hget
      exact .inr hloop
    · exact .inl (getElem?_standard_iff.1 hget)

namespace Dialect

/-- The language with more commands. -/
def withCommands (commands : CommandMap κ) (h : commands.AddsCommands) : Dialect κ where
  toBrackets := .square
  commands := commands
  enter_bound := h.bound (by simp [CommandMap.bindings, Brackets.square])

instance (commands : CommandMap κ) (h : commands.AddsCommands) : (withCommands commands h).Sole where
  enter_of_loop c x hc := by
    rcases h.other hc with hmem | hloop
    · simp only [CommandMap.bindings, List.mem_cons, Prod.mk.injEq, reduceCtorEq, and_false, false_or,
        List.not_mem_nil, or_false] at hmem
      exact hmem.1
    · exact absurd rfl (hloop x)

open Machine (onStore Ends)

variable [Tape τ] {d : Dialect κ} {custom : κ → Store τ → Outcome (Store τ)} {ε : Type} {sem : Semantics σ ε}
  {view : View σ ε τ}

/-- The body of a loop and then the loop run as the loop does, if it is entered. -/
theorem tracks_unfolded (himpl : d.Implements custom sem view) {body : Program} (hacts : body.Forall d.Acts)
    (levels : List Level) {s : σ} (hcell : sem.cell s ≠ 0) :
    d.Tracks view (noteAll (d.loop (body.text d.toBrackets)) (noteAll (body.text d.toBrackets) levels))
      (sem.Evaluates (.loop body .done) s)
      (Ends (onStore custom) (body.text d.toBrackets ++ d.loop (body.text d.toBrackets))
        (d.machine ⟨levels, 0⟩ (view.store s))) := by
  have hbody := tracks_text himpl hacts
  refine ((hbody levels s).andThen (tracks_loop himpl hacts hbody _)).congr ?_ fun o => Machine.ends_append
  intro r
  exact Semantics.evaluates_loop_of_ne_zero hcell

end Dialect

/-- Two feeds end in the same way: at the end of their texts with `depth` contexts, with a command that ended the run,
or with the same fault, each on a character of its own text.  The tape, the source and the sink are the same.  If one is
aborted, then so is the other, by the same cause. -/
inductive FeedOutcome.SameEnd (depth : Nat) (text text' : List Char) : FeedOutcome τ κ → FeedOutcome τ κ → Prop where
  | ended {r r' : Runner τ κ} (hstore : r.machine.store = r'.machine.store) (hfinished : r.isFinished = r'.isFinished)
    (hdepth : r.machine.stack.size = depth) (hdepth' : r'.machine.stack.size = depth) :
    SameEnd depth text text' (.ended ⟨text.length, false⟩ r) (.ended ⟨text'.length, false⟩ r')
  | halted {consumed consumed' : Nat} {r r' : Runner τ κ} (hstore : r.machine.store = r'.machine.store)
    (hfinished : r.isFinished = r'.isFinished) :
    SameEnd depth text text' (.ended ⟨consumed, true⟩ r) (.ended ⟨consumed', true⟩ r')
  | failed {position position' : Nat} {c c' : Char} (hc : text[position]? = some c) (hc' : text'[position']? = some c')
    (fault : Fault) {r r' : Runner τ κ} (hstore : r.machine.store = r'.machine.store)
    (hfinished : r.isFinished = r'.isFinished) :
    SameEnd depth text text' (.failed ⟨position, c, fault⟩ r) (.failed ⟨position', c', fault⟩ r')
  | aborted (cause : Abort) : SameEnd depth text text' (.aborted cause) (.aborted cause)

theorem FeedOutcome.sameEnd_of_reports {d : Dialect κ} {ε : Type} {view : View σ ε τ} {levels levels' : List Level}
    {r : Result σ ε} {outcome outcome' : Outcome (Machine τ κ)} (hover : d.Over view levels r outcome)
    (hover' : d.Over view levels' r outcome') {depth : Nat} (hlevels : levels.length + 1 = depth)
    (hlevels' : levels'.length + 1 = depth) {policy : Policy} {text text' : List Char} {o o' : FeedOutcome τ κ}
    (hreports : Reports policy text.length outcome o) (hreports' : Reports policy text'.length outcome' o')
    (hchar : ∀ error r, o = .failed error r → text[error.position]? = some error.char)
    (hchar' : ∀ error r, o' = .failed error r → text'[error.position]? = some error.char) :
    SameEnd depth text text' o o' := by
  cases hover with
  | done s =>
    cases hover'
    cases hreports
    cases hreports'
    refine .ended rfl rfl ?_ ?_
    · rw [Dialect.size_machine, ← hlevels]
      simp only [if_true]
      omega
    · rw [Dialect.size_machine, ← hlevels']
      simp only [if_true]
      omega
  | @stopped e _ hshows =>
    cases hover' with
    | stopped hshows' =>
      have hsame : outcome.map Machine.store = outcome'.map Machine.store := hshows.trans hshows'.symm
      cases hreports with
      | done m => exact absurd hshows.symm (view.stop_ne_done e m.store)
      | halted =>
        cases hreports' with
        | done | aborted => cases hsame
        | halted => exact .halted (Outcome.failed.inj hsame).2 rfl
        | failed _ _ hfault => exact absurd (Outcome.failed.inj hsame).1.symm hfault
      | @failed position c fault hfault =>
        cases hreports' with
        | done | aborted => cases hsame
        | halted => exact absurd (Outcome.failed.inj hsame).1 hfault
        | failed position' c' =>
          obtain ⟨rfl, hstore⟩ := Outcome.failed.inj hsame
          exact .failed (hchar _ _ rfl) (hchar' _ _ rfl) fault hstore rfl
      | aborted cause =>
        cases hreports' with
        | done | halted | failed => cases hsame
        | aborted cause' =>
          obtain rfl := Outcome.aborted.inj hsame
          exact .aborted cause

/-- The law for a runner inside any loops, recorded or replayed, and a body that is given as a tree. -/
theorem StoreCommands.unfolds [Tape τ] [Tape.Solid τ] (own : StoreCommands τ κ) {d : Dialect κ} {p : Program}
    (hacts : p.Forall d.Acts) (levels : List Level) {s : {s : Store τ // Tape.HasCell s.tape}}
    (hcell : (own.semantics d).cell s ≠ 0) (policy : Policy) {r : Runner τ κ}
    (hr : r = ⟨d.machine ⟨levels, 0⟩ s.1, policy, false⟩) {body : List Char} (hbody : p.text d.toBrackets = body) :
    ((∃ o, r.Yields own.host (d.loop body) o) ↔ ∃ o, r.Yields own.host (body ++ d.loop body) o) ∧
      ∀ o o', r.Yields own.host (d.loop body) o → r.Yields own.host (body ++ d.loop body) o' →
        FeedOutcome.SameEnd r.depth (d.loop body) (body ++ d.loop body) o o' := by
  subst hr hbody
  have himpl := own.implements_semantics d
  have hfolded := Dialect.tracks_loop himpl hacts (Dialect.tracks_text himpl hacts) levels s
  have hunfolded := Dialect.tracks_unfolded himpl hacts levels hcell
  have hloop : (Program.loop p .done).Forall d.Acts := ⟨hacts, trivial⟩
  have hknown : ∀ r, (own.semantics d).Evaluates (.loop p .done) s r →
      View.Known (.within fun s : Store τ => Tape.HasCell s.tape) r := by
    intro r hr
    exact own.known_of_evaluates hloop hr
  have hends := Runner.exists_yields_iff (κ := κ) hfolded hknown policy
  have hends' := Runner.exists_yields_iff (κ := κ) hunfolded hknown policy
  refine ⟨hends.trans hends'.symm, ?_⟩
  intro o o' ho ho'
  obtain ⟨result, hresult⟩ := hends.1 ⟨o, ho⟩
  obtain ⟨outcome, hover, hreports⟩ := ho.reports hfolded hknown hresult
  obtain ⟨outcome', hover', hreports'⟩ := ho'.reports hunfolded hknown hresult
  have hdepth : Runner.depth (κ := κ) ⟨d.machine ⟨levels, 0⟩ s.1, policy, false⟩ = levels.length + 1 := by
    rw [Runner.depth, Dialect.size_machine]
    simp only [if_true]
    omega
  refine FeedOutcome.sameEnd_of_reports hover hover' ?_ ?_ hreports hreports' ?_ ?_
  · rw [hdepth, Dialect.length_noteAll]
  · rw [hdepth, Dialect.length_noteAll, Dialect.length_noteAll]
  · rintro error r rfl
    exact ho.getElem?
  · rintro error r rfl
    exact ho'.getElem?

/-- A loop that is entered does what its body and then the loop do.  The runner may be inside any loops, if no call has
failed before. -/
theorem loop_unfolds [Tape τ] [Tape.Solid τ] {commands : CommandMap κ} (hcommands : commands.AddsCommands)
    (own : StoreCommands τ κ) (tape : τ) (policy : Policy) (input : Source) (output : Sink) {r₀ r : Runner τ κ}
    (hstart : Runner.start tape {} commands policy input output = .ok r₀) {fuel : Nat} {text : List Char}
    (hfed : r₀.executeAll own.host fuel text = .done r) (htop : ∀ skip, r.machine.stack.top? ≠ some (.skip skip))
    {value : Cell} {tape' : τ} (hread : Tape.read? r.machine.tape = some (value, tape')) (hvalue : value ≠ 0)
    {body : List Char} (hbalanced : Brackets.square.Balanced body)
    (hbound : ∀ c ∈ body, c = ']' ∨ ∃ command, commands[c]? = some command) :
    ((∃ o, r.Yields own.host (Brackets.square.loop body) o) ↔
        ∃ o, r.Yields own.host (body ++ Brackets.square.loop body) o) ∧
      ∀ o o', r.Yields own.host (Brackets.square.loop body) o →
        r.Yields own.host (body ++ Brackets.square.loop body) o' →
        FeedOutcome.SameEnd r.depth (Brackets.square.loop body) (body ++ Brackets.square.loop body) o o' := by
  let d := Dialect.withCommands commands hcommands
  obtain rfl := Except.ok.inj ((Runner.start_machine d tape policy input output).symm.trans hstart)
  have hroot : d.Nests (d.machine ⟨[], 0⟩ ⟨tape, input, output⟩) := ⟨_, _, rfl, trivial⟩
  obtain ⟨_, rfl, ⟨levels, skipped⟩, s, rfl, -⟩ := Runner.nests_of_executeAll hroot hfed
  cases skipped with
  | succ depth => exact absurd (Machine.top?_ofTower _ _ s) (htop _)
  | zero =>
    obtain ⟨p, hp⟩ := Program.exists_parse hbalanced
    have hacts : p.Forall d.Acts := by
      refine Program.forall_of_parse hp fun c hc hn hx => ?_
      exact Dialect.acts_of_knows (d := d) (hbound c hc) hn hx
    have hguard : Tape.read? s.tape = some (value, tape') := hread
    have hs : Tape.HasCell s.tape := Option.isSome_of_eq_some hguard
    have hcell : (own.semantics d).cell ⟨s, hs⟩ ≠ 0 := by
      simpa only [StoreCommands.semantics, hguard, Option.get_some] using hvalue
    exact own.unfolds hacts levels hcell policy rfl (Program.text_of_parse hp)

/-- The sink takes one byte.  The loop fails in its replay, on the bracket; after the body it fails on the command
itself.  Both are inside a loop that is being recorded. -/
theorem loop_unfolds_with_failing_host :
    let commands : CommandMap Unit := CommandMap.standard.insert '!' (.host ())
    let own : StoreCommands FixedTape Unit := .emitting 33
    let r : Runner FixedTape Unit :=
      ⟨⟨⟨#[2], 0⟩, { items := #[.plain commands, .recording { commands, exit := ']' }] }, .ofBytes [], .closingAfter 1⟩,
        .standard, false⟩
    ∃ r₀ r₁ o', Runner.start (⟨#[0], 0⟩ : FixedTape) {} commands .standard (.ofBytes []) (.closingAfter 1) = .ok r₀ ∧
      r₀.executeAll own.host 9 ['+', '+', '['] = .done r ∧
      r.feed own.host 9 ['[', '!', '-', ']'] = .failed ⟨3, ']', .io "sink closed"⟩ r₁ ∧
      r.Yields own.host ['!', '-', '[', '!', '-', ']'] o' ∧
      FeedOutcome.SameEnd 2 ['[', '!', '-', ']'] ['!', '-', '[', '!', '-', ']']
        (.failed ⟨3, ']', .io "sink closed"⟩ r₁) o' := by
  intro commands own r
  have hcommands : commands.AddsCommands := CommandMap.addsCommands_insert (by simp [CommandMap.bindings]) (by simp)
  have hstart :
      ∃ r₀, Runner.start (⟨#[0], 0⟩ : FixedTape) {} commands .standard (.ofBytes []) (.closingAfter 1) = .ok r₀ :=
    ⟨_, rfl⟩
  obtain ⟨r₀, hstart⟩ := hstart
  have hfed : r₀.executeAll own.host 9 ['+', '+', '['] = .done r := by
    cases hstart
    cbv
  have hfeed : ∃ r₁, r.feed own.host 9 ['[', '!', '-', ']'] = .failed ⟨3, ']', .io "sink closed"⟩ r₁ := ⟨_, by cbv⟩
  obtain ⟨r₁, hfeed⟩ := hfeed
  have hread : Tape.read? r.machine.tape = some (2, ⟨#[2], 0⟩) := rfl
  have hbound : ∀ c ∈ ['!', '-'], c = ']' ∨ ∃ command, commands[c]? = some command := by
    intro c hc
    simp only [List.mem_cons, List.not_mem_nil, or_false] at hc
    rcases hc with rfl | rfl
    · exact .inr ⟨_, rfl⟩
    · exact .inr ⟨_, rfl⟩
  obtain ⟨hreturns, hsame⟩ :=
    loop_unfolds hcommands own _ .standard _ _ hstart hfed (by rintro skip ⟨⟩) hread (by decide)
      (show Brackets.square.Balanced ['!', '-'] by decide) hbound
  have hyields : r.Yields own.host ['[', '!', '-', ']'] _ := ⟨by simp, 9, hfeed⟩
  obtain ⟨o', ho'⟩ := hreturns.1 ⟨_, hyields⟩
  exact ⟨r₀, r₁, o', hstart, hfed, hfeed, ho', hsame _ _ hyields ho'⟩

end TapeMachine
