import TapeMachine.Proofs.Nest

/-!
# The commands of the language

The language as a dialect, its eight characters, and the faults that its commands have.
-/

namespace TapeMachine

variable {κ : Type}

namespace CommandMap

theorem getElem?_standard_iff {c : Char} {command : Command κ} :
    (standard : CommandMap κ)[c]? = some command ↔ (c, command) ∈ bindings κ := by
  have hlist : (standard : CommandMap κ).toList =
      [('+', .increment), (',', .input), ('-', .decrement), ('.', .output), ('<', .moveLeft), ('>', .moveRight),
        ('[', .enterLoop ']')] := rfl
  rw [← Std.TreeMap.mem_toList_iff_getElem?_eq_some, hlist]
  simp only [bindings, List.mem_cons, List.not_mem_nil, or_false]
  constructor
  · rintro (h | h | h | h | h | h | h) <;> simp only [h, true_or, or_true]
  · rintro (h | h | h | h | h | h | h) <;> simp only [h, true_or, or_true]

/-- The characters of the language stand for their commands, and any others for the end of the run. -/
structure AddsHalts (commands : CommandMap κ) : Prop where
  bound {c : Char} {command : Command κ} (h : (c, command) ∈ bindings κ) : commands[c]? = some command
  halt {c : Char} {command : Command κ} (h : commands[c]? = some command) : (c, command) ∈ bindings κ ∨ command = .halt

theorem addsHalts_standard : (standard : CommandMap κ).AddsHalts :=
  ⟨getElem?_standard_iff.2, fun h => .inl (getElem?_standard_iff.1 h)⟩

theorem AddsHalts.insert {commands : CommandMap κ} (h : commands.AddsHalts) {c : Char}
    (hc : ∀ command, (c, command) ∉ bindings κ) : AddsHalts (Std.TreeMap.insert commands c .halt) := by
  constructor
  · intro c' command hmem
    have hne : c ≠ c' := by
      rintro rfl
      exact hc command hmem
    rw [Std.TreeMap.getElem?_insert, if_neg (by simpa using hne)]
    exact h.bound hmem
  · intro c' command hget
    rw [Std.TreeMap.getElem?_insert] at hget
    split at hget
    · exact .inr (Option.some.inj hget).symm
    · exact h.halt hget

end CommandMap

/-- The characters of the language. -/
def commandChars : List Char := ['>', '<', '+', '-', '.', ',', '[', ']']

/-- Whether a character belongs to the language. -/
def isCommandChar (c : Char) : Bool := commandChars.contains c

namespace Dialect

/-- The language with more characters that end the run. -/
def withHalts (commands : CommandMap κ) (h : commands.AddsHalts) : Dialect κ where
  toBrackets := .square
  commands := commands
  enter_bound := h.bound (by simp [CommandMap.bindings, Brackets.square])

instance (commands : CommandMap κ) (h : commands.AddsHalts) : (withHalts commands h).Sole where
  enter_of_loop c x hc := by
    rcases h.halt hc with hmem | hhalt
    · simp only [CommandMap.bindings, List.mem_cons, Prod.mk.injEq, reduceCtorEq, and_false, false_or,
        List.not_mem_nil, or_false] at hmem
      exact hmem.1
    · cases hhalt

/-- The language as it is. -/
def standard : Dialect κ := withHalts .standard CommandMap.addsHalts_standard

instance : (standard : Dialect κ).Sole := inferInstanceAs (withHalts _ _).Sole

theorem knows_standard_iff {c : Char} : (standard : Dialect κ).Knows c ↔ isCommandChar c := by
  have hbound : (∃ command : Command κ, (standard : Dialect κ).commands[c]? = some command) ↔
      c ∈ (CommandMap.bindings κ).map Prod.fst := by
    simp only [standard, withHalts, CommandMap.getElem?_standard_iff, List.mem_map, Prod.exists, exists_and_right,
      exists_eq_right]
  rw [Knows, hbound]
  simp only [standard, withHalts, Brackets.square, CommandMap.bindings, List.map_cons, List.map_nil, List.mem_cons,
    List.not_mem_nil, or_false, isCommandChar, commandChars, List.contains_cons, List.contains_nil, Bool.or_eq_true,
    beq_iff_eq, Bool.false_eq_true]
  constructor
  · rintro (h | h | h | h | h | h | h | h) <;> simp only [h, true_or, or_true]
  · rintro (h | h | h | h | h | h | h | h) <;> simp only [h, true_or, or_true]

end Dialect

/-! ### Faults -/

variable {τ : Type} [Tape τ]

/-- How a command can fail on a store. -/
inductive Store.Fails (custom : κ → Store τ → Outcome (Store τ)) (s : Store τ) :
    Command κ → Fault → Store τ → Prop where
  | outOfBounds {command : Command κ} (cause : OutOfBounds) : Fails custom s command (.outOfBounds cause) s
  | sink {command : Command κ} {value : Cell} {tape : τ} {byte : UInt8} {reason : String} {output : Sink}
    (hread : Tape.read? s.tape = some (value, tape)) (hwrite : s.output.write byte = (.error reason, output)) :
    Fails custom s command (.io reason) ⟨tape, s.input, output⟩
  | source {command : Command κ} {reason : String} {input : Source} (hread : s.input.read = (.error reason, input)) :
    Fails custom s command (.io reason) ⟨s.tape, input, s.output⟩
  | halt : Fails custom s .halt .runOver s
  | host {command : κ} {fault : Fault} {s' : Store τ} (h : custom command s = .failed fault s') :
    Fails custom s (.host command) fault s'

theorem Store.fails_of_perform {custom : κ → Store τ → Outcome (Store τ)} {command : Command κ}
    (hloop : ∀ x, command ≠ .enterLoop x) {s s' : Store τ} {fault : Fault}
    (h : s.perform custom command = .failed fault s') : s.Fails custom command fault s' := by
  unfold Store.perform at h
  cases command with
  | moveRight | moveLeft =>
    simp only [Machine.invoke, Machine.moveBy, Machine.moveTo] at h
    split at h
    · split at h <;> cases h
      exact .outOfBounds _
    · cases h
  | increment | decrement =>
    simp only [Machine.invoke, Machine.changeCell, Machine.withCell, Machine.setCell, Machine.ofTower] at h
    split at h
    · split at h <;> cases h
    · cases h
  | output =>
    simp only [Machine.invoke, Machine.withCell, Machine.emit, Machine.ofTower] at h
    split at h
    · next hread =>
      split at h
      · cases h
      · next hwrite =>
        cases h
        exact .sink hread hwrite
    · cases h
  | input =>
    simp only [Machine.invoke, Machine.accept, Machine.setCell, Machine.ofTower] at h
    split at h
    · split at h <;> cases h
    · cases h
    · next hread =>
      cases h
      exact .source hread
  | enterLoop x => exact absurd rfl (hloop x)
  | halt =>
    cases h
    exact .halt
  | host command =>
    simp only [Machine.invoke, Machine.onStore, Machine.store_ofTower] at h
    cases hcustom : custom command s with
    | done s' | aborted cause =>
      rw [hcustom] at h
      cases h
    | failed fault' s' =>
      rw [hcustom] at h
      cases h
      exact .host hcustom

/-- The faults of the commands that are not the host's. -/
def Fault.IsOwn : Fault → Prop
  | .outOfBounds _ | .io _ | .runOver => True
  | .unknownCharacter _ | .emptyStack => False

theorem Store.isOwn_of_perform {command : Command Empty} (hloop : ∀ x, command ≠ .enterLoop x) {s s' : Store τ}
    {fault : Fault} (h : s.perform Machine.noCustom command = .failed fault s') : fault.IsOwn := by
  cases Store.fails_of_perform hloop h with
  | outOfBounds | sink | source | halt => trivial
  | @host command => cases command

theorem Dialect.isOwn_of_act {d : Dialect Empty} {c : Char} (hc : d.Acts c) {s s' : Store τ} {fault : Fault}
    (h : d.act Machine.noCustom c s = .failed fault s') : fault.IsOwn := by
  obtain ⟨-, command, hcommand, hloop⟩ := hc
  rw [Dialect.act, hcommand] at h
  exact Store.isOwn_of_perform hloop h

end TapeMachine
