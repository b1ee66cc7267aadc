import TapeMachine.Proofs.Brackets
import TapeMachine.Proofs.Store

/-!
# Nests of loops

The contexts that a program of one kind of loop can build, without the data that is the same for all of them.

* A `Dialect` is a command mapping and one of its pairs of brackets.  If there are others, the characters that open them
  are `Foreign`.
* A `Nest` lists the loops around a point of the program, the innermost first: for each loop that was entered, the
  text recorded so far and whether the recording is open, and the depth of the loop that is being skipped, if there is
  one.  `Dialect.machine` is the machine with the contexts of a nest.
* `note` is what a character does to the recordings: it is added to the open ones, up to the first that is closed.

The lemmas named `executeAt_*` say what each character does on such a machine.  Forwarding (`forward_note`) takes one
unit of fuel for each context it passes, hence the bounds on the fuel.
-/

namespace TapeMachine

/-- A command mapping and one of its pairs of brackets. -/
structure Dialect (κ : Type) extends Brackets where
  commands : CommandMap κ
  enter_bound : commands[enter]? = some (.enterLoop exit)

/-- The mapping has no other pair of brackets. -/
class Dialect.Sole {κ : Type} (d : Dialect κ) : Prop where
  enter_of_loop : ∀ c x, d.commands[c]? = some (.enterLoop x) → c = d.enter

/-- A loop that was entered. -/
structure Level where
  /-- The text recorded so far. -/
  body : List Char
  isOpen : Bool := true

/-- The loops around a point of the program. -/
structure Nest where
  /-- The loops that were entered, the innermost first. -/
  levels : List Level
  /-- The depth of the loop that is being skipped inside them, 0 if none is. -/
  skipped : Nat := 0

/-- The levels after a character: the open ones up to the first that is closed take it down. -/
def note (c : Char) : List Level → List Level
  | [] => []
  | level :: levels =>
    if level.isOpen then { level with body := level.body ++ [c] } :: note c levels else level :: levels

@[simp]
theorem note_nil (c : Char) : note c [] = [] := rfl

@[simp]
theorem note_open (c : Char) (body : List Char) (levels : List Level) :
    note c (⟨body, true⟩ :: levels) = ⟨body ++ [c], true⟩ :: note c levels := rfl

@[simp]
theorem note_closed (c : Char) (body : List Char) (levels : List Level) :
    note c (⟨body, false⟩ :: levels) = ⟨body, false⟩ :: levels := rfl

@[simp]
theorem length_note (c : Char) (levels : List Level) : (note c levels).length = levels.length := by
  induction levels with
  | nil => rfl
  | cons level levels ih =>
    unfold note
    split <;> simp [ih]

/-- The index of the context that a loop opened inside the levels passes its characters on to. -/
def scope : List Level → Option Nat
  | [] => none
  | _ :: levels => some (levels.length + 1)

@[simp]
theorem scope_note (c : Char) (levels : List Level) : scope (note c levels) = scope levels := by
  cases levels with
  | nil => rfl
  | cons level levels =>
    unfold note
    split <;> simp [scope]

theorem scope_eq (levels : List Level) : scope levels = if levels.length = 0 then none else some levels.length := by
  cases levels <;> simp [scope]

namespace Dialect

variable {κ : Type} (d : Dialect κ)

/-- The characters that mean something inside a loop. -/
def Knows (c : Char) : Prop := c = d.exit ∨ ∃ command, d.commands[c]? = some command

/-- The characters that stand for a command inside a loop, and do not open another. -/
def Acts (c : Char) : Prop := c ≠ d.exit ∧ ∃ command, d.commands[c]? = some command ∧ ∀ x, command ≠ .enterLoop x

/-- The characters that open loops of another kind. -/
def Foreign (c : Char) : Prop := c ≠ d.enter ∧ c ≠ d.exit ∧ ∃ x, d.commands[c]? = some (.enterLoop x)

/-- The context of a loop that was entered inside `levels`. -/
def recording (level : Level) (levels : List Level) : Context κ :=
  .recording ⟨d.commands, d.exit, level.body.toArray, level.isOpen, scope levels⟩

/-- The context of a loop that is skipped inside `levels`. -/
def skipping (depth : Nat) (levels : List Level) : Context κ :=
  .skip ⟨d.commands, d.enter, d.exit, depth, scope levels⟩

/-- The contexts of the levels and of the program, the innermost first. -/
def tower : List Level → List (Context κ)
  | [] => [.plain d.commands]
  | level :: levels => d.recording level levels :: tower levels

/-- The contexts of a nest, the innermost first. -/
def contexts (nest : Nest) : List (Context κ) :=
  if nest.skipped = 0 then d.tower nest.levels else d.skipping nest.skipped nest.levels :: d.tower nest.levels

/-- The machine with the contexts of a nest. -/
def machine {τ : Type} (nest : Nest) (s : Store τ) : Machine τ κ := .ofTower (d.contexts nest) s

@[simp]
theorem length_tower (levels : List Level) : (d.tower levels).length = levels.length + 1 := by
  induction levels with
  | nil => rfl
  | cons level levels ih => simp [tower, ih]

theorem contexts_levels (levels : List Level) : d.contexts ⟨levels, 0⟩ = d.tower levels := rfl

theorem contexts_skipped (levels : List Level) (depth : Nat) :
    d.contexts ⟨levels, depth + 1⟩ = d.skipping (depth + 1) levels :: d.tower levels := rfl

theorem recording_note (level : Level) (c : Char) (levels : List Level) :
    d.recording level (note c levels) = d.recording level levels := by
  rw [recording, recording, scope_note]

theorem skipping_note (depth : Nat) (c : Char) (levels : List Level) :
    d.skipping depth (note c levels) = d.skipping depth levels := by
  rw [skipping, skipping, scope_note]

theorem knows_enter : d.Knows d.enter := .inr ⟨_, d.enter_bound⟩

theorem knows_exit : d.Knows d.exit := .inl rfl

variable {d}

theorem knows_of_acts {c : Char} (h : d.Acts c) : d.Knows c := by
  obtain ⟨-, command, hc, -⟩ := h
  exact .inr ⟨command, hc⟩

theorem ne_enter_of_acts {c : Char} (h : d.Acts c) : c ≠ d.enter := by
  rintro rfl
  obtain ⟨-, command, hc, hloop⟩ := h
  rw [d.enter_bound, Option.some.injEq] at hc
  exact hloop _ hc.symm

theorem ne_exit_of_acts {c : Char} (h : d.Acts c) : c ≠ d.exit := h.1

theorem not_foreign_of_acts {c : Char} (h : d.Acts c) : ¬d.Foreign c := by
  rintro ⟨-, -, x, hx⟩
  obtain ⟨-, command, hc, hloop⟩ := h
  exact hloop x (Option.some.inj (hc.symm.trans hx))

theorem not_foreign [d.Sole] (c : Char) : ¬d.Foreign c := by
  rintro ⟨hn, -, x, hx⟩
  exact hn (Sole.enter_of_loop c x hx)

/-- A known character is a bracket or acts, or opens a loop of another kind. -/
theorem knows_iff {c : Char} : d.Knows c ↔ c = d.enter ∨ c = d.exit ∨ d.Acts c ∨ d.Foreign c := by
  constructor
  · rintro (rfl | ⟨command, hc⟩)
    · exact .inr (.inl rfl)
    · by_cases hn : c = d.enter
      · exact .inl hn
      by_cases hx : c = d.exit
      · exact .inr (.inl hx)
      by_cases hloop : ∃ x, command = .enterLoop x
      · obtain ⟨x, rfl⟩ := hloop
        exact .inr (.inr (.inr ⟨hn, hx, x, hc⟩))
      · exact .inr (.inr (.inl ⟨hx, command, hc, fun x hx => hloop ⟨x, hx⟩⟩))
  · rintro (rfl | rfl | h | ⟨-, -, x, hc⟩)
    · exact d.knows_enter
    · exact d.knows_exit
    · exact knows_of_acts h
    · exact .inr ⟨_, hc⟩

theorem acts_of_knows [d.Sole] {c : Char} (h : d.Knows c) (hn : c ≠ d.enter) (hx : c ≠ d.exit) : d.Acts c := by
  rcases knows_iff.1 h with h | h | h | h
  · exact absurd h hn
  · exact absurd h hx
  · exact h
  · exact absurd h (not_foreign c)

section

variable {τ : Type}

open Machine (ofTower)

/-- The index of the context on top. -/
def topIndex (nest : Nest) : Nat := if nest.skipped = 0 then nest.levels.length else nest.levels.length + 1

@[simp]
theorem topIndex?_machine (nest : Nest) (s : Store τ) :
    (d.machine nest s).stack.topIndex? = some (topIndex nest) := by
  obtain ⟨levels, skipped⟩ := nest
  cases skipped with
  | zero =>
    cases levels with
    | nil => rfl
    | cons level levels => simp [machine, contexts, tower, topIndex]
  | succ depth => simp [machine, contexts, topIndex]

theorem replayPass_machine (execute : Nat → Char → Machine τ κ → Outcome (Machine τ κ)) (c : Char) (rest : List Char)
    (nest : Nest) (s : Store τ) :
    Machine.replayPass execute (c :: rest) (d.machine nest s) =
      (execute (topIndex nest) c (d.machine nest s)).andThen (Machine.replayPass execute rest) := by
  simp only [Machine.replayPass, topIndex?_machine]

/-! ### Passing a character on -/

/-- The level after its recording has saved a character. -/
private def saved (c : Char) (level : Level) : Level :=
  if level.isOpen then { level with body := level.body ++ [c] } else level

/-- Saving a character changes the recording at the index of the level. -/
private theorem saveAt_ofTower (above : List (Context κ)) (level : Level) (levels : List Level) (c : Char)
    (s : Store τ) :
    (ofTower (above ++ d.recording level levels :: d.tower levels) s).saveAt (levels.length + 1) c =
      ofTower (above ++ d.recording (saved c level) levels :: d.tower levels) s := by
  rw [← length_tower d levels, recording, Machine.saveAt_ofTower]
  cases h : level.isOpen <;> simp [recording, Recording.save, saved, h]

/-- What a known character does in a recording. -/
private theorem exists_effect {c : Char} (hc : d.Knows c) (level : Level) (levels : List Level) :
    ∃ effect,
      Recording.effect? ⟨d.commands, d.exit, level.body.toArray, level.isOpen, scope levels⟩ c = some effect := by
  by_cases hx : c = d.exit
  · exact ⟨.replay, Recording.effect?_eq_replay_iff.2 hx⟩
  · obtain ⟨command, hcommand⟩ := hc.resolve_left hx
    exact ⟨.invoke command, Recording.effect?_eq_invoke_iff.2 ⟨hx, hcommand⟩⟩

end

section

variable {τ : Type} [Tape τ] (custom : κ → Store τ → Outcome (Store τ)) {c : Char} {fuel : Nat}

open Machine (ofTower onStore executeAt)

/-- A recording saves a character and passes it on, if the contexts below it do what they should. -/
private theorem saveAt_forward (level : Level) {above : List (Context κ)} {levels : List Level} {s : Store τ}
    (hbelow : level.isOpen → (ofTower (above ++ d.recording (saved c level) levels :: d.tower levels) s).forward
        (executeAt (onStore custom) fuel) (scope levels) c =
      .done (ofTower (above ++ d.recording (saved c level) levels :: d.tower (note c levels)) s)) :
    ((ofTower (above ++ d.tower (level :: levels)) s).saveAt (levels.length + 1) c).forward
        (executeAt (onStore custom) fuel)
        (Recording.forward? ⟨d.commands, d.exit, level.body.toArray, level.isOpen, scope levels⟩) c =
      .done (ofTower (above ++ d.tower (note c (level :: levels))) s) := by
  rw [tower, saveAt_ofTower]
  obtain ⟨body, isOpen⟩ := level
  cases isOpen with
  | true =>
    rw [note_open, tower, recording_note]
    exact hbelow rfl
  | false => rfl

/-- A character that is passed on reaches the open recordings up to the first closed one, and does nothing else. -/
theorem forward_note (hc : d.Knows c) (levels : List Level) (hfuel : levels.length ≤ fuel) (s : Store τ)
    (above : List (Context κ)) (top : Context κ) :
    (ofTower (above ++ top :: d.tower levels) s).forward (executeAt (onStore custom) fuel) (scope levels) c =
      .done (ofTower (above ++ top :: d.tower (note c levels)) s) := by
  induction levels generalizing above top fuel with
  | nil => rfl
  | cons level levels ih =>
    rw [List.length_cons] at hfuel
    obtain ⟨fuel, rfl⟩ : ∃ n, fuel = n + 1 := ⟨fuel - 1, by omega⟩
    have hlen : levels.length ≤ fuel := by omega
    obtain ⟨effect, heffect⟩ := exists_effect hc level levels
    have habove : above ++ [top] ≠ [] := by simp
    have htop := Machine.topIndex?_above habove (d.recording level levels) (d.tower levels) s
    have hget := Machine.get?_ofTower (above ++ [top]) (d.recording level levels) (d.tower levels) s
    have hbelow := ih hlen (above ++ [top]) (d.recording (saved c level) levels)
    have hforward := saveAt_forward custom level fun _ => hbelow
    rw [length_tower] at htop hget
    rw [List.append_assoc] at htop hget
    rw [List.append_assoc, List.append_assoc] at hforward
    exact (Machine.executeAt_recording_below hget htop heffect fuel).trans hforward

/-- Without enough fuel a character that is passed on may be cut short. -/
theorem forward_note_or (hc : d.Knows c) (levels : List Level) (fuel : Nat) (s : Store τ) (above : List (Context κ))
    (top : Context κ) :
    (ofTower (above ++ top :: d.tower levels) s).forward (executeAt (onStore custom) fuel) (scope levels) c =
        .aborted .outOfFuel ∨
      (ofTower (above ++ top :: d.tower levels) s).forward (executeAt (onStore custom) fuel) (scope levels) c =
        .done (ofTower (above ++ top :: d.tower (note c levels)) s) := by
  cases levels with
  | nil => exact .inr rfl
  | cons level levels =>
    by_cases hout : executeAt (onStore custom) fuel (levels.length + 1) c
        (ofTower (above ++ top :: d.tower (level :: levels)) s) = .aborted .outOfFuel
    · exact .inl hout
    · right
      have hmore := Machine.executeAt_extends (onStore custom) (Nat.le_add_left fuel (level :: levels).length)
        (levels.length + 1) c _ hout
      have hnote := forward_note custom hc (level :: levels) (Nat.le_add_right _ fuel) s above top
      exact hmore.symm.trans hnote

/-! ### The context on top at work -/

/-- What a character that acts does to the store. -/
def act (d : Dialect κ) (custom : κ → Store τ → Outcome (Store τ)) (c : Char) (s : Store τ) : Outcome (Store τ) :=
  match d.commands[c]? with
  | some command => s.perform custom command
  | none => .failed (.unknownCharacter c) s

/-- The context on top notes the character of a command and carries the command out. -/
theorem executeAt_command (hne : c ≠ d.exit) {command : Command κ} (hcommand : d.commands[c]? = some command)
    (levels : List Level) (hfuel : levels.length ≤ fuel) (s : Store τ) :
    executeAt (onStore custom) (fuel + 1) levels.length c (d.machine ⟨levels, 0⟩ s) =
      (d.machine ⟨note c levels, 0⟩ s).invoke (onStore custom) command c (scope levels) := by
  cases levels with
  | nil => exact Machine.executeAt_plain (Machine.get?_ofTower_top (.plain d.commands) [] s) hcommand fuel
  | cons level levels =>
    have hget := Machine.get?_ofTower_top (d.recording level levels) (d.tower levels) s
    have htop := Machine.topIndex?_ofTower (d.recording level levels) (d.tower levels) s
    rw [length_tower] at hget htop
    have heffect : Recording.effect? ⟨d.commands, d.exit, level.body.toArray, level.isOpen, scope levels⟩ c =
        some (.invoke command) := Recording.effect?_eq_invoke_iff.2 ⟨hne, hcommand⟩
    rw [List.length_cons] at hfuel
    have hlen : levels.length ≤ fuel := by omega
    have hbelow := forward_note custom (.inr ⟨command, hcommand⟩) levels hlen s [] (d.recording (saved c level) levels)
    have hforward := saveAt_forward custom level fun _ => hbelow
    exact (Machine.executeAt_recording_invoke hget htop heffect fuel).trans
      (congrArg (Outcome.andThen · _) hforward)

/-- A character that acts is noted, and then does what it does to the store. -/
theorem executeAt_act (hc : d.Acts c) (levels : List Level) (hfuel : levels.length ≤ fuel) (s : Store τ) :
    executeAt (onStore custom) (fuel + 1) levels.length c (d.machine ⟨levels, 0⟩ s) =
      (d.act custom c s).map (d.machine ⟨note c levels, 0⟩) := by
  obtain ⟨hne, command, hcommand, hloop⟩ := hc
  rw [executeAt_command custom hne hcommand levels hfuel, act, hcommand]
  exact Machine.invoke_ofTower custom hloop c _ _ s

private theorem enterLoop_machine (levels : List Level) (s : Store τ) :
    (d.machine ⟨levels, 0⟩ s).enterLoop d.enter d.exit (scope levels) =
      match s.guard? with
      | some (value, s) => .done (d.machine (if value = 0 then ⟨levels, 1⟩ else ⟨⟨[], true⟩ :: levels, 0⟩) s)
      | none => .aborted .noCell := by
  obtain ⟨context, below, htower, hcommands⟩ :
      ∃ context below, d.tower levels = context :: below ∧ context.commands = d.commands := by
    cases levels with
    | nil => exact ⟨_, _, rfl, rfl⟩
    | cons level levels => exact ⟨_, _, rfl, rfl⟩
  rw [machine, contexts_levels, htower, Machine.enterLoop_ofTower, hcommands, ← htower]
  cases s.guard? with
  | none => rfl
  | some read =>
    obtain ⟨value, s⟩ := read
    by_cases hv : value = 0
    · simp only [hv, if_true, machine, contexts_skipped, skipping]
    · simp only [if_neg hv, machine, contexts_levels, tower, recording]

/-- The opening bracket is noted, and opens a loop that is skipped or recorded. -/
theorem executeAt_enter (levels : List Level) (hfuel : levels.length ≤ fuel) (s : Store τ) :
    executeAt (onStore custom) (fuel + 1) levels.length d.enter (d.machine ⟨levels, 0⟩ s) =
      match s.guard? with
      | some (value, s) =>
        .done (d.machine (if value = 0 then ⟨note d.enter levels, 1⟩ else ⟨⟨[], true⟩ :: note d.enter levels, 0⟩) s)
      | none => .aborted .noCell := by
  rw [executeAt_command custom d.distinct.symm d.enter_bound levels hfuel, Machine.invoke, ← scope_note d.enter,
    enterLoop_machine]

/-- Closing the loop on top and replaying it.  `hclose` says what is left of the recording. -/
private theorem exitLoop_machine (fuel : Nat) (level : Level) (levels : List Level) {body : List Char}
    (hclose : Recording.close (κ := κ) ⟨d.commands, d.exit, level.body.toArray, level.isOpen, scope levels⟩ =
      ⟨d.commands, d.exit, body.toArray, false, scope levels⟩) (s : Store τ) :
    (d.machine ⟨level :: levels, 0⟩ s).exitLoop (executeAt (onStore custom) fuel) fuel (levels.length + 1) =
      (Machine.replay (executeAt (onStore custom) fuel) body fuel
        (d.machine ⟨⟨body, false⟩ :: levels, 0⟩ s)).andThen Machine.popContext := by
  have hget := Machine.get?_ofTower_top (d.recording level levels) (d.tower levels) s
  have hmodify := Machine.modifyContext_ofTower [] (d.recording level levels) (d.tower levels) s fun _ =>
    .recording ⟨d.commands, d.exit, body.toArray, false, scope levels⟩
  rw [length_tower] at hget hmodify
  rw [List.nil_append, List.nil_append] at hmodify
  rw [machine, contexts_levels, tower, Machine.exitLoop, hget]
  simp only [recording, hclose]
  simp only [recording] at hmodify
  rw [hmodify]
  rfl

/-- The closing bracket is noted by the loops around, closes the loop on top and replays it. -/
private theorem executeAt_exit_of_forward {body : List Char} {isOpen : Bool} {levels : List Level} {s : Store τ}
    (hbelow : isOpen → (ofTower ([] ++ d.recording (saved d.exit ⟨body, isOpen⟩) levels :: d.tower levels) s).forward
        (executeAt (onStore custom) fuel) (scope levels) d.exit =
      .done (ofTower ([] ++ d.recording (saved d.exit ⟨body, isOpen⟩) levels :: d.tower (note d.exit levels)) s)) :
    executeAt (onStore custom) (fuel + 1) (levels.length + 1) d.exit (d.machine ⟨⟨body, isOpen⟩ :: levels, 0⟩ s) =
      (Machine.replay (executeAt (onStore custom) fuel) body fuel
        (d.machine ⟨⟨body, false⟩ :: if isOpen then note d.exit levels else levels, 0⟩ s)).andThen
          Machine.popContext := by
  have hget := Machine.get?_ofTower_top (d.recording ⟨body, isOpen⟩ levels) (d.tower levels) s
  have htop := Machine.topIndex?_ofTower (d.recording ⟨body, isOpen⟩ levels) (d.tower levels) s
  rw [length_tower] at hget htop
  have heffect : Recording.effect? ⟨d.commands, d.exit, body.toArray, isOpen, scope levels⟩ d.exit = some .replay :=
    Recording.effect?_eq_replay_iff.2 rfl
  have hforward := saveAt_forward custom ⟨body, isOpen⟩ hbelow
  refine (Machine.executeAt_recording_replay hget htop heffect fuel).trans
    ((congrArg (Outcome.andThen · _) hforward).trans ?_)
  cases isOpen with
  | true =>
    -- the bracket was saved just before, and closing drops it again
    have hclose : Recording.close (κ := κ) ⟨d.commands, d.exit, (body ++ [d.exit]).toArray, true,
        scope (note d.exit levels)⟩ = ⟨d.commands, d.exit, body.toArray, false, scope (note d.exit levels)⟩ := by
      simp [Recording.close]
    have hexit := exitLoop_machine custom fuel ⟨body ++ [d.exit], true⟩ _ hclose s
    rw [length_note] at hexit
    exact hexit
  | false =>
    exact exitLoop_machine custom fuel ⟨body, false⟩ levels rfl s

theorem executeAt_exit (body : List Char) (isOpen : Bool) (levels : List Level) (hfuel : levels.length ≤ fuel)
    (s : Store τ) :
    executeAt (onStore custom) (fuel + 1) (levels.length + 1) d.exit (d.machine ⟨⟨body, isOpen⟩ :: levels, 0⟩ s) =
      (Machine.replay (executeAt (onStore custom) fuel) body fuel
        (d.machine ⟨⟨body, false⟩ :: if isOpen then note d.exit levels else levels, 0⟩ s)).andThen
          Machine.popContext :=
  executeAt_exit_of_forward custom fun _ => forward_note custom d.knows_exit levels hfuel s _ _

theorem executeAt_exit_or (body : List Char) (isOpen : Bool) (levels : List Level) (fuel : Nat) (s : Store τ) :
    executeAt (onStore custom) (fuel + 1) (levels.length + 1) d.exit (d.machine ⟨⟨body, isOpen⟩ :: levels, 0⟩ s) =
        .aborted .outOfFuel ∨
      executeAt (onStore custom) (fuel + 1) (levels.length + 1) d.exit (d.machine ⟨⟨body, isOpen⟩ :: levels, 0⟩ s) =
        (Machine.replay (executeAt (onStore custom) fuel) body fuel
          (d.machine ⟨⟨body, false⟩ :: if isOpen then note d.exit levels else levels, 0⟩ s)).andThen
            Machine.popContext := by
  cases isOpen with
  | false => exact .inr (executeAt_exit_of_forward custom nofun)
  | true =>
    rcases forward_note_or custom d.knows_exit levels fuel s [] (d.recording ⟨body ++ [d.exit], true⟩ levels)
      with hout | hdone
    · left
      have hget := Machine.get?_ofTower_top (d.recording ⟨body, true⟩ levels) (d.tower levels) s
      have htop := Machine.topIndex?_ofTower (d.recording ⟨body, true⟩ levels) (d.tower levels) s
      have hsave := saveAt_ofTower (d := d) [] ⟨body, true⟩ levels d.exit s
      rw [length_tower] at hget htop
      refine (Machine.executeAt_recording_replay hget htop (Recording.effect?_eq_replay_iff.2 rfl) fuel).trans ?_
      rw [List.nil_append] at hsave
      rw [hsave]
      exact congrArg (Outcome.andThen · _) hout
    · exact .inr (executeAt_exit_of_forward custom fun _ => hdone)

omit [Tape τ] in
/-- A skip context counts the brackets, and is gone when they are even. -/
private theorem countAt_machine (levels : List Level) (depth : Nat) (s : Store τ) :
    (d.machine ⟨levels, depth + 1⟩ s).countAt (levels.length + 1) c =
      .done (d.machine ⟨levels, if c = d.enter then depth + 2 else if c = d.exit then depth else depth + 1⟩ s) := by
  let counted (depth : Nat) : Skip κ := ⟨d.commands, d.enter, d.exit, depth, scope levels⟩
  have hcount : (counted (depth + 1)).count? c =
      some (counted (if c = d.enter then depth + 2 else if c = d.exit then depth else depth + 1)) := by
    simp only [Skip.count?, counted]
    split_ifs <;> rfl
  have hcountAt := Machine.countAt_ofTower hcount (d.tower levels) s
  rw [length_tower] at hcountAt
  rw [machine, contexts_skipped, skipping, hcountAt]
  by_cases hn : c = d.enter
  · simp [Skip.isOver, counted, hn, machine, contexts, skipping]
  by_cases hx : c = d.exit
  · cases depth <;> simp [Skip.isOver, counted, hx, machine, contexts, skipping]
  · simp [Skip.isOver, counted, hn, hx, machine, contexts, skipping]

private theorem recognizes_iff (levels : List Level) (depth : Nat) :
    Skip.recognizes ⟨d.commands, d.enter, d.exit, depth, scope levels⟩ c ↔ d.Knows c := by
  rw [Skip.recognizes_iff, Option.ne_none_iff_exists', Knows]
  constructor
  · rintro (rfl | h)
    · exact .inr ⟨_, d.enter_bound⟩
    · exact h
  · exact .inr

/-- Inside a skipped loop a character is noted by the loops around, and the brackets are counted. -/
theorem executeAt_skipped (hc : d.Knows c) (levels : List Level) (depth : Nat) (hfuel : levels.length ≤ fuel)
    (s : Store τ) :
    executeAt (onStore custom) (fuel + 1) (levels.length + 1) c (d.machine ⟨levels, depth + 1⟩ s) =
      .done (d.machine ⟨note c levels, if c = d.enter then depth + 2 else if c = d.exit then depth else depth + 1⟩ s)
      := by
  have hget := Machine.get?_ofTower_top (d.skipping (depth + 1) levels) (d.tower levels) s
  have htop := Machine.topIndex?_ofTower (d.skipping (depth + 1) levels) (d.tower levels) s
  rw [length_tower] at hget htop
  have hforward := forward_note custom hc levels hfuel s [] (d.skipping (depth + 1) levels)
  have hcount := countAt_machine (d := d) (c := c) (note c levels) depth s
  rw [length_note] at hcount
  rw [← hcount]
  refine (Machine.executeAt_skip hget htop ((recognizes_iff levels _).2 hc) fuel).trans
    ((congrArg (Outcome.andThen · _) hforward).trans ?_)
  rw [machine, contexts_skipped, skipping_note]
  rfl

/-! ### Characters that mean nothing -/

/-- The characters that mean nothing at a point of the program. -/
def Unknown (d : Dialect κ) (nest : Nest) (c : Char) : Prop :=
  ¬d.Knows c ∨ c = d.exit ∧ d.commands[c]? = none ∧ nest.levels = [] ∧ nest.skipped = 0

/-- A character that means nothing is refused, and leaves no trace. -/
theorem executeAt_unknown {nest : Nest} (hc : d.Unknown nest c) (fuel : Nat) (s : Store τ) :
    executeAt (onStore custom) (fuel + 1) (topIndex nest) c (d.machine nest s) =
      .failed (.unknownCharacter c) (d.machine nest s) := by
  obtain ⟨levels, skipped⟩ := nest
  have hunbound : d.commands[c]? = none := by
    rcases hc with hc | ⟨-, hunbound, -⟩
    · cases hcommand : d.commands[c]? with
      | none => rfl
      | some command => exact absurd (.inr ⟨command, hcommand⟩) hc
    · exact hunbound
  cases skipped with
  | zero =>
    cases levels with
    | nil => exact Machine.executeAt_plain_unknown (Machine.get?_ofTower_top (.plain d.commands) [] s) hunbound fuel
    | cons level levels =>
      have hget := Machine.get?_ofTower_top (d.recording level levels) (d.tower levels) s
      rw [length_tower] at hget
      refine Machine.executeAt_recording_unknown hget ?_ fuel
      have hne : c ≠ d.exit := by
        rintro rfl
        rcases hc with hc | ⟨-, -, hlevels, -⟩
        · exact hc d.knows_exit
        · cases hlevels
      exact Recording.effect?_eq_none_iff.2 ⟨hne, hunbound⟩
  | succ depth =>
    have hget := Machine.get?_ofTower_top (d.skipping (depth + 1) levels) (d.tower levels) s
    rw [length_tower] at hget
    refine Machine.executeAt_skip_unknown hget ?_ fuel
    rw [recognizes_iff]
    rcases hc with hc | ⟨-, -, -, hskipped⟩
    · exact hc
    · cases hskipped

end

end Dialect

end TapeMachine
