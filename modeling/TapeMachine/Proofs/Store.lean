import Mathlib.Data.List.Basic
import TapeMachine.Engine.Fuel

/-!
# Machines as a tower of contexts over a store

A machine is a stack of contexts and the rest: a tape, a source and a sink (`Store`).  Most commands touch the rest
only.  `Machine.ofTower` puts the two together, the contexts being listed from the innermost to the outermost, and the
lemmas about it say what each step of a machine does to the two parts.
-/

namespace TapeMachine

/-- What is left of a machine without its contexts. -/
structure Store (τ : Type) where
  tape : τ
  input : Source
  output : Sink

namespace Outcome

variable {σ ρ : Type}

/-- The same outcome, seen through `f`. -/
def map (f : σ → ρ) : Outcome σ → Outcome ρ
  | done s => done (f s)
  | failed fault s => failed fault (f s)
  | aborted cause => aborted cause

@[simp]
theorem map_done (f : σ → ρ) (s : σ) : (done s).map f = done (f s) := rfl

@[simp]
theorem map_failed (f : σ → ρ) (fault : Fault) (s : σ) : (failed fault s).map f = failed fault (f s) := rfl

@[simp]
theorem map_aborted (f : σ → ρ) (cause : Abort) : (aborted cause : Outcome σ).map f = aborted cause := rfl

theorem andThen_eq_done_iff {o : Outcome σ} {next : σ → Outcome σ} {s' : σ} :
    o.andThen next = done s' ↔ ∃ s, o = done s ∧ next s = done s' := by
  cases o <;> simp

end Outcome

variable {τ κ : Type}

namespace Machine

def store (m : Machine τ κ) : Store τ := ⟨m.tape, m.input, m.output⟩

/-- The machine with another store. -/
def withStore (m : Machine τ κ) (s : Store τ) : Machine τ κ := ⟨s.tape, m.stack, s.input, s.output⟩

/-- What the commands of a host do if they work on the store alone. -/
def onStore (custom : κ → Store τ → Outcome (Store τ)) (command : κ) (m : Machine τ κ) : Outcome (Machine τ κ) :=
  (custom command m.store).map m.withStore

/-- What the commands of a host do to the store if the host has none. -/
def noCustom (command : Empty) : Store τ → Outcome (Store τ) := nomatch command

theorem noHost_eq_onStore : (noHost : Empty → Machine τ Empty → _) = onStore noCustom :=
  funext nofun

/-- The machine with the contexts of `tower`, the innermost first, on a stack that is neither bounded nor traced. -/
def ofTower (tower : List (Context κ)) (s : Store τ) : Machine τ κ :=
  ⟨s.tape, { items := tower.reverse.toArray }, s.input, s.output⟩

@[simp]
theorem store_ofTower (tower : List (Context κ)) (s : Store τ) : (ofTower tower s).store = s := rfl

/-! ### The contexts -/

@[simp]
theorem topIndex?_ofTower (c : Context κ) (below : List (Context κ)) (s : Store τ) :
    (ofTower (c :: below) s).stack.topIndex? = some below.length := by
  rw [ContextStack.topIndex?_eq_some_iff]
  simp [ofTower, ContextStack.size]

/-- A context with others above it is not on top. -/
theorem topIndex?_above {above : List (Context κ)} (habove : above ≠ []) (c : Context κ) (below : List (Context κ))
    (s : Store τ) : (ofTower (above ++ c :: below) s).stack.topIndex? ≠ some below.length := by
  have hpos := List.length_pos_iff.2 habove
  rw [ne_eq, ContextStack.topIndex?_eq_some_iff]
  simp only [ofTower, ContextStack.size, List.size_toArray, List.length_reverse, List.length_append, List.length_cons]
  omega

@[simp]
theorem get?_ofTower (above : List (Context κ)) (c : Context κ) (below : List (Context κ)) (s : Store τ) :
    (ofTower (above ++ c :: below) s).stack.get? below.length = some c := by
  simp [ofTower, ContextStack.get?]

@[simp]
theorem get?_ofTower_top (c : Context κ) (below : List (Context κ)) (s : Store τ) :
    (ofTower (c :: below) s).stack.get? below.length = some c :=
  get?_ofTower [] c below s

@[simp]
theorem top?_ofTower (c : Context κ) (below : List (Context κ)) (s : Store τ) :
    (ofTower (c :: below) s).stack.top? = some c := by
  simp [ContextStack.top?]

theorem modifyContext_ofTower (above : List (Context κ)) (c : Context κ) (below : List (Context κ)) (s : Store τ)
    (f : Context κ → Context κ) :
    (ofTower (above ++ c :: below) s).modifyContext below.length f = ofTower (above ++ f c :: below) s := by
  have hset : ((above ++ c :: below).reverse.modify below.length f) = (above ++ f c :: below).reverse := by
    rw [show below.length = below.reverse.length from List.length_reverse.symm]
    simp only [List.reverse_append, List.reverse_cons, List.append_assoc, List.singleton_append]
    rw [List.modify_eq_take_cons_drop (by simp)]
    simp [List.drop_append]
  simp only [modifyContext, ofTower, ContextStack.modify, List.modify_toArray, hset]

@[simp]
theorem pushContext_ofTower (tower : List (Context κ)) (s : Store τ) (c : Context κ) :
    (ofTower tower s).pushContext c = .done (ofTower (c :: tower) s) := by
  simp [pushContext, ofTower, ContextStack.push, ContextStack.hasRoom, ContextStack.trace]

@[simp]
theorem popContext_ofTower (c : Context κ) (below : List (Context κ)) (s : Store τ) :
    (ofTower (c :: below) s).popContext = .done (ofTower below s) := by
  have htop := top?_ofTower c below s
  simp only [popContext, ContextStack.pop?, htop, Option.map_some]
  simp [ofTower, ContextStack.trace]

/-- A recording takes a character down in its place. -/
theorem saveAt_ofTower (above : List (Context κ)) (r : Recording κ) (below : List (Context κ)) (c : Char)
    (s : Store τ) :
    (ofTower (above ++ .recording r :: below) s).saveAt below.length c =
      ofTower (above ++ .recording (r.save c) :: below) s :=
  modifyContext_ofTower above (.recording r) below s _

/-- A skip context counts in its place, and is gone when its loop is over. -/
theorem countAt_ofTower {skip counted : Skip κ} {c : Char} (hcount : skip.count? c = some counted)
    (below : List (Context κ)) (s : Store τ) :
    (ofTower (.skip skip :: below) s).countAt below.length c =
      .done (ofTower (if counted.isOver then below else .skip counted :: below) s) := by
  have hget := get?_ofTower_top (.skip skip) below s
  have hmodify := modifyContext_ofTower [] (.skip skip) below s fun _ => .skip counted
  rw [List.nil_append, List.nil_append] at hmodify
  simp only [countAt, hget, hcount, hmodify]
  split
  · rw [popContext_ofTower]
  · rfl

end Machine

/-! ### The store -/

namespace Store

variable [Tape τ]

/-- The value that guards a loop, and the store after it was read. -/
def guard? (s : Store τ) : Option (Cell × Store τ) :=
  (Tape.read? s.tape).map fun (value, tape) => (value, { s with tape })

/-- What a command does to the store: what it does on a machine without contexts. -/
def perform (custom : κ → Store τ → Outcome (Store τ)) (command : Command κ) (s : Store τ) : Outcome (Store τ) :=
  ((Machine.ofTower [] s).invoke (Machine.onStore custom) command ' ' none).map Machine.store

end Store

namespace Machine

variable [Tape τ]

theorem withCell_ofTower (tower : List (Context κ)) (s : Store τ)
    (next : Cell → Machine τ κ → Outcome (Machine τ κ)) :
    (ofTower tower s).withCell next =
      match s.guard? with
      | some (value, s) => next value (ofTower tower s)
      | none => .aborted .noCell := by
  simp only [withCell, ofTower, Store.guard?]
  cases Tape.read? s.tape <;> rfl

/-- Opening a loop is all that a command can do to the contexts. -/
theorem invoke_ofTower (custom : κ → Store τ → Outcome (Store τ)) {command : Command κ}
    (hloop : ∀ exit, command ≠ .enterLoop exit) (c : Char) (scope : Option Nat) (tower : List (Context κ))
    (s : Store τ) :
    (ofTower tower s).invoke (onStore custom) command c scope = (s.perform custom command).map (ofTower tower) := by
  unfold Store.perform
  cases command with
  | moveRight | moveLeft =>
    simp only [invoke, moveBy, moveTo, ofTower]
    split
    · split <;> rfl
    · rfl
  | increment | decrement =>
    simp only [invoke, changeCell, withCell, setCell, ofTower]
    split
    · split <;> rfl
    · rfl
  | output =>
    simp only [invoke, withCell, emit, ofTower]
    split
    · split <;> rfl
    · rfl
  | input =>
    simp only [invoke, accept, setCell, ofTower]
    split
    · split <;> rfl
    · rfl
    · rfl
  | enterLoop exit => exact absurd rfl (hloop exit)
  | halt => rfl
  | host command =>
    simp only [invoke, onStore, store_ofTower]
    cases custom command s <;> rfl

theorem enterLoop_ofTower (c : Context κ) (below : List (Context κ)) (s : Store τ) (enter exit : Char)
    (parent : Option Nat) :
    (ofTower (c :: below) s).enterLoop enter exit parent =
      match s.guard? with
      | some (value, s) =>
        .done (ofTower ((if value = 0 then .skip { commands := c.commands, enter, exit, parent }
          else .recording { commands := c.commands, exit, parent }) :: c :: below) s)
      | none => .aborted .noCell := by
  have htop := top?_ofTower c below s
  simp only [enterLoop, htop, withCell_ofTower, pushContext_ofTower]

theorem replay_ofTower (execute : Nat → Char → Machine τ κ → Outcome (Machine τ κ)) (body : List Char) (fuel : Nat)
    (tower : List (Context κ)) (s : Store τ) :
    replay execute body (fuel + 1) (ofTower tower s) =
      match s.guard? with
      | some (value, s) =>
        if value = 0 then .done (ofTower tower s)
        else (replayPass execute body (ofTower tower s)).andThen (replay execute body fuel)
      | none => .aborted .noCell := by
  rw [replay, withCell_ofTower]

/-! ### One context at work -/

section

variable {host : κ → Machine τ κ → Outcome (Machine τ κ)} {m : Machine τ κ} {index : Nat} {c : Char}

theorem executeAt_plain {commands : CommandMap κ} (hget : m.stack.get? index = some (.plain commands))
    {command : Command κ} (hcommand : commands[c]? = some command) (fuel : Nat) :
    executeAt host (fuel + 1) index c m = m.invoke host command c none := by
  simp only [executeAt, hget, hcommand]

theorem executeAt_plain_unknown {commands : CommandMap κ} (hget : m.stack.get? index = some (.plain commands))
    (hcommand : commands[c]? = none) (fuel : Nat) :
    executeAt host (fuel + 1) index c m = .failed (.unknownCharacter c) m := by
  simp only [executeAt, hget, hcommand]

theorem executeAt_recording_invoke {r : Recording κ} (hget : m.stack.get? index = some (.recording r))
    (htop : m.stack.topIndex? = some index) {command : Command κ} (heffect : r.effect? c = some (.invoke command))
    (fuel : Nat) :
    executeAt host (fuel + 1) index c m =
      ((m.saveAt index c).forward (executeAt host fuel) r.forward? c).andThen (invoke host command c (some index)) := by
  simp only [executeAt, hget, heffect, htop, beq_self_eq_true, if_true]

theorem executeAt_recording_replay {r : Recording κ} (hget : m.stack.get? index = some (.recording r))
    (htop : m.stack.topIndex? = some index) (heffect : r.effect? c = some .replay) (fuel : Nat) :
    executeAt host (fuel + 1) index c m =
      ((m.saveAt index c).forward (executeAt host fuel) r.forward? c).andThen
        (exitLoop (executeAt host fuel) fuel index) := by
  simp only [executeAt, hget, heffect, htop, beq_self_eq_true, if_true]

/-- Below the top a recording only records. -/
theorem executeAt_recording_below {r : Recording κ} (hget : m.stack.get? index = some (.recording r))
    (htop : m.stack.topIndex? ≠ some index) {effect} (heffect : r.effect? c = some effect) (fuel : Nat) :
    executeAt host (fuel + 1) index c m = (m.saveAt index c).forward (executeAt host fuel) r.forward? c := by
  simp only [executeAt, hget, heffect, beq_iff_eq, if_neg htop, Outcome.andThen_done]

theorem executeAt_recording_unknown {r : Recording κ} (hget : m.stack.get? index = some (.recording r))
    (heffect : r.effect? c = none) (fuel : Nat) :
    executeAt host (fuel + 1) index c m = .failed (.unknownCharacter c) m := by
  simp only [executeAt, hget, heffect]

theorem executeAt_skip {skip : Skip κ} (hget : m.stack.get? index = some (.skip skip))
    (htop : m.stack.topIndex? = some index) (hc : skip.recognizes c) (fuel : Nat) :
    executeAt host (fuel + 1) index c m =
      (m.forward (executeAt host fuel) skip.parent c).andThen (countAt · index c) := by
  simp only [executeAt, hget, htop, hc, beq_self_eq_true, if_true]

/-- Below the top a skip context only passes characters on. -/
theorem executeAt_skip_below {skip : Skip κ} (hget : m.stack.get? index = some (.skip skip))
    (htop : m.stack.topIndex? ≠ some index) (hc : skip.recognizes c) (fuel : Nat) :
    executeAt host (fuel + 1) index c m = m.forward (executeAt host fuel) skip.parent c := by
  simp only [executeAt, hget, hc, beq_iff_eq, if_neg htop, if_true, Outcome.andThen_done]

theorem executeAt_skip_unknown {skip : Skip κ} (hget : m.stack.get? index = some (.skip skip))
    (hc : ¬skip.recognizes c) (fuel : Nat) :
    executeAt host (fuel + 1) index c m = .failed (.unknownCharacter c) m := by
  simp only [executeAt, hget, if_neg hc]

end

end Machine

end TapeMachine
