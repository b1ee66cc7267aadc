import TapeMachine.Proofs.Program
import TapeMachine.Proofs.Steps

/-!
# A machine runs a program as its tree says

A machine that is given the text of a program one character at a time ends as the program does (`tracks_text`).

* `Settles` is how a run ends if the fuel does not matter.  Its laws let the runs of the machine be taken apart as the
  programs are.
* A `View` tells how the states of a semantics are seen on a store, and what is seen of a run that is stopped.
  `Implements` says that the commands of a dialect do to a store what a semantics says.
* `Tracks` compares two sets of results, those of a program and those of a machine.  The statement about a program is
  proved by recursion on its tree, and that about its text is the same inside any loops, whether they are recorded or
  replayed.
-/

namespace TapeMachine

namespace Outcome

variable {ρ : Type}

/-- The outcomes of going on with `next` unless the run is over. -/
def Then (o : Outcome ρ) (next : ρ → Outcome ρ → Prop) (o' : Outcome ρ) : Prop :=
  match o with
  | done s => next s o'
  | failed fault s => o' = failed fault s
  | aborted cause => o' = aborted cause

/-- With enough fuel the run ends with `o`. -/
def Settles (run : Nat → Outcome ρ) (o : Outcome ρ) : Prop := o ≠ aborted .outOfFuel ∧ ∃ fuel, run fuel = o

/-- More fuel makes a difference only to a run that is cut short. -/
def Grows (run : Nat → Outcome ρ) : Prop :=
  ∀ {fuel fuel' : Nat}, fuel ≤ fuel' → run fuel ≠ aborted .outOfFuel → run fuel' = run fuel

variable {run run' : Nat → Outcome ρ} {o o' : Outcome ρ}

theorem Settles.unique (hgrows : Grows run) (h : Settles run o) (h' : Settles run o') : o = o' := by
  obtain ⟨hne, fuel, rfl⟩ := h
  obtain ⟨hne', fuel', rfl⟩ := h'
  rcases Nat.le_total fuel fuel' with hle | hle
  · exact (hgrows hle hne).symm
  · exact hgrows hle hne'

theorem settles_const (hne : o ≠ aborted .outOfFuel) : Settles (fun _ => o) o' ↔ o' = o := by
  constructor
  · rintro ⟨-, fuel, h⟩
    exact h.symm
  · rintro rfl
    exact ⟨hne, 0, rfl⟩

/-- How a run ends can be read off the runs with plenty of fuel. -/
theorem settles_of_add (hgrows : Grows run) (more : Nat) (h : ∀ fuel, run (fuel + more) = run' fuel) :
    Settles run o ↔ Settles run' o := by
  constructor
  · rintro ⟨hne, fuel, rfl⟩
    refine ⟨hne, fuel, ?_⟩
    rw [← h, hgrows (Nat.le_add_right fuel more) hne]
  · rintro ⟨hne, fuel, rfl⟩
    exact ⟨hne, fuel + more, h fuel⟩

theorem settles_andThen {next : Nat → ρ → Outcome ρ} (hgrows : Grows run) (hnext : ∀ s, Grows (next · s)) :
    Settles (fun fuel => (run fuel).andThen (next fuel)) o ↔
      ∃ o₁, Settles run o₁ ∧ o₁.Then (fun s => Settles (next · s)) o := by
  constructor
  · rintro ⟨hne, fuel, h⟩
    have hrun : run fuel ≠ aborted .outOfFuel := by
      intro hout
      simp only [hout, aborted_andThen] at h
      exact hne h.symm
    refine ⟨run fuel, ⟨hrun, fuel, rfl⟩, ?_⟩
    cases hfirst : run fuel with
    | done s =>
      simp only [hfirst, done_andThen] at h
      exact ⟨hne, fuel, h⟩
    | failed fault s =>
      simp only [hfirst, failed_andThen] at h
      exact h.symm
    | aborted cause =>
      simp only [hfirst, aborted_andThen] at h
      exact h.symm
  · rintro ⟨o₁, ⟨hne, fuel, hfirst⟩, hthen⟩
    cases o₁ with
    | done s =>
      -- the larger of the two amounts of fuel is enough for both
      obtain ⟨hne', fuel', hsecond⟩ := hthen
      refine ⟨hne', max fuel fuel', ?_⟩
      have h₁ := hgrows (Nat.le_max_left fuel fuel') (hfirst ▸ hne)
      have h₂ := hnext s (Nat.le_max_right fuel fuel') (hsecond ▸ hne')
      simp only [h₁, hfirst, done_andThen]
      exact h₂.trans hsecond
    | failed fault s =>
      rw [show o = failed fault s from hthen]
      exact ⟨hne, fuel, by simp only [hfirst, failed_andThen]⟩
    | aborted cause =>
      rw [show o = aborted cause from hthen]
      exact ⟨hne, fuel, by simp only [hfirst, aborted_andThen]⟩

end Outcome

open Outcome (Settles Grows)

namespace Machine

variable {τ κ : Type} [Tape τ] {host : κ → Machine τ κ → Outcome (Machine τ κ)}

/-- A machine that is given a text ends with an outcome, however long that takes. -/
def Ends (host : κ → Machine τ κ → Outcome (Machine τ κ)) (text : List Char) (m : Machine τ κ) :
    Outcome (Machine τ κ) → Prop :=
  Settles fun fuel => replayPass (executeAt host fuel) text m

theorem grows_replayPass (text : List Char) (m : Machine τ κ) :
    Grows fun fuel => replayPass (executeAt host fuel) text m :=
  fun hle h => replayPass_extends (fun index c => executeAt_extends host hle index c) text m h

theorem grows_replay (body : List Char) (m : Machine τ κ) :
    Grows fun fuel => replay (executeAt host fuel) body fuel m :=
  fun hle h => replay_extends (fun index c => executeAt_extends host hle index c) body hle m h

omit [Tape τ] in
theorem replayPass_append (execute : Nat → Char → Machine τ κ → Outcome (Machine τ κ)) (text rest : List Char)
    (m : Machine τ κ) :
    replayPass execute (text ++ rest) m = (replayPass execute text m).andThen (replayPass execute rest) := by
  induction text generalizing m with
  | nil => rfl
  | cons c text ih =>
    simp only [List.cons_append, replayPass]
    split
    · rfl
    · rw [Outcome.andThen_assoc]
      congr 1
      exact funext ih

theorem Ends.unique {text : List Char} {m : Machine τ κ} {o o' : Outcome (Machine τ κ)} (h : Ends host text m o)
    (h' : Ends host text m o') : o = o' :=
  Outcome.Settles.unique (grows_replayPass text m) h h'

theorem ends_nil {m : Machine τ κ} {o : Outcome (Machine τ κ)} : Ends host [] m o ↔ o = .done m :=
  Outcome.settles_const (by simp)

theorem ends_append {text rest : List Char} {m : Machine τ κ} {o : Outcome (Machine τ κ)} :
    Ends host (text ++ rest) m o ↔ ∃ o₁, Ends host text m o₁ ∧ o₁.Then (Ends host rest) o := by
  unfold Ends
  simp only [replayPass_append]
  exact Outcome.settles_andThen (grows_replayPass text m) fun m => grows_replayPass rest m

theorem Ends.append_iff {text : List Char} {m m' : Machine τ κ} (h : Ends host text m (.done m')) {rest : List Char}
    {o : Outcome (Machine τ κ)} : Ends host (text ++ rest) m o ↔ Ends host rest m' o := by
  rw [ends_append]
  constructor
  · rintro ⟨o₁, ho₁, hthen⟩
    obtain rfl := ho₁.unique h
    exact hthen
  · intro hrest
    exact ⟨_, h, hrest⟩

end Machine

/-- How the states of a semantics are seen on a store, and the outcome that is seen if a run is stopped. -/
structure View (σ ε τ : Type) where
  store : σ → Store τ
  stop : ε → Outcome (Store τ)
  stop_ne_done (e : ε) (s : Store τ) : stop e ≠ .done s
  stop_ne_outOfFuel (e : ε) : stop e ≠ .aborted .outOfFuel

namespace View

variable {τ κ σ ε : Type}

/-- The view for runs that are stopped by a fault and leave a state behind. -/
def ofStore (store : σ → Store τ) : View σ (Fault × σ) τ where
  store := store
  stop e := .failed e.1 (store e.2)
  stop_ne_done _ _ := nofun
  stop_ne_outOfFuel _ := nofun

variable (view : View σ ε τ)

/-- The outcome that is seen of a result. -/
def outcome : Result σ ε → Outcome (Store τ)
  | .ok s => .done (view.store s)
  | .error e => view.stop e

/-- The outcome of a machine shows that the run was stopped. -/
def Shows (e : ε) (o : Outcome (Machine τ κ)) : Prop := o.map Machine.store = view.stop e

variable {view} {e : ε} {o : Outcome (Machine τ κ)}

theorem Shows.ne_outOfFuel (h : view.Shows e o) : o ≠ .aborted .outOfFuel := by
  rintro rfl
  exact view.stop_ne_outOfFuel e h.symm

/-- Nothing follows on a run that was stopped. -/
theorem Shows.then_iff (h : view.Shows e o) {next : Machine τ κ → Outcome (Machine τ κ) → Prop}
    {o' : Outcome (Machine τ κ)} : o.Then next o' ↔ o' = o := by
  cases o with
  | done m => exact absurd h.symm (view.stop_ne_done e m.store)
  | failed fault m => exact Iff.rfl
  | aborted cause => exact Iff.rfl

theorem Shows.andThen (h : view.Shows e o) (next : Machine τ κ → Outcome (Machine τ κ)) : o.andThen next = o := by
  cases o with
  | done m => exact absurd h.symm (view.stop_ne_done e m.store)
  | failed fault m => rfl
  | aborted cause => rfl

/-- A machine over any contexts shows that a run was stopped. -/
theorem shows_map_ofTower (view : View σ ε τ) (e : ε) (tower : List (Context κ)) :
    view.Shows e ((view.stop e).map (Machine.ofTower tower)) := by
  unfold Shows
  cases view.stop e <;> rfl

theorem shows_ofStore_iff {store : σ → Store τ} {e : Fault × σ} :
    (ofStore store).Shows e o ↔ ∃ m, o = .failed e.1 m ∧ m.store = store e.2 := by
  constructor
  · intro h
    cases o with
    | done m => cases h
    | failed fault m =>
      obtain ⟨rfl, hstore⟩ := Outcome.failed.inj h
      exact ⟨m, rfl, hstore⟩
    | aborted cause => cases h
  · rintro ⟨m, rfl, hstore⟩
    exact congrArg (Outcome.failed e.1) hstore

end View

section

variable {τ κ σ ε : Type}

/-- A result of a program and an outcome of a machine that belong together: a machine that is done is what `place` makes
of the store, and one that was stopped shows it. -/
inductive Over (place : Store τ → Machine τ κ) (view : View σ ε τ) :
    Result σ ε → Outcome (Machine τ κ) → Prop where
  | done (s : σ) : Over place view (.ok s) (.done (place (view.store s)))
  | stopped {e : ε} {o : Outcome (Machine τ κ)} (hshows : view.Shows e o) : Over place view (.error e) o

/-- Every outcome of a machine belongs to a result of a program, and every result to an outcome. -/
structure Tracks (place : Store τ → Machine τ κ) (view : View σ ε τ) (results : Result σ ε → Prop)
    (outcomes : Outcome (Machine τ κ) → Prop) : Prop where
  result {o : Outcome (Machine τ κ)} (ho : outcomes o) : ∃ r, results r ∧ Over place view r o
  outcome {r : Result σ ε} (hr : results r) : ∃ o, outcomes o ∧ Over place view r o

variable {place place' : Store τ → Machine τ κ} {view : View σ ε τ}

theorem Tracks.andThen {results : Result σ ε → Prop} {outcomes : Outcome (Machine τ κ) → Prop}
    {next : σ → Result σ ε → Prop} {next' : Machine τ κ → Outcome (Machine τ κ) → Prop}
    (h : Tracks place view results outcomes)
    (hnext : ∀ s, Tracks place' view (next s) (next' (place (view.store s)))) :
    Tracks place' view (fun r => ∃ r₁, results r₁ ∧ Result.Then r₁ next r)
      fun o => ∃ o₁, outcomes o₁ ∧ o₁.Then next' o := by
  constructor
  · rintro o ⟨o₁, ho₁, hthen⟩
    obtain ⟨r₁, hr₁, hover⟩ := h.result ho₁
    cases hover with
    | done s =>
      obtain ⟨r, hr, hover⟩ := (hnext s).result hthen
      exact ⟨r, ⟨_, hr₁, hr⟩, hover⟩
    | stopped hshows =>
      rw [hshows.then_iff.1 hthen]
      exact ⟨_, ⟨_, hr₁, rfl⟩, .stopped hshows⟩
  · rintro r ⟨r₁, hr₁, hthen⟩
    obtain ⟨o₁, ho₁, hover⟩ := h.outcome hr₁
    cases hover with
    | done s =>
      obtain ⟨o, ho, hover⟩ := (hnext s).outcome hthen
      exact ⟨o, ⟨_, ho₁, ho⟩, hover⟩
    | stopped hshows =>
      rw [show r = _ from hthen]
      exact ⟨_, ⟨_, ho₁, hshows.then_iff.2 rfl⟩, .stopped hshows⟩

theorem Tracks.congr {results results' : Result σ ε → Prop} {outcomes outcomes' : Outcome (Machine τ κ) → Prop}
    (h : Tracks place view results outcomes) (hresults : ∀ r, results' r ↔ results r)
    (houtcomes : ∀ o, outcomes' o ↔ outcomes o) : Tracks place view results' outcomes' := by
  rw [show results' = results from funext fun r => propext (hresults r),
    show outcomes' = outcomes from funext fun o => propext (houtcomes o)]
  exact h

theorem tracks_eq {r : Result σ ε} {o : Outcome (Machine τ κ)} (h : Over place view r o) :
    Tracks place view (· = r) (· = o) := by
  constructor
  · rintro o rfl
    exact ⟨r, rfl, h⟩
  · rintro r rfl
    exact ⟨o, rfl, h⟩

theorem Tracks.done {results : Result σ ε → Prop} {outcomes : Outcome (Machine τ κ) → Prop}
    (h : Tracks place view results outcomes) {s : σ} (hr : results (.ok s)) :
    outcomes (.done (place (view.store s))) := by
  obtain ⟨o, ho, ⟨⟩⟩ := h.outcome hr
  exact ho

theorem Tracks.failed {store : σ → Store τ} {results : Result σ → Prop} {outcomes : Outcome (Machine τ κ) → Prop}
    (h : Tracks place (.ofStore store) results outcomes) {e : Fault × σ} (hr : results (.error e)) :
    ∃ m, outcomes (.failed e.1 m) ∧ m.store = store e.2 := by
  obtain ⟨o, ho, hover⟩ := h.outcome hr
  cases hover with
  | stopped hshows =>
    obtain ⟨m, rfl, hstore⟩ := View.shows_ofStore_iff.1 hshows
    exact ⟨m, ho, hstore⟩

end

namespace Dialect

open Machine (onStore executeAt replayPass replay Ends)

variable {τ κ σ ε : Type}

theorem noteAll_append (text rest : List Char) (levels : List Level) :
    noteAll (text ++ rest) levels = noteAll rest (noteAll text levels) := by
  simp [noteAll]

theorem noteAll_nil (text : List Char) : noteAll text [] = [] := by
  induction text with
  | nil => rfl
  | cons c text ih => exact ih

theorem noteAll_open (text body : List Char) (levels : List Level) :
    noteAll text (⟨body, true⟩ :: levels) = ⟨body ++ text, true⟩ :: noteAll text levels := by
  induction text generalizing body levels with
  | nil => simp [noteAll]
  | cons c text ih =>
    change noteAll text (⟨body ++ [c], true⟩ :: note c levels) = _
    rw [ih, List.append_assoc]
    rfl

/-- Results and outcomes that belong together, where a machine that is done has the contexts of `levels`. -/
abbrev Over (d : Dialect κ) (view : View σ ε τ) (levels : List Level) :
    Result σ ε → Outcome (Machine τ κ) → Prop :=
  TapeMachine.Over (d.machine ⟨levels, 0⟩) view

/-- A program and a machine that ends with the contexts of `levels`. -/
abbrev Tracks (d : Dialect κ) (view : View σ ε τ) (levels : List Level) (results : Result σ ε → Prop)
    (outcomes : Outcome (Machine τ κ) → Prop) : Prop :=
  TapeMachine.Tracks (d.machine ⟨levels, 0⟩) view results outcomes

variable {d : Dialect κ} {view : View σ ε τ} {levels : List Level}

variable [Tape τ]

/-- The commands of the dialect do to a store what the semantics says. -/
structure Implements (d : Dialect κ) (custom : κ → Store τ → Outcome (Store τ)) (sem : Semantics σ ε)
    (view : View σ ε τ) : Prop where
  guard (s : σ) : (view.store s).guard? = some (sem.cell s, view.store s)
  act {c : Char} (hc : d.Acts c) (s : σ) : d.act custom c (view.store s) = view.outcome (sem.act c s)

variable {custom : κ → Store τ → Outcome (Store τ)} {sem : Semantics σ ε}

/-! ### Single characters -/

private theorem ends_single (nest : Nest) {s : Store τ} {c : Char} {o o' : Outcome (Machine τ κ)}
    (h : ∀ fuel, nest.levels.length ≤ fuel →
      executeAt (onStore custom) (fuel + 1) (topIndex nest) c (d.machine nest s) = o)
    (hne : o ≠ .aborted .outOfFuel) : Ends (onStore custom) [c] (d.machine nest s) o' ↔ o' = o := by
  refine (Outcome.settles_of_add (Machine.grows_replayPass _ _) (nest.levels.length + 1) ?_).trans
    (Outcome.settles_const hne)
  intro fuel
  have hexecute := h (fuel + nest.levels.length) (Nat.le_add_left _ _)
  simp only [replayPass_machine, ← Nat.add_assoc, hexecute]
  exact Outcome.andThen_done o

theorem tracks_act (himpl : d.Implements custom sem view) {c : Char} (hc : d.Acts c) (levels : List Level) (s : σ) :
    d.Tracks view (note c levels) (· = sem.act c s)
      (Ends (onStore custom) [c] (d.machine ⟨levels, 0⟩ (view.store s))) := by
  have hexecute (fuel : Nat) (hfuel : levels.length ≤ fuel) := executeAt_act custom hc levels hfuel (view.store s)
  rw [himpl.act hc] at hexecute
  cases hact : sem.act c s with
  | ok s' =>
    rw [hact] at hexecute
    refine (tracks_eq (.done s')).congr (fun _ => Iff.rfl) fun o => ?_
    exact ends_single ⟨levels, 0⟩ hexecute (by simp)
  | error e =>
    rw [hact] at hexecute
    have hshows : view.Shows e ((view.stop e).map (d.machine ⟨note c levels, 0⟩)) := view.shows_map_ofTower e _
    refine (tracks_eq (.stopped hshows)).congr (fun _ => Iff.rfl) fun o => ?_
    exact ends_single ⟨levels, 0⟩ hexecute hshows.ne_outOfFuel

theorem ends_enter (himpl : d.Implements custom sem view) (levels : List Level) (s : σ) :
    Ends (onStore custom) [d.enter] (d.machine ⟨levels, 0⟩ (view.store s))
      (.done (d.machine (if sem.cell s = 0 then ⟨note d.enter levels, 1⟩ else ⟨⟨[], true⟩ :: note d.enter levels, 0⟩)
        (view.store s))) := by
  refine (ends_single _ (fun fuel hfuel => ?_) (by simp)).2 rfl
  have hexecute := executeAt_enter (d := d) custom levels hfuel (view.store s)
  simp only [himpl.guard] at hexecute
  exact hexecute

private theorem ends_skipped_single {c : Char} (hc : d.Knows c) {depth depth' : Nat}
    (hshift : d.shift? (depth + 1) c = some depth') (levels : List Level) (s : Store τ) :
    Ends (onStore custom) [c] (d.machine ⟨levels, depth + 1⟩ s) (.done (d.machine ⟨note c levels, depth'⟩ s)) := by
  refine (ends_single _ (fun fuel hfuel => ?_) (by simp)).2 rfl
  have hdepth : (if c = d.enter then depth + 2 else if c = d.exit then depth else depth + 1) = depth' := by
    unfold Brackets.shift? at hshift
    split_ifs at hshift ⊢ <;> simp_all
  have hexecute := executeAt_skipped custom hc levels depth hfuel s
  rw [hdepth] at hexecute
  exact hexecute

/-- A text inside a skipped loop is noted by the loops around. -/
theorem ends_skipped {depth depth' : Nat} {text : List Char} (htext : d.depthFrom depth text = some depth')
    (hknows : ∀ c ∈ text, d.Knows c) (levels : List Level) (s : Store τ) :
    Ends (onStore custom) text (d.machine ⟨levels, depth + 1⟩ s)
      (.done (d.machine ⟨noteAll text levels, depth' + 1⟩ s)) := by
  induction text generalizing depth levels with
  | nil =>
    rw [Brackets.depthFrom_nil, Option.some.injEq] at htext
    rw [Machine.ends_nil, htext]
    rfl
  | cons c rest ih =>
    rw [Brackets.depthFrom_cons] at htext
    obtain ⟨depth₁, hshift, hrest⟩ := Option.bind_eq_some_iff.1 htext
    have hsingle : Ends (onStore custom) [c] _ _ :=
      ends_skipped_single (hknows c List.mem_cons_self) (Brackets.shift?_add hshift 1) levels s
    exact hsingle.append_iff.2 (ih hrest (fun c hc => hknows c (List.mem_cons_of_mem _ hc)) (note c levels))

/-! ### Loops -/

omit [Tape τ] in
theorem balanced_of_forall_acts {p : Program} (hp : p.Forall d.Acts) : d.Balanced (p.text d.toBrackets) := by
  apply Program.balanced_text
  exact hp.mono fun c hc => ⟨ne_enter_of_acts hc, ne_exit_of_acts hc⟩

omit [Tape τ] in
theorem knows_of_forall_acts {p : Program} (hp : p.Forall d.Acts) : ∀ c ∈ p.text d.toBrackets, d.Knows c := by
  induction p with
  | done => simp [Program.text]
  | act c rest ih =>
    intro c' hc'
    rcases List.mem_cons.1 hc' with rfl | hc'
    · exact knows_of_acts hp.1
    · exact ih hp.2 c' hc'
  | loop body rest ihbody ihrest =>
    intro c hc
    rcases List.mem_cons.1 hc with rfl | hc
    · exact d.knows_enter
    rcases List.mem_append.1 hc with hc | hc
    · exact ihbody hp.1 c hc
    rcases List.mem_cons.1 hc with rfl | hc
    · exact d.knows_exit
    · exact ihrest hp.2 c hc

/-- A loop that is skipped is noted by the loops around it. -/
theorem ends_skipped_loop (himpl : d.Implements custom sem view) {body : Program} (hbody : body.Forall d.Acts)
    (levels : List Level) {s : σ} (hcell : sem.cell s = 0) :
    Ends (onStore custom) (d.enter :: (body.text d.toBrackets ++ [d.exit])) (d.machine ⟨levels, 0⟩ (view.store s))
      (.done (d.machine ⟨noteAll (d.enter :: (body.text d.toBrackets ++ [d.exit])) levels, 0⟩ (view.store s))) := by
  have henter := ends_enter himpl levels s
  rw [if_pos hcell] at henter
  have htext : Ends (onStore custom) (body.text d.toBrackets) _ _ :=
    ends_skipped (balanced_of_forall_acts hbody) (knows_of_forall_acts hbody) (note d.enter levels) (view.store s)
  have hexit : Ends (onStore custom) [d.exit] _ _ :=
    ends_skipped_single d.knows_exit (Brackets.shift?_exit_succ 0) (noteAll (body.text d.toBrackets)
      (note d.enter levels)) (view.store s)
  rw [← noteAll_concat] at hexit
  exact henter.append_iff.2 (htext.append_iff.2 hexit)

section

variable {body : Program} {text : List Char}

private theorem replay_machine (himpl : d.Implements custom sem view) (fuel passes : Nat) (levels : List Level)
    (s : σ) :
    replay (executeAt (onStore custom) fuel) text (passes + 1) (d.machine ⟨levels, 0⟩ (view.store s)) =
      if sem.cell s = 0 then .done (d.machine ⟨levels, 0⟩ (view.store s))
      else (replayPass (executeAt (onStore custom) fuel) text (d.machine ⟨levels, 0⟩ (view.store s))).andThen
        (replay (executeAt (onStore custom) fuel) text passes) := by
  rw [machine, Machine.replay_ofTower, himpl.guard]

/-- A replay that is not cut short ends as the loop does.  The induction is on the passes that the fuel allows. -/
private theorem replay_result (himpl : d.Implements custom sem view)
    (hbody : ∀ s, d.Tracks view levels (sem.Evaluates body s)
      (Ends (onStore custom) text (d.machine ⟨levels, 0⟩ (view.store s))))
    {fuel passes : Nat} {s : σ}
    (hne : replay (executeAt (onStore custom) fuel) text passes (d.machine ⟨levels, 0⟩ (view.store s)) ≠
      .aborted .outOfFuel) :
    ∃ r, sem.Evaluates (.loop body .done) s r ∧ d.Over view levels r
      (replay (executeAt (onStore custom) fuel) text passes (d.machine ⟨levels, 0⟩ (view.store s))) := by
  induction passes generalizing s with
  | zero => exact absurd rfl hne
  | succ passes ih =>
    rw [replay_machine himpl] at hne ⊢
    by_cases hcell : sem.cell s = 0
    · rw [if_pos hcell]
      exact ⟨.ok s, .exit hcell (.done s), .done s⟩
    rw [if_neg hcell] at hne ⊢
    have hpass : replayPass (executeAt (onStore custom) fuel) text (d.machine ⟨levels, 0⟩ (view.store s)) ≠
        .aborted .outOfFuel := by
      intro hout
      rw [hout] at hne
      exact hne rfl
    obtain ⟨r₁, hr₁, hover⟩ := (hbody s).result ⟨hpass, fuel, rfl⟩
    generalize replayPass (executeAt (onStore custom) fuel) text _ = o at hne hover ⊢
    cases hover with
    | done s' =>
      obtain ⟨r, hr, hover⟩ := ih hne
      exact ⟨r, .pass hcell hr₁ hr, hover⟩
    | stopped hshows =>
      rw [hshows.andThen]
      exact ⟨_, .pass_error hcell hr₁, .stopped hshows⟩

/-- A loop that ends is replayed to its end.  The induction is on the passes that the loop makes. -/
private theorem replay_outcome (himpl : d.Implements custom sem view)
    (hbody : ∀ s, d.Tracks view levels (sem.Evaluates body s)
      (Ends (onStore custom) text (d.machine ⟨levels, 0⟩ (view.store s))))
    {s : σ} {r : Result σ ε} (hr : sem.Evaluates (.loop body .done) s r) :
    ∃ o, Settles (fun fuel =>
        replay (executeAt (onStore custom) fuel) text fuel (d.machine ⟨levels, 0⟩ (view.store s))) o ∧
      d.Over view levels r o := by
  generalize hp : Program.loop body .done = p at hr
  induction hr with
  | done | act | act_error => cases hp
  | exit hcell hdone =>
    cases hp
    cases hdone
    refine ⟨_, ⟨?_, 1, ?_⟩, .done _⟩
    · simp
    · simp only [replay_machine himpl, if_pos hcell]
  | pass hcell hr₁ _ _ ih =>
    cases hp
    obtain ⟨o₁, ⟨hne₁, fuel₁, rfl⟩, hover₁⟩ := (hbody _).outcome hr₁
    obtain ⟨o, ⟨hne, fuel₂, rfl⟩, hover⟩ := ih rfl
    refine ⟨_, ⟨hne, max fuel₁ fuel₂ + 1, ?_⟩, hover⟩
    have hfirst := Machine.grows_replayPass text _ (Nat.le_succ_of_le (Nat.le_max_left fuel₁ fuel₂)) hne₁
    have hextends := Machine.executeAt_extends (onStore custom) (Nat.le_succ_of_le (Nat.le_max_right fuel₁ fuel₂))
    have hrest := Machine.replay_extends hextends text (Nat.le_max_right fuel₁ fuel₂) _ hne
    simp only at hfirst hover₁
    generalize hpass : replayPass (executeAt (onStore custom) fuel₁) text _ = o₁ at hfirst hover₁
    cases hover₁
    simp only [replay_machine himpl, if_neg hcell]
    rw [hfirst, Outcome.done_andThen, hrest]
  | pass_error hcell hr₁ =>
    cases hp
    obtain ⟨o₁, ⟨hne, fuel, hfirst⟩, hover⟩ := (hbody _).outcome hr₁
    cases hover with
    | stopped hshows =>
      refine ⟨_, ⟨hne, fuel + 1, ?_⟩, .stopped hshows⟩
      have hmore := (Machine.grows_replayPass text _ (Nat.le_succ fuel) (hfirst ▸ hne)).trans hfirst
      simp only at hmore
      simp only [replay_machine himpl, if_neg hcell]
      rw [hmore, hshows.andThen]

/-- A closed recording is replayed as the loop says that it is of. -/
private theorem tracks_replay (himpl : d.Implements custom sem view)
    (hbody : ∀ s, d.Tracks view levels (sem.Evaluates body s)
      (Ends (onStore custom) text (d.machine ⟨levels, 0⟩ (view.store s)))) (s : σ) :
    d.Tracks view levels (sem.Evaluates (.loop body .done) s)
      (Settles fun fuel =>
        replay (executeAt (onStore custom) fuel) text fuel (d.machine ⟨levels, 0⟩ (view.store s))) := by
  constructor
  · rintro o ⟨hne, fuel, rfl⟩
    exact replay_result himpl hbody hne
  · intro r hr
    exact replay_outcome himpl hbody hr

end

/-- The closing bracket starts a replay, and the loop is gone after it. -/
theorem ends_exit (text : List Char) (levels : List Level) (s : Store τ) {o : Outcome (Machine τ κ)} :
    Ends (onStore custom) [d.exit] (d.machine ⟨⟨text, true⟩ :: levels, 0⟩ s) o ↔
      ∃ o₁, Settles (fun fuel => replay (executeAt (onStore custom) fuel) text fuel
          (d.machine ⟨⟨text, false⟩ :: note d.exit levels, 0⟩ s)) o₁ ∧
        o₁.Then (fun m o => o = m.popContext) o := by
  have hpop (m : Machine τ κ) : Settles (fun _ => m.popContext) = (· = m.popContext) := by
    refine funext fun o => propext (Outcome.settles_const ?_)
    unfold Machine.popContext
    split <;> simp
  have hgrows : Grows fun fuel => (replay (executeAt (onStore custom) fuel) text fuel
      (d.machine ⟨⟨text, false⟩ :: note d.exit levels, 0⟩ s)).andThen Machine.popContext :=
    fun hle h => Outcome.Extends.andThen (Machine.grows_replay text _ hle) (fun _ _ => rfl) h
  -- the fuel of the replay is that of the bracket without what it takes to pass the bracket on
  have hexecute (fuel : Nat) : replayPass (executeAt (onStore custom) (fuel + (levels.length + 1))) [d.exit]
      (d.machine ⟨⟨text, true⟩ :: levels, 0⟩ s) =
        (replay (executeAt (onStore custom) (fuel + levels.length)) text (fuel + levels.length)
          (d.machine ⟨⟨text, false⟩ :: note d.exit levels, 0⟩ s)).andThen Machine.popContext := by
    have hexit := executeAt_exit (d := d) custom text true levels (Nat.le_add_left levels.length fuel) s
    rw [replayPass_machine, ← Nat.add_assoc, topIndex, if_pos rfl]
    exact (congrArg (Outcome.andThen · _) hexit).trans (Outcome.andThen_done _)
  rw [Ends, Outcome.settles_of_add (Machine.grows_replayPass _ _) (levels.length + 1) hexecute,
    ← Outcome.settles_of_add hgrows levels.length fun _ => rfl,
    Outcome.settles_andThen (Machine.grows_replay _ _) fun _ _ _ _ _ => rfl]
  simp only [hpop]

/-- The closing bracket runs the loop that was recorded. -/
theorem tracks_exit (himpl : d.Implements custom sem view) {body : Program} {text : List Char}
    (hbody : ∀ levels s, d.Tracks view (noteAll text levels) (sem.Evaluates body s)
      (Ends (onStore custom) text (d.machine ⟨levels, 0⟩ (view.store s)))) (levels : List Level) (s : σ) :
    d.Tracks view (note d.exit levels) (sem.Evaluates (.loop body .done) s)
      (Ends (onStore custom) [d.exit] (d.machine ⟨⟨text, true⟩ :: levels, 0⟩ (view.store s))) := by
  -- the passes are run inside the recording of the loop, which is closed and stays as it is
  have hclosed (s : σ) := hbody (⟨text, false⟩ :: note d.exit levels) s
  simp only [noteAll_closed] at hclosed
  have hpop (s : σ) : d.Tracks view (note d.exit levels) (· = .ok s)
      (· = (d.machine ⟨⟨text, false⟩ :: note d.exit levels, 0⟩ (view.store s)).popContext) := by
    rw [machine, contexts_levels, tower, Machine.popContext_ofTower]
    exact tracks_eq (.done s)
  refine ((tracks_replay himpl hclosed s).andThen hpop).congr ?_ fun o => ends_exit text levels (view.store s)
  intro r
  constructor
  · intro hr
    refine ⟨r, hr, ?_⟩
    cases r <;> rfl
  · rintro ⟨r₁, hr₁, hthen⟩
    cases r₁ with
    | ok s' => rwa [show r = .ok s' from hthen]
    | error e => rwa [show r = .error e from hthen]

/-- A loop runs as its tree says if its body does. -/
theorem tracks_loop (himpl : d.Implements custom sem view) {body : Program} (hacts : body.Forall d.Acts)
    (hbody : ∀ levels s, d.Tracks view (noteAll (body.text d.toBrackets) levels) (sem.Evaluates body s)
      (Ends (onStore custom) (body.text d.toBrackets) (d.machine ⟨levels, 0⟩ (view.store s))))
    (levels : List Level) (s : σ) :
    d.Tracks view (noteAll (d.enter :: (body.text d.toBrackets ++ [d.exit])) levels)
      (sem.Evaluates (.loop body .done) s)
      (Ends (onStore custom) (d.enter :: (body.text d.toBrackets ++ [d.exit]))
        (d.machine ⟨levels, 0⟩ (view.store s))) := by
  by_cases hcell : sem.cell s = 0
  · have hskipped := ends_skipped_loop himpl hacts levels hcell
    refine (tracks_eq (.done s)).congr (fun r => ?_) fun o => ⟨fun ho => ho.unique hskipped, ?_⟩
    · rw [Semantics.evaluates_loop_of_eq_zero hcell, Semantics.evaluates_done_iff]
    · rintro rfl
      exact hskipped
  · have henter := ends_enter himpl levels s
    rw [if_neg hcell] at henter
    have hfirst := hbody (⟨[], true⟩ :: note d.enter levels) s
    rw [noteAll_open, List.nil_append] at hfirst
    have htracks := hfirst.andThen (tracks_exit himpl hbody _)
    rw [← noteAll_concat] at htracks
    refine htracks.congr (fun r => Semantics.evaluates_loop_of_ne_zero hcell) fun o => ?_
    exact henter.append_iff.trans Machine.ends_append

/-- A machine runs the text of a program as its tree says, inside any loops. -/
theorem tracks_text (himpl : d.Implements custom sem view) {p : Program} (hacts : p.Forall d.Acts)
    (levels : List Level) (s : σ) :
    d.Tracks view (noteAll (p.text d.toBrackets) levels) (sem.Evaluates p s)
      (Ends (onStore custom) (p.text d.toBrackets) (d.machine ⟨levels, 0⟩ (view.store s))) := by
  induction p generalizing levels s with
  | done => exact (tracks_eq (.done s)).congr (fun _ => Semantics.evaluates_done_iff) fun _ => Machine.ends_nil
  | act c rest ih =>
    have htracks := (tracks_act himpl hacts.1 levels s).andThen (ih hacts.2 (note c levels))
    refine htracks.congr (fun r => ?_) fun o => ?_
    · rw [Semantics.evaluates_act_iff]
      simp only [exists_eq_left]
    · rw [Program.text, ← List.singleton_append, Machine.ends_append]
  | loop body rest ihbody ihrest =>
    have hloop := tracks_loop himpl hacts.1 (ihbody hacts.1) levels s
    have htracks := hloop.andThen (ihrest hacts.2 _)
    rw [← noteAll_append] at htracks
    have htext : d.enter :: (body.text d.toBrackets ++ [d.exit]) ++ rest.text d.toBrackets =
        (Program.loop body rest).text d.toBrackets := by
      simp [Program.text]
    rw [htext] at htracks
    refine htracks.congr (fun r => Semantics.evaluates_loop_iff) fun o => ?_
    rw [← htext, Machine.ends_append]

end Dialect

end TapeMachine
