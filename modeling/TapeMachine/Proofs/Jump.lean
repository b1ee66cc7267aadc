import TapeMachine.Proofs.Program

/-!
# Jumping between brackets

Another way to run a program: with a counter over its text.  An opening bracket on a zero cell jumps behind the bracket
that closes the loop, and a closing bracket on any other cell jumps back behind the one that opens it.

A run remembers the largest counter it has had (`Config.furthest`).  The main statement is `Path.result`: a run that
stops has evaluated the program, and if it failed then the furthest counter is where the program `StopsAt`.
-/

namespace TapeMachine.Jump

variable {σ : Type}

/-- A point of a run. -/
structure Config (σ : Type) where
  counter : Nat
  /-- The largest counter so far. -/
  furthest : Nat
  state : σ

def Config.goto (config : Config σ) (counter : Nat) (state : σ) : Config σ :=
  ⟨counter, max config.furthest counter, state⟩

@[simp]
theorem Config.counter_goto (config : Config σ) (counter : Nat) (state : σ) :
    (config.goto counter state).counter = counter := rfl

@[simp]
theorem Config.furthest_goto (config : Config σ) (counter : Nat) (state : σ) :
    (config.goto counter state).furthest = max config.furthest counter := rfl

/-- The brackets at two places of a text open and close one loop. -/
inductive Matches (b : Brackets) : List Char → Nat → Nat → Prop where
  | intro (before body after : List Char) (hbody : b.Balanced body) :
    Matches b (before ++ b.enter :: (body ++ b.exit :: after)) before.length (before.length + 1 + body.length)

/-- A run goes on. -/
inductive Step (sem : Semantics σ (Fault × σ)) (b : Brackets) (source : List Char) : Config σ → Config σ → Prop where
  | act {config : Config σ} {c : Char} {s : σ} (hc : source[config.counter]? = some c) (hn : c ≠ b.enter)
    (hx : c ≠ b.exit) (hact : sem.act c config.state = .ok s) :
    Step sem b source config (config.goto (config.counter + 1) s)
  | enter {config : Config σ} (hc : source[config.counter]? = some b.enter) (hcell : sem.cell config.state ≠ 0) :
    Step sem b source config (config.goto (config.counter + 1) config.state)
  | skip {config : Config σ} {j : Nat} (hmatches : Matches b source config.counter j)
    (hcell : sem.cell config.state = 0) : Step sem b source config (config.goto (j + 1) config.state)
  | back {config : Config σ} {i : Nat} (hmatches : Matches b source i config.counter)
    (hcell : sem.cell config.state ≠ 0) : Step sem b source config (config.goto (i + 1) config.state)
  | leave {config : Config σ} (hc : source[config.counter]? = some b.exit) (hcell : sem.cell config.state = 0) :
    Step sem b source config (config.goto (config.counter + 1) config.state)

/-- A run gets from one point to another, in so many steps. -/
inductive Path (sem : Semantics σ (Fault × σ)) (b : Brackets) (source : List Char) :
    Nat → Config σ → Config σ → Prop where
  | refl (config : Config σ) : Path sem b source 0 config config
  | cons {n : Nat} {config config' config'' : Config σ} (hstep : Step sem b source config config')
    (hpath : Path sem b source n config' config'') : Path sem b source (n + 1) config config''

/-- A run stops: it is behind the last character, or at one that fails. -/
inductive Stops (sem : Semantics σ (Fault × σ)) (b : Brackets) (source : List Char) (config : Config σ) :
    Result σ → Prop where
  | ended (hcounter : config.counter = source.length) : Stops sem b source config (.ok config.state)
  | failed {c : Char} {e : Fault × σ} (hc : source[config.counter]? = some c) (hn : c ≠ b.enter) (hx : c ≠ b.exit)
    (hact : sem.act c config.state = .error e) : Stops sem b source config (.error e)

variable {sem : Semantics σ (Fault × σ)} {b : Brackets} {source : List Char}

/-! ### Matching brackets -/

private theorem getElem?_length (before : List Char) (c : Char) (after : List Char) :
    (before ++ c :: after)[before.length]? = some c := by
  rw [List.getElem?_append_right (Nat.le_refl _), Nat.sub_self]
  rfl

theorem Matches.right_unique {i j j' : Nat} (h : Matches b source i j) (h' : Matches b source i j') : j = j' := by
  obtain ⟨before, body, after, hbody⟩ := h
  generalize hsource : before ++ b.enter :: (body ++ b.exit :: after) = source at h'
  generalize hi : before.length = i at h'
  obtain ⟨before', body', after', hbody'⟩ := h'
  obtain ⟨rfl, hrest⟩ := List.append_inj hsource hi
  rw [hbody.eq_of_append_exit hbody' (List.cons.inj hrest).2]

theorem Matches.left_unique {i i' j : Nat} (h : Matches b source i j) (h' : Matches b source i' j) : i = i' := by
  obtain ⟨before, body, after, hbody⟩ := h
  generalize hsource : before ++ b.enter :: (body ++ b.exit :: after) = source at h'
  generalize hj : before.length + 1 + body.length = j at h'
  obtain ⟨before', body', after', hbody'⟩ := h'
  rw [← List.cons_append, ← List.append_assoc, ← List.cons_append, ← List.append_assoc] at hsource
  have hlength : (before ++ b.enter :: body).length = (before' ++ b.enter :: body').length := by
    simp only [List.length_append, List.length_cons]
    omega
  rw [hbody.eq_of_append_enter hbody' (List.append_inj hsource hlength).1]

theorem Matches.getElem?_left {i j : Nat} (h : Matches b source i j) : source[i]? = some b.enter := by
  obtain ⟨before, body, after, hbody⟩ := h
  exact getElem?_length before b.enter _

theorem Matches.getElem?_right {i j : Nat} (h : Matches b source i j) : source[j]? = some b.exit := by
  obtain ⟨before, body, after, hbody⟩ := h
  have hget := getElem?_length (before ++ b.enter :: body) b.exit after
  rw [List.append_assoc, List.length_append, List.length_cons] at hget
  rw [Nat.add_assoc, Nat.add_comm 1]
  exact hget

/-! ### What a run does at a character -/

theorem Step.of_act {config config' : Config σ} (h : Step sem b source config config') {c : Char}
    (hc : source[config.counter]? = some c) (hn : c ≠ b.enter) (hx : c ≠ b.exit) :
    ∃ s, sem.act c config.state = .ok s ∧ config' = config.goto (config.counter + 1) s := by
  cases h with
  | act hc' _ _ hact =>
    rw [hc, Option.some.injEq] at hc'
    subst hc'
    exact ⟨_, hact, rfl⟩
  | enter hc' =>
    rw [hc, Option.some.injEq] at hc'
    exact absurd hc' hn
  | skip hmatches =>
    rw [hmatches.getElem?_left, Option.some.injEq] at hc
    exact absurd hc.symm hn
  | back hmatches =>
    rw [hmatches.getElem?_right, Option.some.injEq] at hc
    exact absurd hc.symm hx
  | leave hc' =>
    rw [hc, Option.some.injEq] at hc'
    exact absurd hc' hx

theorem Step.of_enter {config config' : Config σ} (h : Step sem b source config config') {j : Nat}
    (hmatches : Matches b source config.counter j) :
    sem.cell config.state ≠ 0 ∧ config' = config.goto (config.counter + 1) config.state ∨
      sem.cell config.state = 0 ∧ config' = config.goto (j + 1) config.state := by
  have hc := hmatches.getElem?_left
  cases h with
  | act hc' hn =>
    rw [hc, Option.some.injEq] at hc'
    exact absurd hc'.symm hn
  | enter _ hcell => exact .inl ⟨hcell, rfl⟩
  | skip hmatches' hcell =>
    rw [hmatches'.right_unique hmatches]
    exact .inr ⟨hcell, rfl⟩
  | back hmatches' =>
    rw [hmatches'.getElem?_right, Option.some.injEq] at hc
    exact absurd hc b.distinct
  | leave hc' =>
    rw [hc, Option.some.injEq] at hc'
    exact absurd hc'.symm b.distinct

theorem Step.of_exit {config config' : Config σ} (h : Step sem b source config config') {i : Nat}
    (hmatches : Matches b source i config.counter) :
    sem.cell config.state ≠ 0 ∧ config' = config.goto (i + 1) config.state ∨
      sem.cell config.state = 0 ∧ config' = config.goto (config.counter + 1) config.state := by
  have hc := hmatches.getElem?_right
  cases h with
  | act hc' _ hx =>
    rw [hc, Option.some.injEq] at hc'
    exact absurd hc'.symm hx
  | enter hc' =>
    rw [hc, Option.some.injEq] at hc'
    exact absurd hc' b.distinct
  | skip hmatches' =>
    rw [hmatches'.getElem?_left, Option.some.injEq] at hc
    exact absurd hc.symm b.distinct
  | back hmatches' hcell =>
    rw [hmatches'.left_unique hmatches]
    exact .inl ⟨hcell, rfl⟩
  | leave _ hcell => exact .inr ⟨hcell, rfl⟩

/-- A run stops at no bracket. -/
theorem Stops.exists_act {config : Config σ} {r : Result σ} (h : Stops sem b source config r) {c : Char}
    (hc : source[config.counter]? = some c) :
    ∃ e, c ≠ b.enter ∧ c ≠ b.exit ∧ sem.act c config.state = .error e ∧ r = .error e := by
  cases h with
  | ended hcounter =>
    rw [hcounter, List.getElem?_eq_none (Nat.le_refl _)] at hc
    cases hc
  | failed hc' hn hx hact =>
    rw [hc, Option.some.injEq] at hc'
    subst hc'
    exact ⟨_, hn, hx, hact, rfl⟩

/-! ### Following the tree -/

/-- What becomes of a run that starts on the text of a program and stops with `r`: it gets to the end of the text, or it
fails on the way. -/
inductive Passes (sem : Semantics σ (Fault × σ)) (b : Brackets) (source : List Char) (p : Program) (config : Config σ)
    (n : Nat) (final : Config σ) (r : Result σ) : Prop where
  | done {m : Nat} {s : σ} (hle : m ≤ n) (heval : sem.Evaluates p config.state (.ok s))
    (hpath : Path sem b source m (config.goto (config.counter + (p.text b).length) s) final)
  | failed {passed : Nat} {e : Fault × σ} (hr : r = .error e) (hstops : sem.StopsAt b p config.state passed e)
    (hfurthest : final.furthest = max config.furthest (config.counter + passed))

section

variable {before after : List Char} {config final : Config σ} {n : Nat} {r : Result σ}

private theorem counter_le_furthest_goto (config : Config σ) (counter : Nat) (s : σ) :
    (config.goto counter s).counter ≤ (config.goto counter s).furthest :=
  Nat.le_max_right config.furthest counter

/-- A run that goes on further on, with the counter written in another way. -/
private theorem path_goto {counter counter' counter'' : Nat} {s s' : σ}
    (hpath : Path sem b source n ((config.goto counter s).goto counter' s') final) (hle : counter ≤ counter')
    (heq : counter' = counter'') : Path sem b source n (config.goto counter'' s') final := by
  subst heq
  simp only [Config.goto, Nat.max_assoc, Nat.max_eq_right hle] at hpath
  exact hpath

private theorem goto_self (hle : config.counter ≤ config.furthest) :
    config.goto config.counter config.state = config := by
  rw [Config.goto, Nat.max_eq_left hle]

/-- A run on the text of a loop that is past its first pass. -/
private theorem passes_loop {body : Program}
    (hbody : ∀ {before after : List Char} {config : Config σ} {n : Nat}, source = before ++ (body.text b ++ after) →
      config.counter = before.length → config.counter ≤ config.furthest → Path sem b source n config final →
      Passes sem b source body config n final r)
    (hbalanced : b.Balanced (body.text b)) (hfinal : Stops sem b source final r)
    (hsource : source = before ++ b.enter :: (body.text b ++ b.exit :: after))
    (hcounter : config.counter = before.length + 1 + (body.text b).length) (hle : config.counter ≤ config.furthest)
    (hpath : Path sem b source n config final) :
    (∃ m s, m < n ∧ sem.Evaluates (.loop body .done) config.state (.ok s) ∧
        Path sem b source m (config.goto (config.counter + 1) s) final) ∨
      ∃ e, r = .error e ∧ sem.Evaluates (.loop body .done) config.state (.error e) ∧
        final.furthest = config.furthest := by
  -- a pass may take any number of steps, so the induction is on all the steps that are left
  induction n using Nat.strongRecOn generalizing config with
  | ind n ih =>
    have hmatches : Matches b source before.length config.counter := by
      rw [hsource, hcounter]
      exact .intro before _ after hbalanced
    cases hpath with
    | refl =>
      obtain ⟨e, -, hx, -⟩ := hfinal.exists_act hmatches.getElem?_right
      exact absurd rfl hx
    | @cons n _ config' _ hstep hrest =>
      rcases hstep.of_exit hmatches with ⟨hcell, rfl⟩ | ⟨hcell, rfl⟩
      · -- another pass, in which the furthest counter stays where it is
        have hback : config.goto (before.length + 1) config.state =
            ⟨before.length + 1, config.furthest, config.state⟩ := by
          rw [Config.goto, Nat.max_eq_left (by omega)]
        rw [hback] at hrest
        have hinside : source = (before ++ [b.enter]) ++ (body.text b ++ b.exit :: after) := by
          rw [hsource, List.append_assoc]
          rfl
        have hpasses := hbody hinside (by simp) (by simp; omega) hrest
        cases hpasses with
        | @done m s hm heval hpath =>
          have hagain : Config.goto ⟨before.length + 1, config.furthest, config.state⟩
              (before.length + 1 + (body.text b).length) s = ⟨config.counter, config.furthest, s⟩ := by
            rw [Config.goto, ← hcounter, Nat.max_eq_left hle]
          rw [hagain] at hpath
          have hnext : (Config.mk config.counter config.furthest s).counter = _ := hcounter
          rcases ih m (by omega) hnext hle hpath with ⟨m', s', hm', heval', hpath'⟩ | ⟨e, hr, heval', hfurthest⟩
          · exact .inl ⟨m', s', by omega, .pass hcell heval heval', hpath'⟩
          · exact .inr ⟨e, hr, .pass hcell heval heval', hfurthest⟩
        | @failed passed e hr hstops hfurthest =>
          have hpassed := hstops.lt_length
          refine .inr ⟨e, hr, .pass_error hcell hstops.evaluates, ?_⟩
          simp only at hfurthest
          omega
      · exact .inl ⟨n, config.state, Nat.lt_succ_self n, .exit hcell (.done _), hrest⟩

/-- A run on the text of a program follows the tree. -/
theorem Path.passes {p : Program} (hp : p.Forall fun c => c ≠ b.enter ∧ c ≠ b.exit)
    (hfinal : Stops sem b source final r)
    (hsource : source = before ++ (p.text b ++ after)) (hcounter : config.counter = before.length)
    (hle : config.counter ≤ config.furthest) (hpath : Path sem b source n config final) :
    Passes sem b source p config n final r := by
  induction p generalizing before after config n with
  | done => exact .done (Nat.le_refl n) (.done _) (by rwa [Program.text, List.length_nil, Nat.add_zero, goto_self hle])
  | act c rest ih =>
    have hc : source[config.counter]? = some c := by
      rw [hsource, hcounter]
      exact getElem?_length before c _
    cases hpath with
    | refl =>
      obtain ⟨e, -, -, hact, hr⟩ := hfinal.exists_act hc
      exact .failed hr (.act_error hact) (by omega)
    | @cons n _ _ _ hstep hrest =>
      obtain ⟨s, hact, rfl⟩ := hstep.of_act hc hp.1.1 hp.1.2
      have hnext : source = (before ++ [c]) ++ (rest.text b ++ after) := by
        rw [hsource, List.append_assoc]
        rfl
      have hpasses := ih hp.2 hnext (by simp [hcounter]) (counter_le_furthest_goto _ _ _) hrest
      cases hpasses with
      | @done m s' hm heval hpath =>
        refine .done (m := m) (by omega) (.act hact heval) (path_goto hpath (Nat.le_add_right _ _) ?_)
        rw [Program.text, List.length_cons, Config.counter_goto]
        omega
      | @failed passed e hr hstops hfurthest =>
        refine .failed hr (.act hact hstops) ?_
        rw [Config.furthest_goto, Config.counter_goto] at hfurthest
        omega
  | loop body rest ihbody ihrest =>
    have hbalanced := Program.balanced_text hp.1
    have hloop : source = before ++ b.enter :: (body.text b ++ b.exit :: (rest.text b ++ after)) := by
      rw [hsource, Program.text]
      simp only [List.cons_append, List.append_assoc]
    have hmatches : Matches b source config.counter (config.counter + 1 + (body.text b).length) := by
      rw [hloop, hcounter]
      exact .intro before _ _ hbalanced
    have hlength : ((Program.loop body rest).text b).length = (body.text b).length + 2 + (rest.text b).length := by
      rw [Program.text, List.length_cons, List.length_append, List.length_cons]
      omega
    -- what is left to do once the loop is over
    have hbehind {m : Nat} {s : σ} (hm : m ≤ n) (heval : sem.Evaluates (.loop body .done) config.state (.ok s))
        (hpath : Path sem b source m (config.goto (config.counter + 1 + (body.text b).length + 1) s) final) :
        Passes sem b source (.loop body rest) config n final r := by
      have hnext : source = (before ++ b.enter :: (body.text b ++ [b.exit])) ++ (rest.text b ++ after) := by
        rw [hloop]
        simp only [List.cons_append, List.append_assoc, List.nil_append]
      have hpasses := ihrest hp.2 hnext (by simp [hcounter]; omega) (counter_le_furthest_goto _ _ _) hpath
      cases hpasses with
      | @done m' s' hm' heval' hpath' =>
        refine .done (m := m') (by omega) (Semantics.evaluates_loop_iff.2 ⟨_, heval, heval'⟩)
          (path_goto hpath' (Nat.le_add_right _ _) ?_)
        rw [hlength, Config.counter_goto]
        omega
      | @failed passed e hr hstops hfurthest =>
        refine .failed hr (.rest heval hstops) ?_
        rw [Config.furthest_goto, Config.counter_goto] at hfurthest
        omega
    cases hpath with
    | refl =>
      obtain ⟨e, hn, -⟩ := hfinal.exists_act hmatches.getElem?_left
      exact absurd rfl hn
    | @cons n _ _ _ hstep hrest =>
      rcases hstep.of_enter hmatches with ⟨hcell, rfl⟩ | ⟨hcell, rfl⟩
      · have hinside : source = (before ++ [b.enter]) ++ (body.text b ++ b.exit :: (rest.text b ++ after)) := by
          rw [hloop, List.append_assoc]
          rfl
        have hfirst := ihbody hp.1 hinside (by simp [hcounter]) (counter_le_furthest_goto _ _ _) hrest
        cases hfirst with
        | @done m s hm heval hpath =>
          have hclosing := path_goto hpath (Nat.le_add_right _ _) rfl
          have hpasses := passes_loop (ihbody hp.1) hbalanced hfinal hloop
            (by simp [hcounter]) (counter_le_furthest_goto _ _ _) hclosing
          rcases hpasses with ⟨m', s', hm', heval', hpath'⟩ | ⟨e, hr, heval', hfurthest⟩
          · have hbehind' := path_goto hpath' (Nat.le_add_right _ _) rfl
            exact hbehind (by omega) (.pass hcell heval heval') hbehind'
          · refine .failed hr (.replay hcell heval heval') ?_
            rw [Config.furthest_goto, Config.counter_goto] at hfurthest
            omega
        | @failed passed e hr hstops hfurthest =>
          refine .failed hr (.body hcell hstops) ?_
          rw [Config.furthest_goto, Config.counter_goto] at hfurthest
          omega
      · exact hbehind (by omega) (.exit hcell (.done _)) hrest

end

private theorem not_step_of_length_le {config config' : Config σ} (hlength : source.length ≤ config.counter) :
    ¬Step sem b source config config' := by
  intro h
  have hnone := List.getElem?_eq_none hlength
  cases h with
  | act hc | enter hc | leave hc =>
    rw [hc] at hnone
    cases hnone
  | skip hmatches =>
    rw [hmatches.getElem?_left] at hnone
    cases hnone
  | back hmatches =>
    rw [hmatches.getElem?_right] at hnone
    cases hnone

/-- A run that stops has evaluated the program, and has failed where the program stops. -/
theorem Path.result {p : Program} (hp : p.Forall fun c => c ≠ b.enter ∧ c ≠ b.exit) {n : Nat} {s : σ} {final : Config σ}
    {r : Result σ} (hpath : Path sem b (p.text b) n ⟨0, 0, s⟩ final) (hfinal : Stops sem b (p.text b) final r) :
    (∃ s', r = .ok s' ∧ sem.Evaluates p s r) ∨ ∃ e, r = .error e ∧ sem.StopsAt b p s final.furthest e := by
  have hsource : p.text b = [] ++ (p.text b ++ []) := by simp
  have hpasses := hpath.passes hp hfinal hsource rfl (Nat.le_refl 0)
  cases hpasses with
  | @done m s' _ heval hrest =>
    left
    cases hrest with
    | refl =>
      cases hfinal with
      | ended => exact ⟨s', rfl, heval⟩
      | failed hc =>
        rw [Config.counter_goto, Nat.zero_add, List.getElem?_eq_none (Nat.le_refl _)] at hc
        cases hc
    | cons hstep => exact absurd hstep (not_step_of_length_le (by simp))
  | @failed passed e hr hstops hfurthest =>
    refine .inr ⟨e, hr, ?_⟩
    rw [hfurthest, Nat.zero_add, Nat.max_eq_right (Nat.zero_le passed)]
    exact hstops

end TapeMachine.Jump
