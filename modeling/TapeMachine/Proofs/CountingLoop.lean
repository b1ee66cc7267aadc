import TapeMachine.Proofs.StraightLine
import TapeMachine.Proofs.Unfolding

/-!
# Counting loops

A loop whose body only moves, adds and subtracts, and comes back to where it started, does the same to the cells in
every pass.  So what `n` passes do is known beforehand (`State.Turned`), and the loop ends with the first pass that
leaves zero in the cell that guards it (`countingLoop_closedForm`).  Cells wrap around, so whether there is such a pass
is a question of divisibility, not of the cell becoming smaller.
-/

namespace TapeMachine

open Machine (noHost noCustom onStore executeAt Ends)

theorem add_ofInt_eq_zero_iff (value : Cell) (n : Int) : value + .ofInt n = 0 ↔ (0x10000 : Int) ∣ value.toNat + n := by
  have hlt := value.toNat_lt
  unfold UInt16.ofInt
  rw [← UInt16.toNat_inj, UInt16.toNat_add, UInt16.toNat_ofNat', UInt16.toNat_zero]
  omega

namespace Reference

/-! ### The passes of a loop -/

/-- The body of a loop moves, adds and subtracts.  It stays on the row and comes back to where it started. -/
structure State.Circles (s : State) (body : List Char) : Prop where
  walks : ∀ c ∈ body, c ∈ ['>', '<', '+', '-']
  inside : ∀ i ≤ body.length, s.head + displacement (body.take i) ∈ Set.Ico 0 (s.cells.size : Int)
  returns : displacement body = 0

/-- The state `s'` is what `n` passes of a body make of `s`. -/
structure State.Turned (s : State) (body : List Char) (n : Nat) (s' : State) : Prop where
  size : s'.cells.size = s.cells.size
  head : (s'.head : Nat) = s.head
  cells (i : Nat) : s'.cells[i]? = s.cells[i]?.map (· + .ofInt (n * netIncrement body (i - s.head)))
  input : s'.input = s.input
  output : s'.output = s.output

variable {s s₁ : State} {body : List Char} {k n : Nat}

namespace State

/-- A body that comes back runs to its end. -/
theorem Circles.evaluates (h : s.Circles body) :
    ∃ s', (s.Walked body s' ∧ s'.output = s.output) ∧
      ∀ r, semantics.Evaluates (.ofChars body) s r ↔ r = .ok s' := by
  refine semantics.evaluates_ofChars (fun before s' => s.Walked before s' ∧ s'.output = s.output) ?_ ⟨.refl s, rfl⟩
  rintro before c s' hlt htake hc ⟨hwalked, houtput⟩
  obtain ⟨s'', hact, hwalked', houtput'⟩ := hwalked.step (h.walks c hc) (htake ▸ h.inside _ hlt)
  exact ⟨s'', hact, hwalked', houtput'.trans houtput⟩

theorem Turned.refl (s : State) (body : List Char) : s.Turned body 0 s := by
  refine ⟨rfl, rfl, fun i => ?_, rfl, rfl⟩
  rw [Int.natCast_zero, Int.zero_mul, show UInt16.ofInt 0 = 0 from rfl]
  simp

theorem Turned.circles (h : s.Turned body k s₁) (hs : s.Circles body) : s₁.Circles body := by
  refine ⟨hs.walks, ?_, hs.returns⟩
  rw [h.head, h.size]
  exact hs.inside

/-- The value under the head after some passes. -/
theorem Turned.cell (h : s.Turned body k s₁) : s₁.cell = s.cell + .ofInt (k * netIncrement body 0) := by
  have hcell := h.cells s.head
  have hbefore : s.cells[(s.head : Nat)]? = some s.cell := Array.getElem?_eq_getElem s.head.isLt
  have hafter : s₁.cells[(s.head : Nat)]? = some s₁.cell := by
    rw [← h.head]
    exact Array.getElem?_eq_getElem s₁.head.isLt
  rwa [hbefore, hafter, Option.map_some, Option.some.injEq, Int.sub_self] at hcell

theorem Turned.store (h : s.Turned body k s₁) : s₁.store = ⟨⟨s₁.cells, s.head⟩, s.input, s.output⟩ := by
  rw [State.store, h.head, h.input, h.output]

/-- One more pass. -/
theorem Turned.pass (h : s.Turned body k s₁) (hs : s.Circles body) :
    ∃ s₂, s.Turned body (k + 1) s₂ ∧ ∀ r, semantics.Evaluates (.ofChars body) s₁ r ↔ r = .ok s₂ := by
  obtain ⟨s₂, ⟨hwalked, houtput⟩, hevaluates⟩ := (h.circles hs).evaluates
  refine ⟨s₂, ⟨hwalked.size.trans h.size, ?_, fun i => ?_, hwalked.input.trans h.input, houtput.trans h.output⟩,
    hevaluates⟩
  · have hhead := hwalked.head
    rw [hs.returns, Int.add_zero, Int.natCast_inj] at hhead
    exact hhead.trans h.head
  · rw [hwalked.cells i, h.cells i, h.head, Option.map_map]
    congr 1
    funext value
    change value + _ + _ = value + _
    rw [Int.natCast_succ, Int.add_mul, Int.one_mul, UInt16.ofInt_add, UInt16.add_assoc]

end State

/-! ### The loop -/

/-- A loop ends with the first pass that leaves zero behind. -/
theorem State.Turned.evaluates_loop (h : s.Turned body k s₁) (hs : s.Circles body) (hle : k ≤ n)
    (hzero : s.cell + .ofInt (n * netIncrement body 0) = 0)
    (hbefore : ∀ j < n, s.cell + .ofInt (j * netIncrement body 0) ≠ 0) :
    ∃ s', s.Turned body n s' ∧ semantics.Evaluates (.loop (.ofChars body) .done) s₁ (.ok s') := by
  -- the induction is on the passes that are left
  obtain ⟨passes, rfl⟩ := Nat.exists_eq_add_of_le hle
  induction passes generalizing k s₁ with
  | zero => exact ⟨s₁, h, .exit (h.cell.trans hzero) (.done s₁)⟩
  | succ passes ih =>
    have hcell : semantics.cell s₁ ≠ 0 := fun hcell => hbefore k (by omega) (h.cell.symm.trans hcell)
    obtain ⟨s₂, hpass, hevaluates⟩ := h.pass hs
    have hsum : k + 1 + passes = k + (passes + 1) := by omega
    rw [← hsum] at hle hzero hbefore ⊢
    obtain ⟨s', hs', hloop⟩ := ih hpass (by omega) hzero hbefore
    exact ⟨s', hs', .pass hcell ((hevaluates _).2 rfl) hloop⟩

/-- A loop that ends has left zero behind after some pass, and has not failed. -/
theorem State.Turned.of_evaluates_loop (h : s.Turned body k s₁) (hs : s.Circles body) {r : Result State}
    (hr : semantics.Evaluates (.loop (.ofChars body) .done) s₁ r) :
    ∃ n s', r = .ok s' ∧ s.cell + .ofInt ((n : Nat) * netIncrement body 0) = 0 := by
  generalize hp : Program.loop (.ofChars body) .done = p at hr
  induction hr generalizing k with
  | done | act | act_error => cases hp
  | @exit _ _ s₁ _ hcell hdone =>
    cases hp
    cases hdone
    exact ⟨k, s₁, rfl, h.cell.symm.trans hcell⟩
  | pass _ hbody _ _ ih =>
    cases hp
    obtain ⟨s₂, hpass, hevaluates⟩ := h.pass hs
    cases (hevaluates _).1 hbody
    exact ih hpass rfl
  | pass_error _ hbody =>
    cases hp
    obtain ⟨s₂, -, hevaluates⟩ := h.pass hs
    cases (hevaluates _).1 hbody

end Reference

/-! ### The machine at the end of a loop -/

/-- A loop at the root is over when its replay is. -/
theorem Dialect.ends_exitLoop {d : Dialect Empty} (text : List Char) (s : Store FixedTape) {fuel : Nat}
    {o : Outcome (Machine FixedTape Empty)} (hne : o ≠ .aborted .outOfFuel)
    (ho : ((d.machine ⟨[⟨text, true⟩], 0⟩ s).saveAt 1 d.exit).exitLoop (executeAt (onStore noCustom) fuel) fuel 1 = o) :
    Ends (onStore noCustom) [d.exit] (d.machine ⟨[⟨text, true⟩], 0⟩ s) o := by
  have hget : (d.machine ⟨[⟨text, true⟩], 0⟩ s).stack.get? 1 = some (d.recording ⟨text, true⟩ []) := rfl
  have htop : (d.machine ⟨[⟨text, true⟩], 0⟩ s).stack.topIndex? = some 1 := rfl
  have hexecute : executeAt (onStore noCustom) (fuel + 1) 1 d.exit (d.machine ⟨[⟨text, true⟩], 0⟩ s) = o :=
    (Machine.executeAt_recording_replay hget htop (Recording.effect?_eq_replay_iff.2 rfl) fuel).trans ho
  refine ⟨hne, fuel + 1, ?_⟩
  change Machine.replayPass (executeAt (onStore noCustom) (fuel + 1)) [d.exit] _ = o
  rw [replayPass_machine, topIndex, if_pos rfl]
  exact (congrArg (Outcome.andThen · _) hexecute).trans (Outcome.andThen_done o)

namespace Reference

variable {s : State} {body : List Char} (hs : s.Circles body) (policy : Policy)

include hs

theorem State.Circles.acts : (Program.ofChars body).Forall (Dialect.standard : Dialect Empty).Acts := by
  refine Program.forall_ofChars fun c hc => Dialect.acts_of_mem ?_
  have hwalks := hs.walks c hc
  simp only [List.mem_cons, List.not_mem_nil, or_false] at hwalks ⊢
  tauto

/-- The feed of a loop, if a pass is the first that leaves zero behind. -/
theorem exists_yields_loop {n : Nat} (hzero : s.cell + .ofInt (n * netIncrement body 0) = 0)
    (hbefore : ∀ j < n, s.cell + .ofInt (j * netIncrement body 0) ≠ 0) :
    ∃ s', s.Turned body n s' ∧
      Runner.Yields noHost ('[' :: (body ++ [']'])) ⟨Dialect.standard.machine ⟨[], 0⟩ s.store, policy, false⟩
        (.ended ⟨body.length + 2, false⟩ ⟨Dialect.standard.machine ⟨[], 0⟩ s'.store, policy, false⟩) := by
  obtain ⟨s', hturned, hloop⟩ := (State.Turned.refl s body).evaluates_loop hs (Nat.zero_le n) hzero hbefore
  have hacts : (Program.loop (.ofChars body) .done).Forall (Dialect.standard : Dialect Empty).Acts := ⟨hs.acts, trivial⟩
  have htext : (Program.loop (.ofChars body) .done).text .square = '[' :: (body ++ [']']) := by
    rw [Program.text, Program.text_ofChars]
    rfl
  have hyields := yields_of_evaluates hacts policy hloop
  rw [htext, List.length_cons, List.length_append] at hyields
  exact ⟨s', hturned, hyields⟩

/-- The feed of a loop comes to an end if and only if some pass leaves zero behind. -/
theorem exists_yields_loop_iff :
    (∃ o, Runner.Yields noHost ('[' :: (body ++ [']'])) ⟨Dialect.standard.machine ⟨[], 0⟩ s.store, policy, false⟩ o) ↔
      ∃ n : Nat, s.cell + .ofInt (n * netIncrement body 0) = 0 := by
  constructor
  · rintro hyields
    have himpl := implements_semantics (CommandMap.addsHalts_standard (κ := Empty))
    have htracks := Dialect.tracks_loop himpl hs.acts (Dialect.tracks_text himpl hs.acts) [] s
    rw [Program.text_ofChars] at htracks
    have hok {r : Result State} (hr : semantics.Evaluates (.loop (.ofChars body) .done) s r) :=
      (State.Turned.refl s body).of_evaluates_loop hs hr
    have hknown (r : Result State) (hr : semantics.Evaluates (.loop (.ofChars body) .done) s r) :
        View.Known (.ofStore State.store) r := by
      obtain ⟨-, s', rfl, -⟩ := hok hr
      trivial
    rw [Machine.noHost_eq_onStore] at hyields
    obtain ⟨r, hr⟩ := (Runner.exists_yields_iff htracks hknown policy).1 hyields
    obtain ⟨n, -, -, hzero⟩ := hok hr
    exact ⟨n, hzero⟩
  · intro hzero
    have hleast := isLeast_csInf (Set.nonempty_def.2 hzero)
    obtain ⟨s', -, hyields⟩ := exists_yields_loop hs policy hleast.1
      fun j hj hzero => Nat.not_le_of_lt hj (hleast.2 hzero)
    exact ⟨_, hyields⟩

/-- The loop of a machine at the root that never leaves zero behind is replayed for ever. -/
theorem exists_yields_body (hnever : ∀ n : Nat, s.cell + .ofInt (n * netIncrement body 0) ≠ 0) :
    ∃ r₁, Runner.Yields noHost ('[' :: body) ⟨Dialect.standard.machine ⟨[], 0⟩ s.store, policy, false⟩
        (.ended ⟨body.length + 1, false⟩ r₁) ∧
      ∀ fuel, (r₁.machine.saveAt 1 ']').exitLoop (executeAt noHost fuel) fuel 1 = .aborted .outOfFuel := by
  have himpl := implements_semantics (CommandMap.addsHalts_standard (κ := Empty))
  have hrefl := State.Turned.refl s body
  have hcell : semantics.cell s ≠ 0 := fun hcell => hnever 0 (hrefl.cell.symm.trans hcell)
  obtain ⟨s₁, hpass, hevaluates⟩ := hrefl.pass hs
  have henter := Dialect.ends_enter himpl [] s
  rw [if_neg hcell] at henter
  have hbody := (Dialect.tracks_text himpl hs.acts [⟨[], true⟩] s).done ((hevaluates _).2 rfl)
  rw [Program.text_ofChars, Dialect.noteAll_open, List.nil_append, Dialect.noteAll_nil] at hbody
  rw [Machine.noHost_eq_onStore]
  refine ⟨⟨_, policy, false⟩, ⟨by simp, Runner.feed_of_ends (henter.append_iff.2 hbody)⟩, fun fuel => ?_⟩
  -- a replay that ended would be a loop that ends
  by_contra hne
  have htracks := Dialect.tracks_exit himpl (Dialect.tracks_text himpl hs.acts) [] s₁
  rw [Program.text_ofChars] at htracks
  obtain ⟨r, hr, -⟩ := htracks.result (Dialect.ends_exitLoop body s₁.store hne rfl)
  obtain ⟨n, -, -, hzero⟩ := hpass.of_evaluates_loop hs hr
  exact hnever n hzero

end Reference

open Reference

/-- A runner of the language that has nothing but the root on its stack has not ended its run. -/
theorem Runner.exists_store_of_endure {τ : Type} [Tape τ] {tape : τ} {policy : Policy} {input : Source} {output : Sink}
    {r₀ r : Runner τ Empty} (hstart : Runner.start tape {} .standard policy input output = .ok r₀) {fuel : Nat}
    {fed : List Char} (hfed : r₀.endure noHost fuel fed = some r)
    (hroot : r.machine.stack.items = #[.plain .standard]) :
    ∃ s, r = ⟨Dialect.standard.machine ⟨[], 0⟩ s, policy, false⟩ := by
  obtain rfl := Except.ok.inj ((Runner.start_machine .standard tape policy input output).symm.trans hstart)
  have hsound : (Dialect.standard : Dialect Empty).Sound ⟨[], 0⟩ := trivial
  have hhalt (c : Char) : (Dialect.standard : Dialect Empty).commands[c]? ≠ some Command.halt := by
    intro hc
    have hmem := CommandMap.getElem?_standard_iff.1 hc
    simp [CommandMap.bindings] at hmem
  have hfinished := Runner.isFinished_of_endure rfl hhalt hsound hfed
  obtain ⟨⟨levels, skipped⟩, s, isFinished, rfl, -⟩ := Runner.sound_of_endure rfl hsound hfed
  obtain rfl : isFinished = false := hfinished
  have hsize := Dialect.size_machine (Dialect.standard : Dialect Empty) ⟨levels, skipped⟩ s
  have hone : (Dialect.standard.machine (κ := Empty) ⟨levels, skipped⟩ s).stack.size = 1 := congrArg Array.size hroot
  rw [hone] at hsize
  obtain rfl : levels = [] := List.eq_nil_of_length_eq_zero (by simp only at hsize; omega)
  obtain rfl : skipped = 0 := by
    by_contra hskipped
    simp [hskipped] at hsize
  exact ⟨s, rfl⟩

/-- The closed form of a counting loop at the root, on a tape whose positions are words.  The runner may have been fed
anything before, and calls may have failed. -/
theorem countingLoop_closedForm (tape : FixedTape) (policy : Policy) (input : Source) (output : Sink)
    {r₀ r : Runner FixedTape Empty} (hstart : Runner.start tape {} .standard policy input output = .ok r₀) {fuel : Nat}
    {fed : List Char} (hfed : r₀.endure noHost fuel fed = some r)
    (hroot : r.machine.stack.items = #[.plain .standard]) {cells : Array Cell} {head : Nat}
    (htape : r.machine.tape = ⟨cells, head⟩) (hsize : cells.size < 0x8000000000000000) {value : Cell}
    (hvalue : cells[head]? = some value) {body : List Char} (hbody : ∀ c ∈ body, c ∈ ['>', '<', '+', '-'])
    (hreturns : displacement body = 0)
    (hinside : ∀ i ≤ body.length, head + displacement (body.take i) ∈ Set.Ico 0 (cells.size : Int)) :
    let zeroing := {n : Nat | (0x10000 : Int) ∣ value.toNat + n * netIncrement body 0}
    ((∃ o, r.Yields noHost ('[' :: (body ++ [']'])) o) ↔ zeroing.Nonempty) ∧
    (∀ n, IsLeast zeroing n → ∃ cells',
      r.Yields noHost ('[' :: (body ++ [']']))
        (.ended ⟨body.length + 2, false⟩ { r with machine := { r.machine with tape := ⟨cells', head⟩ } }) ∧
      cells'[head]? = some 0 ∧
      ∀ i : Nat, cells'[i]? = cells[i]?.map (· + .ofInt (n * netIncrement body (i - head)))) ∧
    (zeroing = ∅ → ∃ r₁, r.Yields noHost ('[' :: body) (.ended ⟨body.length + 1, false⟩ r₁) ∧
      ∀ fuel, (r₁.machine.saveAt 1 ']').exitLoop (executeAt noHost fuel) fuel 1 = .aborted .outOfFuel) := by
  intro zeroing
  obtain ⟨⟨_, input', output'⟩, rfl⟩ := Runner.exists_store_of_endure hstart hfed hroot
  obtain rfl := htape
  obtain ⟨hhead, rfl⟩ := Array.getElem?_eq_some_iff.1 hvalue
  let s : State := ⟨cells, ⟨head, hhead⟩, input', output', hsize⟩
  have hs : s.Circles body := ⟨hbody, hinside, hreturns⟩
  have hzeroing (n : Nat) : n ∈ zeroing ↔ s.cell + .ofInt (n * netIncrement body 0) = 0 :=
    (add_ofInt_eq_zero_iff _ _).symm
  refine ⟨?_, fun n hn => ?_, fun hempty => ?_⟩
  · rw [Set.Nonempty]
    simp only [hzeroing]
    exact exists_yields_loop_iff hs policy
  · have hbefore (j : Nat) (hj : j < n) : s.cell + .ofInt (j * netIncrement body 0) ≠ 0 := by
      intro hzero
      exact Nat.not_le_of_lt hj (hn.2 ((hzeroing j).2 hzero))
    obtain ⟨s', hturned, hyields⟩ := exists_yields_loop hs policy ((hzeroing n).1 hn.1) hbefore
    rw [hturned.store] at hyields
    refine ⟨s'.cells, hyields, ?_, hturned.cells⟩
    have hcell : s'.cells[(s'.head : Nat)]? = some s'.cell := Array.getElem?_eq_getElem s'.head.isLt
    rwa [hturned.head, hturned.cell, (hzeroing n).1 hn.1] at hcell
  · have hnever (n : Nat) : s.cell + .ofInt (n * netIncrement body 0) ≠ 0 := by
      intro hzero
      exact Set.notMem_empty n (hempty ▸ (hzeroing n).2 hzero)
    exact exists_yields_body hs policy hnever

/-- Three passes take the third cell through zero.  A loop that takes an odd number down by two never ends. -/
theorem countingLoop_closedForm_of_odd_cell :
    let r (cells : Array Cell) : Runner FixedTape Empty :=
      ⟨Dialect.standard.machine ⟨[], 0⟩ ⟨⟨cells, 0⟩, .ofBytes [], {}⟩, .standard, false⟩
    Runner.start (⟨#[0, 5, 65535], 0⟩ : FixedTape) {} .standard .standard (.ofBytes []) {} = .ok (r #[0, 5, 65535]) ∧
      (r #[0, 5, 65535]).endure noHost 9 ['+', '+', '<', '+'] = some (r #[3, 5, 65535]) ∧
      (r #[3, 5, 65535]).Yields noHost ['[', '-', '>', '>', '+', '+', '<', '<', ']']
        (.ended ⟨9, false⟩ (r #[0, 5, 5])) ∧
      ¬∃ o, (r #[3, 5, 65535]).Yields noHost ['[', '-', '-', ']'] o := by
  intro r
  have hstart : Runner.start (⟨#[0, 5, 65535], 0⟩ : FixedTape) {} .standard .standard (.ofBytes []) {} =
      .ok (r #[0, 5, 65535]) := rfl
  have hfed : (r #[0, 5, 65535]).endure noHost 9 ['+', '+', '<', '+'] = some (r #[3, 5, 65535]) := rfl
  have hvalue : (#[3, 5, 65535] : Array Cell)[0]? = some 3 := rfl
  obtain ⟨-, hends, -⟩ := countingLoop_closedForm _ .standard _ _ hstart hfed rfl rfl (by decide) hvalue
    (show ∀ c ∈ ['-', '>', '>', '+', '+', '<', '<'], _ by simp) (by decide) (by decide)
  obtain ⟨hreturns, -, -⟩ := countingLoop_closedForm _ .standard _ _ hstart hfed rfl rfl (by decide) hvalue
    (show ∀ c ∈ ['-', '-'], _ by simp) (by decide) (by decide)
  refine ⟨hstart, hfed, ?_, ?_⟩
  · have hdelta : netIncrement ['-', '>', '>', '+', '+', '<', '<'] 0 = -1 := by decide
    have hthree : IsLeast {n : Nat | (0x10000 : Int) ∣ (3 : Cell).toNat + n * -1} 3 := by
      refine ⟨by decide, fun n hn => ?_⟩
      have hn : (0x10000 : Int) ∣ 3 + n * -1 := hn
      omega
    obtain ⟨cells, hyields, -, hcells⟩ := hends 3 (by rwa [hdelta])
    obtain rfl : cells = #[0, 5, 5] := by
      refine Array.ext_getElem? fun i => ?_
      rw [hcells]
      rcases i with _ | _ | _ | i
      · decide
      · decide
      · decide
      · simp
    exact hyields
  · rintro hyields
    obtain ⟨n, hn⟩ := hreturns.1 hyields
    have hdelta : netIncrement ['-', '-'] 0 = -2 := by decide
    have hn : (0x10000 : Int) ∣ 3 + n * netIncrement ['-', '-'] 0 := hn
    rw [hdelta] at hn
    omega

end TapeMachine
