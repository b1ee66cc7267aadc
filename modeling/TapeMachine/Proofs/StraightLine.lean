import TapeMachine.Proofs.Chunks
import TapeMachine.Proofs.Frontier
import TapeMachine.Proofs.Walk

/-!
# Texts without loops

What a runner does with a text of moves, additions, subtractions and outputs can be read off the text
(`straightLine_closedForm`).  The head is where the moves take it, a cell holds what was added to it, and a byte of the
output is what its cell held when it was printed.  If the moves leave the tape, then the run stops at the first one that
does.
-/

namespace TapeMachine

open Machine (noHost)

/-- The bytes that a text prints if all cells are zero at first: for each dot, what was added by then to the cell that
the head is on. -/
def printed (text : List Char) : List UInt8 :=
  (List.range text.length).filterMap fun i =>
    if text[i]? = some '.' then some (.ofInt (netIncrement (text.take i) (displacement (text.take i)))) else none

example : printed ['.', '-', '.', '>', '.', '<', '.'] = [0, 255, 0, 255] := by decide

theorem printed_concat (text : List Char) (c : Char) :
    printed (text ++ [c]) =
      printed text ++ if c = '.' then [.ofInt (netIncrement text (displacement text))] else [] := by
  have hbefore : (List.range text.length).filterMap (fun i => if (text ++ [c])[i]? = some '.' then
        some (UInt8.ofInt (netIncrement ((text ++ [c]).take i) (displacement ((text ++ [c]).take i)))) else none) =
      printed text := by
    refine List.filterMap_congr fun i hi => ?_
    have hlt := List.mem_range.1 hi
    rw [List.getElem?_append_left hlt, List.take_append_of_le_length (Nat.le_of_lt hlt)]
  unfold printed at hbefore ⊢
  rw [List.length_append, List.length_singleton, List.range_succ, List.filterMap_append, hbefore]
  by_cases hc : c = '.'
  · simp [hc]
  · simp [hc]

theorem toUInt8_ofInt (n : Int) : (UInt16.ofInt n).toUInt8 = UInt8.ofInt n := by
  unfold UInt16.ofInt UInt8.ofInt
  rw [← UInt8.toNat_inj]
  simp only [UInt16.toNat_toUInt8, UInt16.toNat_ofNat', UInt8.toNat_ofNat']
  omega

namespace Reference

/-! ### From a blank row -/

/-- A row of zeros with the head on the first of them, and an empty sink. -/
def State.blank (capacity : Nat) (hcapacity : 0 < capacity) (hsize : capacity < 0x8000000000000000) (input : Source) :
    State :=
  ⟨.replicate capacity 0, ⟨0, by simpa using hcapacity⟩, input, {}, by simpa using hsize⟩

/-- The state that a text without loops leaves behind, and what it has printed. -/
structure State.Drawn (s : State) (text : List Char) (s' : State) : Prop extends s.Walked text s' where
  output : s'.output = { written := (printed text).toArray }

section

variable {capacity : Nat} {hcapacity : 0 < capacity} {hsize : capacity < 0x8000000000000000} {input : Source}
  {text : List Char} {s' : State}

theorem State.size_blank : (blank capacity hcapacity hsize input).cells.size = capacity := Array.size_replicate

theorem State.head_blank : ((blank capacity hcapacity hsize input).head : Int) = 0 := rfl

theorem State.Drawn.getElem? (h : (State.blank capacity hcapacity hsize input).Drawn text s') (q : Nat) :
    s'.cells[q]? = if q < capacity then some (.ofInt (netIncrement text q)) else none := by
  have hcells := h.cells q
  simp only [State.blank, Array.getElem?_replicate] at hcells
  split at hcells
  · next hq => simpa [hq] using hcells
  · next hq => simpa [hq] using hcells

/-- The cell under the head holds what was added to it. -/
theorem State.Drawn.cell (h : (State.blank capacity hcapacity hsize input).Drawn text s') :
    s'.cell = .ofInt (netIncrement text (displacement text)) := by
  have hhead := h.head
  rw [State.head_blank, Int.zero_add] at hhead
  have hcell := h.getElem? s'.head
  have hlt : (s'.head : Nat) < capacity := by
    have hcells := h.size
    rw [State.size_blank] at hcells
    exact hcells ▸ s'.head.isLt
  rw [Array.getElem?_eq_getElem s'.head.isLt, if_pos hlt, Option.some.injEq, hhead] at hcell
  exact hcell

/-- One more character, if the head stays on the row. -/
theorem State.Drawn.step (h : (State.blank capacity hcapacity hsize input).Drawn text s') {c : Char}
    (hc : c ∈ ['>', '<', '+', '-', '.'])
    (hinside : 0 ≤ displacement (text ++ [c]) ∧ displacement (text ++ [c]) < capacity) :
    ∃ s'', s'.obey c = .ok s'' ∧ (State.blank capacity hcapacity hsize input).Drawn (text ++ [c]) s'' := by
  by_cases hdot : c = '.'
  · subst hdot
    have hwrite : s'.output.write s'.cell.toUInt8 = (.ok (), { written := (printed (text ++ ['.'])).toArray }) := by
      rw [h.output, h.cell, toUInt8_ofInt, printed_concat, if_pos rfl]
      simp [Sink.write, Sink.verdict]
    refine ⟨_, ?_, h.toWalked.print { written := (printed (text ++ ['.'])).toArray }, rfl⟩
    change s'.write s'.cell.toUInt8 = _
    rw [State.write, hwrite]
  · have hwalks : c ∈ ['>', '<', '+', '-'] := by simpa [hdot] using hc
    obtain ⟨s'', hobey, hwalked, houtput⟩ :=
      h.toWalked.step hwalks (by rwa [State.head_blank, Int.zero_add, State.size_blank])
    refine ⟨s'', hobey, hwalked, ?_⟩
    rw [houtput, h.output, printed_concat, if_neg hdot, List.append_nil]

/-- A text that stays on the row runs to its end. -/
theorem exists_drawn (hcapacity : 0 < capacity) (hsize : capacity < 0x8000000000000000) (input : Source)
    (htext : ∀ c ∈ text, c ∈ ['>', '<', '+', '-', '.'])
    (hinside : ∀ i ≤ text.length, displacement (text.take i) ∈ Set.Ico 0 (capacity : Int)) :
    ∃ s', (State.blank capacity hcapacity hsize input).Drawn text s' ∧
      semantics.Evaluates (.ofChars text) (State.blank capacity hcapacity hsize input) (.ok s') := by
  obtain ⟨s', hs', hevaluates⟩ := semantics.evaluates_ofChars (State.blank capacity hcapacity hsize input).Drawn
    (fun before c s hlt htake hc hs => hs.step (htext c hc) (htake ▸ hinside _ hlt)) ⟨.refl _, rfl⟩
  exact ⟨s', hs', (hevaluates _).2 rfl⟩

/-- A text stops at the first move that leaves the row. -/
theorem exists_drawn_stopsAt (hcapacity : 0 < capacity) (hsize : capacity < 0x8000000000000000) (input : Source)
    (htext : ∀ c ∈ text, c ∈ ['>', '<', '+', '-', '.']) {i : Nat} (hi : i < text.length)
    (hbefore : ∀ j ≤ i, displacement (text.take j) ∈ Set.Ico 0 (capacity : Int))
    (houtside : displacement (text.take (i + 1)) ∉ Set.Ico 0 (capacity : Int)) :
    ∃ s', (State.blank capacity hcapacity hsize input).Drawn (text.take i) s' ∧
      semantics.StopsAt .square (.ofChars text) (State.blank capacity hcapacity hsize input) i
        (.outOfBounds ⟨displacement (text.take (i + 1)), capacity⟩, s') := by
  have hlength : (text.take i).length = i := List.length_take_of_le (Nat.le_of_lt hi)
  have hconcat : text.take i ++ [text[i]] = text.take (i + 1) := List.take_append_getElem hi
  obtain ⟨s', hs', hevaluates⟩ : ∃ s', (State.blank capacity hcapacity hsize input).Drawn (text.take i) s' ∧ _ := by
    refine exists_drawn hcapacity hsize input (fun c hc => htext c (List.mem_of_mem_take hc)) fun j hj => ?_
    rw [hlength] at hj
    rw [List.take_take, Nat.min_eq_left hj]
    exact hbefore j hj
  have hmove : text[i] = '>' ∨ text[i] = '<' := by
    by_contra hstays
    rw [not_or] at hstays
    have hshift : shift text[i] = 0 := by rw [shift, if_neg hstays.1, if_neg hstays.2]
    rw [← hconcat, displacement_concat, hshift, Int.add_zero] at houtside
    exact houtside (hbefore i (Nat.le_refl i))
  have hleave := hs'.toWalked.leave hmove
    (by rwa [State.head_blank, Int.zero_add, State.size_blank, hconcat])
  rw [State.head_blank, Int.zero_add, State.size_blank, hconcat] at hleave
  have hstops := Semantics.stopsAt_ofChars .square hevaluates hleave (text.drop (i + 1))
  rw [hlength, ← List.drop_eq_getElem_cons hi, List.take_append_drop] at hstops
  exact ⟨s', hs', hstops⟩

end

/-! ### Feeding a text -/

section

variable {p : Program} (hp : p.Forall (Dialect.standard : Dialect Empty).Acts) {s : State} (policy : Policy)

include hp

theorem yields_of_evaluates {s' : State} (h : semantics.Evaluates p s (.ok s')) :
    Runner.Yields noHost (p.text .square) ⟨Dialect.standard.machine ⟨[], 0⟩ s.store, policy, false⟩
      (.ended ⟨(p.text .square).length, false⟩ ⟨Dialect.standard.machine ⟨[], 0⟩ s'.store, policy, false⟩) := by
  have hends := (Dialect.tracks_text (implements_semantics CommandMap.addsHalts_standard) hp [] s).done h
  rw [Dialect.noteAll_nil] at hends
  rw [Machine.noHost_eq_onStore]
  exact ⟨by simp, Runner.feed_of_ends hends⟩

theorem yields_of_stopsAt {passed : Nat} {cause : OutOfBounds} {s' : State}
    (h : semantics.StopsAt .square p s passed (.outOfBounds cause, s')) :
    ∃ c m, (p.text .square)[passed]? = some c ∧ m.store = s'.store ∧
      Runner.Yields noHost (p.text .square) ⟨Dialect.standard.machine ⟨[], 0⟩ s.store, policy, false⟩
        (.failed ⟨passed, c, .outOfBounds cause⟩ ⟨m, policy, false⟩) := by
  have hfails := Dialect.failsOn_text (implements_semantics CommandMap.addsHalts_standard) hp h []
  obtain ⟨fuel, c, m, hc, hstore, hfeed⟩ := Runner.feed_of_failsOn hfails trivial
  rw [if_neg (by simp)] at hfeed
  rw [Machine.noHost_eq_onStore]
  exact ⟨c, m, hc, hstore, by simp, fuel, hfeed⟩

end

end Reference

open Reference

/-- A runner on a tape of `capacity` cells has done what a text without loops does to a blank one. -/
structure Runner.Draws (r : Runner FixedTape Empty) (capacity : Nat) (text : List Char) : Prop where
  head : r.head = displacement text
  cells (q : Int) : r.cellAt? q = if 0 ≤ q ∧ q < capacity then some (.ofInt (netIncrement text q)) else none
  written : r.written.toList = printed text

theorem Runner.draws_of_store {capacity : Nat} {hcapacity : 0 < capacity} {hsize : capacity < 0x8000000000000000}
    {input : Source} {text : List Char} {s : State}
    (hs : (State.blank capacity hcapacity hsize input).Drawn text s) {m : Machine FixedTape Empty}
    (hstore : m.store = s.store) (policy : Policy) : Runner.Draws ⟨m, policy, false⟩ capacity text := by
  obtain ⟨tape, stack, input', output⟩ := m
  obtain ⟨rfl, rfl, rfl⟩ : tape = ⟨s.cells, s.head⟩ ∧ input' = s.input ∧ output = s.output := by
    simpa [Machine.store, State.store] using hstore
  refine ⟨?_, fun q => ?_, ?_⟩
  · have hhead := hs.head
    rwa [State.head_blank, Int.zero_add] at hhead
  · have hcells : s.cells.size = capacity := hs.size.trans State.size_blank
    change FixedTape.cellAt? ⟨s.cells, s.head⟩ q = _
    simp only [FixedTape.cellAt?]
    split
    · next index hindex =>
      obtain ⟨rfl, hlt⟩ := checkBounds_eq_ok_iff.1 hindex
      rw [hs.getElem?, if_pos (hcells ▸ hlt), if_pos (by omega)]
    · next cause hcause =>
      have houtside := (checkBounds_eq_error_iff.1 hcause).1
      rw [if_neg (by omega)]
  · change s.output.written.toList = _
    rw [hs.output]

/-- A text that leaves the tape does so for the first time at some character. -/
theorem exists_first_outside {capacity : Nat} (hcapacity : 1 ≤ capacity) {text : List Char}
    (houtside : ¬∀ i ≤ text.length, displacement (text.take i) ∈ Set.Ico 0 (capacity : Int)) :
    ∃ i < text.length, (∀ j ≤ i, displacement (text.take j) ∈ Set.Ico 0 (capacity : Int)) ∧
      IsLeast {i | displacement (text.take (i + 1)) ∉ Set.Ico 0 (capacity : Int)} i := by
  have hzero : displacement (text.take 0) ∈ Set.Ico 0 (capacity : Int) := by
    rw [List.take_zero, displacement_nil, Set.mem_Ico]
    omega
  push Not at houtside
  obtain ⟨n, hn, houtside⟩ := houtside
  cases n with
  | zero => exact absurd hzero houtside
  | succ n =>
    have hcrossed : {i | displacement (text.take (i + 1)) ∉ Set.Ico 0 (capacity : Int)}.Nonempty := ⟨n, houtside⟩
    have hleast := isLeast_csInf hcrossed
    refine ⟨_, (hleast.2 houtside).trans_lt hn, fun j hj => ?_, hleast⟩
    cases j with
    | zero => exact hzero
    | succ j =>
      by_contra hj'
      exact absurd (hleast.2 hj') (Nat.not_le_of_lt hj)

/-- The closed form of a text without loops, on a tape whose positions are words. -/
theorem straightLine_closedForm {capacity : Nat} (hcapacity : 1 ≤ capacity) (hsize : capacity < 0x8000000000000000)
    (policy : Policy) (input : Source) {r₀ : Runner FixedTape Empty}
    (hstart : Runner.start (FixedTape.ofCapacity capacity) {} .standard policy input {} = .ok r₀) {text : List Char}
    (htext : ∀ c ∈ text, c ∈ ['>', '<', '+', '-', '.']) :
    ((∀ i ≤ text.length, displacement (text.take i) ∈ Set.Ico 0 (capacity : Int)) →
      ∃ r, r₀.Yields noHost text (.ended ⟨text.length, false⟩ r) ∧ r.Draws capacity text) ∧
    ((¬∀ i ≤ text.length, displacement (text.take i) ∈ Set.Ico 0 (capacity : Int)) →
      ∃ i c r, IsLeast {i | displacement (text.take (i + 1)) ∉ Set.Ico 0 (capacity : Int)} i ∧ text[i]? = some c ∧
        r₀.Yields noHost text (.failed ⟨i, c, .outOfBounds ⟨displacement (text.take (i + 1)), capacity⟩⟩ r) ∧
        r.Draws capacity (text.take i)) := by
  obtain rfl := Except.ok.inj
    ((Runner.start_machine .standard (FixedTape.ofCapacity capacity) policy input {}).symm.trans hstart)
  have hacts : (Program.ofChars text).Forall (Dialect.standard : Dialect Empty).Acts :=
    Program.forall_ofChars fun c hc => Dialect.acts_of_mem (htext c hc)
  constructor
  · intro hinside
    obtain ⟨s, hs, hevaluates⟩ := exists_drawn hcapacity hsize input htext hinside
    have hyields := yields_of_evaluates hacts policy hevaluates
    rw [Program.text_ofChars] at hyields
    exact ⟨_, hyields, Runner.draws_of_store hs rfl policy⟩
  · intro houtside
    obtain ⟨i, hlt, hbefore, hfirst⟩ := exists_first_outside hcapacity houtside
    obtain ⟨s, hs, hstops⟩ := exists_drawn_stopsAt hcapacity hsize input htext hlt hbefore hfirst.1
    obtain ⟨c, m, hc, hstore, hyields⟩ := yields_of_stopsAt hacts policy hstops
    rw [Program.text_ofChars] at hc hyields
    exact ⟨i, c, _, hfirst, hc, hyields, Runner.draws_of_store hs hstore policy⟩

/-- A cell of a tape of two is wound back through zero, and the head then leaves the tape on the right. -/
theorem straightLine_closedForm_past_the_end :
    let text := ['-', '.', '>', '+', '.', '>', '+']
    let r₀ : Runner FixedTape Empty :=
      ⟨Dialect.standard.machine ⟨[], 0⟩ ⟨.ofCapacity 2, .ofBytes [], {}⟩, .standard, false⟩
    Runner.start (FixedTape.ofCapacity 2) {} .standard .standard (.ofBytes []) {} = .ok r₀ ∧
      ∃ r, r₀.Yields noHost text (.failed ⟨5, '>', .outOfBounds ⟨2, 2⟩⟩ r) ∧
        r.head = 1 ∧ r.cellAt? 0 = some 65535 ∧ r.cellAt? 1 = some 1 ∧ r.written.toList = [255, 1] := by
  intro text r₀
  have hstart : Runner.start (FixedTape.ofCapacity 2) {} .standard .standard (.ofBytes []) {} = .ok r₀ := rfl
  have hbefore : ∀ j < 5, 0 ≤ displacement (text.take (j + 1)) ∧ displacement (text.take (j + 1)) < 2 := by decide
  have hleaves : ¬(0 ≤ displacement (text.take 6) ∧ displacement (text.take 6) < 2) := by decide
  have htext : ∀ c ∈ text, c ∈ ['>', '<', '+', '-', '.'] := by simp [text]
  obtain ⟨i, c, r, hfirst, hc, hyields, hdraws⟩ :=
    (straightLine_closedForm (by decide) (by decide) .standard _ hstart htext).2
      fun hinside => hleaves (hinside 6 (by decide))
  obtain rfl : i = 5 := by
    refine Nat.le_antisymm (hfirst.2 hleaves) (Nat.le_of_not_lt fun hlt => ?_)
    exact hfirst.1 (hbefore i hlt)
  obtain rfl : '>' = c := Option.some.inj hc
  refine ⟨hstart, r, hyields, hdraws.head, ?_, ?_, hdraws.written⟩
  · exact hdraws.cells 0
  · exact hdraws.cells 1

end TapeMachine
