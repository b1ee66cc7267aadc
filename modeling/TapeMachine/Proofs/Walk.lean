import TapeMachine.Proofs.Reference

/-!
# Walking along a row of cells

A text without loops moves the head along the row and changes the cells it passes.  What it has done can be read off the
text.

* `displacement` is how far it has moved the head, and `netIncrement` how often it has added one to the cell at a place,
  less how often it has subtracted one.  Places are counted from where the head starts.
* `State.Walked` is the state after such a text.  One more character either goes on (`Walked.step`, `Walked.print`) or
  leaves the row (`Walked.leave`).
* `Program.ofChars` is the text as a program.  `evaluates_ofChars` follows an invariant along its characters, and
  `stopsAt_ofChars` says where it stops if one of them fails.
-/

namespace TapeMachine

/-! ### What a text does -/

/-- How far a text moves the head to the right. -/
def displacement (text : List Char) : Int := text.count '>' - text.count '<'

/-- How often a text has the character `c` where the head is at `place`. -/
def strokes (c : Char) (text : List Char) (place : Int) : Nat :=
  (List.range text.length).countP fun i => text[i]? = some c ∧ displacement (text.take i) = place

/-- How often a text adds one to the cell at `place`, less how often it subtracts one. -/
def netIncrement (text : List Char) (place : Int) : Int := strokes '+' text place - strokes '-' text place

/-- How far a character moves the head to the right. -/
def shift (c : Char) : Int := if c = '>' then 1 else if c = '<' then -1 else 0

/-- What a character adds to the cell under the head. -/
def gain (c : Char) : Int := if c = '+' then 1 else if c = '-' then -1 else 0

example : displacement ['>', '+', '<', '<'] = -1 ∧ netIncrement ['-', '>', '+', '<', '-'] 0 = -2 := by decide

@[simp]
theorem displacement_nil : displacement [] = 0 := rfl

@[simp]
theorem netIncrement_nil (place : Int) : netIncrement [] place = 0 := rfl

theorem displacement_concat (text : List Char) (c : Char) :
    displacement (text ++ [c]) = displacement text + shift c := by
  unfold displacement shift
  rw [List.count_append, List.count_append, List.count_singleton, List.count_singleton]
  by_cases hright : c = '>'
  · subst hright
    simp
    omega
  by_cases hleft : c = '<'
  · subst hleft
    simp
    omega
  · simp [hright, hleft]

theorem strokes_concat (c : Char) (text : List Char) (last : Char) (place : Int) :
    strokes c (text ++ [last]) place =
      strokes c text place + if last = c ∧ displacement text = place then 1 else 0 := by
  have hbefore : (List.range text.length).countP
        (fun i => (text ++ [last])[i]? = some c ∧ displacement ((text ++ [last]).take i) = place) =
      strokes c text place := by
    refine List.countP_congr fun i hi => ?_
    have hlt := List.mem_range.1 hi
    rw [List.getElem?_append_left hlt, List.take_append_of_le_length (Nat.le_of_lt hlt)]
  unfold strokes at hbefore ⊢
  rw [List.length_append, List.length_singleton, List.range_succ, List.countP_append, hbefore, List.countP_singleton]
  simp

theorem netIncrement_concat (text : List Char) (c : Char) (place : Int) :
    netIncrement (text ++ [c]) place = netIncrement text place + if displacement text = place then gain c else 0 := by
  unfold netIncrement gain
  rw [strokes_concat, strokes_concat]
  by_cases hplace : displacement text = place
  · by_cases hplus : c = '+'
    · subst hplus
      simp [hplace]
      omega
    by_cases hminus : c = '-'
    · subst hminus
      simp [hplace]
      omega
    · simp [hplace, hplus, hminus]
  · simp [hplace]

/-! ### Texts as programs -/

/-- A text without loops as a program. -/
def Program.ofChars : List Char → Program
  | [] => .done
  | c :: rest => .act c (ofChars rest)

namespace Program

@[simp]
theorem text_ofChars (b : Brackets) (text : List Char) : (ofChars text).text b = text := by
  induction text with
  | nil => rfl
  | cons c rest ih => rw [ofChars, Program.text, ih]

theorem forall_ofChars {ok : Char → Prop} {text : List Char} (h : ∀ c ∈ text, ok c) : (ofChars text).Forall ok := by
  induction text with
  | nil => trivial
  | cons c rest ih => exact ⟨h c List.mem_cons_self, ih fun c hc => h c (List.mem_cons_of_mem _ hc)⟩

end Program

namespace Semantics

variable {σ : Type} {sem : Semantics σ (Fault × σ)}

section

variable (sem) (inv : List Char → σ → Prop) {text : List Char}
  (hstep : ∀ before c s, before.length < text.length → before ++ [c] = text.take (before.length + 1) → c ∈ text →
    inv before s → ∃ s', sem.act c s = .ok s' ∧ inv (before ++ [c]) s')

include hstep

private theorem evaluates_ofChars_from {before rest : List Char} (htext : text = before ++ rest) {s : σ}
    (hs : inv before s) : ∃ s', inv text s' ∧ ∀ r, sem.Evaluates (.ofChars rest) s r ↔ r = .ok s' := by
  induction rest generalizing before s with
  | nil =>
    rw [List.append_nil] at htext
    exact ⟨s, htext ▸ hs, fun r => evaluates_done_iff⟩
  | cons c rest ih =>
    have htext' : text = before ++ [c] ++ rest := by rw [htext, List.append_assoc, List.singleton_append]
    have htake : before ++ [c] = text.take (before.length + 1) := by rw [htext', List.take_left' (by simp)]
    obtain ⟨s₁, hact, hs₁⟩ := hstep before c s (by simp [htext]) htake (by simp [htext]) hs
    obtain ⟨s', hs', hevaluates⟩ := ih htext' hs₁
    refine ⟨s', hs', fun r => ?_⟩
    rw [Program.ofChars, evaluates_act_iff, hact]
    exact hevaluates r

/-- A text whose characters all keep an invariant of what was passed runs to its end. -/
theorem evaluates_ofChars {s : σ} (hs : inv [] s) :
    ∃ s', inv text s' ∧ ∀ r, sem.Evaluates (.ofChars text) s r ↔ r = .ok s' :=
  evaluates_ofChars_from sem inv hstep (List.nil_append text).symm hs

end

/-- A text stops at the character that fails. -/
theorem stopsAt_ofChars (b : Brackets) {before : List Char} {s s' : σ}
    (hbefore : sem.Evaluates (.ofChars before) s (.ok s')) {c : Char} {e : Fault × σ} (hact : sem.act c s' = .error e)
    (after : List Char) : sem.StopsAt b (.ofChars (before ++ c :: after)) s before.length e := by
  induction before generalizing s with
  | nil =>
    cases hbefore
    exact .act_error hact
  | cons c before ih =>
    cases hbefore with
    | act hc hrest => exact .act hc (ih hrest)

end Semantics

theorem Dialect.acts_of_mem {c : Char} (hc : c ∈ ['>', '<', '+', '-', '.']) :
    (Dialect.standard : Dialect Empty).Acts c := by
  simp only [List.mem_cons, List.not_mem_nil, or_false] at hc
  rcases hc with rfl | rfl | rfl | rfl | rfl
  all_goals exact acts_of_knows (knows_standard_iff.2 rfl) (by decide) (by decide)

/-! ### The state after a walk -/

namespace Reference

/-- The state `s'` is what a text makes of `s` that only moves, adds, subtracts and prints.  What is printed is left
open. -/
structure State.Walked (s : State) (text : List Char) (s' : State) : Prop where
  size : s'.cells.size = s.cells.size
  head : (s'.head : Int) = s.head + displacement text
  cells (i : Nat) : s'.cells[i]? = s.cells[i]?.map (· + .ofInt (netIncrement text (i - s.head)))
  input : s'.input = s.input

namespace State

theorem Walked.refl (s : State) : s.Walked [] s := by
  refine ⟨rfl, by simp, fun i => ?_, rfl⟩
  rw [netIncrement_nil, show UInt16.ofInt 0 = 0 from rfl]
  simp

theorem obey_move (s : State) {c : Char} (hc : c = '>' ∨ c = '<') : s.obey c = s.moveTo (s.head + shift c) := by
  rcases hc with rfl | rfl
  · rfl
  · change s.moveTo (s.head - 1) = _
    rw [Int.sub_eq_add_neg]
    rfl

theorem obey_stroke (s : State) {c : Char} (hc : c = '+' ∨ c = '-') :
    s.obey c = .ok (s.setCell (s.cell + .ofInt (gain c))) := by
  rcases hc with rfl | rfl
  · rfl
  · change Except.ok (s.setCell (s.cell - 1)) = _
    rw [UInt16.sub_eq_add_neg]
    rfl

variable {s s' : State} {text : List Char} {c : Char}

private theorem Walked.head_add_shift (h : s.Walked text s') (c : Char) :
    s'.head + shift c = s.head + displacement (text ++ [c]) := by
  rw [displacement_concat, h.head, Int.add_assoc]

private theorem Walked.moveTo (h : s.Walked text s') (hc : c = '>' ∨ c = '<') {position : Int}
    (hposition : position = s.head + displacement (text ++ [c])) (hinside : 0 ≤ position ∧ position < s.cells.size) :
    ∃ s'', s'.moveTo position = .ok s'' ∧ s.Walked (text ++ [c]) s'' ∧ s''.output = s'.output := by
  have hinside' : 0 ≤ position ∧ position < s'.cells.size := h.size ▸ hinside
  refine ⟨_, dif_pos hinside', ⟨h.size, ?_, fun i => ?_, h.input⟩, rfl⟩
  · change (position.toNat : Int) = _
    omega
  · have hgain : gain c = 0 := by rcases hc with rfl | rfl <;> rfl
    rw [netIncrement_concat, hgain, ite_self, Int.add_zero]
    exact h.cells i

private theorem Walked.setCell (h : s.Walked text s') (hc : c = '+' ∨ c = '-') :
    s.Walked (text ++ [c]) (s'.setCell (s'.cell + .ofInt (gain c))) := by
  have hshift : shift c = 0 := by rcases hc with rfl | rfl <;> rfl
  refine ⟨?_, ?_, fun i => ?_, h.input⟩
  · rw [← h.size]
    exact Array.size_set s'.head.isLt
  · rw [displacement_concat, hshift, Int.add_zero]
    exact h.head
  · change (s'.cells.set s'.head (s'.cell + .ofInt (gain c)) s'.head.isLt)[i]? = _
    rw [Array.getElem?_set, netIncrement_concat]
    by_cases hi : (s'.head : Nat) = i
    · have hcell : s'.cells[i]? = some s'.cell := by
        subst hi
        exact Array.getElem?_eq_getElem s'.head.isLt
      have hplace : displacement text = i - s.head := by
        have := h.head
        omega
      rw [if_pos hi, if_pos hplace]
      rw [h.cells i] at hcell
      obtain ⟨value, hvalue, hcell⟩ := Option.map_eq_some_iff.1 hcell
      rw [hvalue, ← hcell, Option.map_some, UInt16.ofInt_add, UInt16.add_assoc]
    · have hplace : displacement text ≠ i - s.head := by
        have := h.head
        omega
      rw [if_neg hi, if_neg hplace, Int.add_zero]
      exact h.cells i

/-- A character that moves, adds or subtracts goes on with the walk, if the head stays on the row. -/
theorem Walked.step (h : s.Walked text s') (hc : c ∈ ['>', '<', '+', '-'])
    (hinside : 0 ≤ s.head + displacement (text ++ [c]) ∧ s.head + displacement (text ++ [c]) < s.cells.size) :
    ∃ s'', s'.obey c = .ok s'' ∧ s.Walked (text ++ [c]) s'' ∧ s''.output = s'.output := by
  rcases (by simpa [or_assoc] using hc : (c = '>' ∨ c = '<') ∨ c = '+' ∨ c = '-') with hmove | hstroke
  · rw [obey_move s' hmove, h.head_add_shift]
    exact h.moveTo hmove rfl hinside
  · exact ⟨_, obey_stroke s' hstroke, h.setCell hstroke, rfl⟩

/-- A move that would leave the row fails, and changes nothing. -/
theorem Walked.leave (h : s.Walked text s') (hc : c = '>' ∨ c = '<')
    (houtside : ¬(0 ≤ s.head + displacement (text ++ [c]) ∧ s.head + displacement (text ++ [c]) < s.cells.size)) :
    s'.obey c = .error (.outOfBounds ⟨s.head + displacement (text ++ [c]), s.cells.size⟩, s') := by
  have houtside' : ¬(0 ≤ s'.head + shift c ∧ s'.head + shift c < s'.cells.size) := by rwa [h.head_add_shift, h.size]
  rw [obey_move s' hc, State.moveTo, dif_neg houtside', h.head_add_shift, h.size]

theorem Walked.print (h : s.Walked text s') (output : Sink) : s.Walked (text ++ ['.']) { s' with output } := by
  refine ⟨h.size, ?_, fun i => ?_, h.input⟩
  · rw [displacement_concat, show shift '.' = 0 from rfl, Int.add_zero]
    exact h.head
  · rw [netIncrement_concat, show gain '.' = 0 from rfl, ite_self, Int.add_zero]
    exact h.cells i

end State

end Reference

end TapeMachine
