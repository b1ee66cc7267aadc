import TapeMachine.Proofs.Brackets
import TapeMachine.Machine

/-!
# Programs as trees

What a program means, with no machine in sight.

* A `Program` is a tree of characters and loops.  `parse?` reads it off a text, and gives up if the brackets of the text
  do not match; `text` writes it down again.
* A `Semantics` says what the characters do to a state and which cell guards a loop.  `Evaluates` is then the usual
  meaning of a program: a loop is run as long as the cell is not zero.  A program that never ends has no result.
* `StopsAt` is about programs that fail.  It tells how much of the text has been passed when that happens, the way
  someone would count who reads the text once from left to right and only remembers what is behind.
-/

namespace TapeMachine

/-- A program as a tree. -/
inductive Program where
  | done
  | act (c : Char) (rest : Program)
  | loop (body rest : Program)

namespace Program

variable (b : Brackets)

/-- The program as it is written. -/
def text : Program → List Char
  | done => []
  | act c rest => c :: rest.text
  | loop body rest => b.enter :: (body.text ++ b.exit :: rest.text)

/-- The trees of a text, from the trees of the text without its first character.  They are parted by the brackets that
close nothing.  There are none if a bracket was opened and not closed. -/
def grow (c : Char) : List Program → List Program
  | [] => []
  | tree :: trees =>
    if c = b.enter then
      match trees with
      | [] => []
      | after :: trees => loop tree after :: trees
    else if c = b.exit then done :: tree :: trees
    else act c tree :: trees

/-- The program that a text stands for. -/
def parse? (text : List Char) : Option Program :=
  match text.foldr (grow b) [done] with
  | [p] => some p
  | _ => none

/-- Every character of the program that is not a bracket satisfies `ok`. -/
def Forall (ok : Char → Prop) : Program → Prop
  | done => True
  | act c rest => ok c ∧ rest.Forall ok
  | loop body rest => body.Forall ok ∧ rest.Forall ok

variable {b}

/-! ### Reading a text -/

private theorem grow_enter_single (tree : Program) : grow b b.enter [tree] = [] := by
  simp [grow]

private theorem grow_enter (tree after : Program) (trees : List Program) :
    grow b b.enter (tree :: after :: trees) = loop tree after :: trees := by
  simp [grow]

private theorem grow_exit (tree : Program) (trees : List Program) :
    grow b b.exit (tree :: trees) = done :: tree :: trees := by
  simp [grow, b.distinct]

private theorem grow_other {c : Char} (hn : c ≠ b.enter) (hx : c ≠ b.exit) (tree : Program) (trees : List Program) :
    grow b c (tree :: trees) = act c tree :: trees := by
  simp [grow, hn, hx]

/-- There is a tree for each bracket that closes nothing, and one more. -/
private theorem length_grow {depth : Nat} {text : List Char} (h : b.depthFrom depth text = some 0) :
    (text.foldr (grow b) [done]).length = depth + 1 := by
  induction text generalizing depth with
  | nil =>
    rw [Brackets.depthFrom_nil, Option.some.injEq] at h
    rw [h]
    rfl
  | cons c rest ih =>
    rw [Brackets.depthFrom_cons] at h
    obtain ⟨depth', hshift, hrest⟩ := Option.bind_eq_some_iff.1 h
    have hlen := ih hrest
    rw [List.foldr_cons]
    obtain ⟨tree, trees, htrees⟩ := List.exists_cons_of_length_eq_add_one hlen
    rw [htrees, List.length_cons] at hlen
    rw [htrees]
    by_cases hn : c = b.enter
    · subst hn
      rw [Brackets.shift?_enter, Option.some.injEq] at hshift
      obtain ⟨after, trees, rfl⟩ : ∃ after rest, trees = after :: rest :=
        List.exists_cons_of_length_eq_add_one (n := depth) (by omega)
      rw [List.length_cons] at hlen
      rw [grow_enter, List.length_cons]
      omega
    by_cases hx : c = b.exit
    · subst hx
      rw [Brackets.shift?_exit] at hshift
      rw [grow_exit, List.length_cons, List.length_cons]
      split at hshift
      · cases hshift
      · rw [Option.some.injEq] at hshift
        omega
    · rw [Brackets.shift?_other hn hx, Option.some.injEq] at hshift
      rw [grow_other hn hx, List.length_cons]
      omega

/-- The text of several trees, parted by closing brackets. -/
private def join (b : Brackets) : List Program → List Char
  | [] => []
  | [tree] => tree.text b
  | tree :: trees => tree.text b ++ b.exit :: join b trees

private theorem join_cons_of_text {tree tree' : Program} {c : Char} (h : tree'.text b = c :: tree.text b)
    (trees : List Program) : join b (tree' :: trees) = c :: join b (tree :: trees) := by
  cases trees <;> simp [join, h]

private theorem join_grow {text : List Char} (h : text.foldr (grow b) [done] ≠ []) :
    join b (text.foldr (grow b) [done]) = text := by
  induction text with
  | nil => rfl
  | cons c rest ih =>
    rw [List.foldr_cons] at h ⊢
    generalize rest.foldr (grow b) [done] = trees at h ih ⊢
    cases trees with
    | nil => exact absurd rfl h
    | cons tree trees =>
      rw [← ih (by simp)]
      by_cases hn : c = b.enter
      · subst hn
        cases trees with
        | nil => exact absurd (grow_enter_single tree) h
        | cons after trees =>
          rw [grow_enter]
          cases trees <;> simp [join, text]
      by_cases hx : c = b.exit
      · subst hx
        rw [grow_exit]
        rfl
      · rw [grow_other hn hx]
        exact join_cons_of_text rfl trees

private theorem forall_grow {ok : Char → Prop} {text : List Char}
    (h : ∀ c ∈ text, c ≠ b.enter → c ≠ b.exit → ok c) {tree : Program} (htree : tree ∈ text.foldr (grow b) [done]) :
    tree.Forall ok := by
  induction text generalizing tree with
  | nil =>
    rw [List.foldr_nil, List.mem_singleton] at htree
    subst htree
    trivial
  | cons c rest ih =>
    have hrest : ∀ tree ∈ rest.foldr (grow b) [done], tree.Forall ok :=
      fun tree => ih fun c hc => h c (List.mem_cons_of_mem _ hc)
    rw [List.foldr_cons] at htree
    generalize rest.foldr (grow b) [done] = trees at hrest htree
    cases trees with
    | nil => cases htree
    | cons first trees =>
      have hfirst := hrest first List.mem_cons_self
      by_cases hn : c = b.enter
      · subst hn
        cases trees with
        | nil =>
          rw [grow_enter_single] at htree
          cases htree
        | cons after trees =>
          rw [grow_enter] at htree
          rcases List.mem_cons.1 htree with rfl | htree
          · exact ⟨hfirst, hrest after (by simp)⟩
          · exact hrest tree (by simp [htree])
      by_cases hx : c = b.exit
      · subst hx
        rw [grow_exit] at htree
        rcases List.mem_cons.1 htree with rfl | htree
        · trivial
        · exact hrest tree htree
      · rw [grow_other hn hx] at htree
        rcases List.mem_cons.1 htree with rfl | htree
        · exact ⟨h c List.mem_cons_self hn hx, hfirst⟩
        · exact hrest tree (List.mem_cons_of_mem _ htree)

private theorem parse?_eq_some_iff {text : List Char} {p : Program} :
    parse? b text = some p ↔ text.foldr (grow b) [done] = [p] := by
  unfold parse?
  split
  · next tree h => rw [h, Option.some.injEq, List.cons.injEq, and_iff_left rfl]
  · next h =>
    simp only [reduceCtorEq, false_iff]
    exact h p

theorem exists_parse {text : List Char} (h : b.Balanced text) : ∃ p, parse? b text = some p := by
  obtain ⟨p, hp⟩ := List.length_eq_one_iff.1 (length_grow h)
  exact ⟨p, parse?_eq_some_iff.2 hp⟩

theorem text_of_parse {text : List Char} {p : Program} (h : parse? b text = some p) : p.text b = text := by
  rw [parse?_eq_some_iff] at h
  have hjoin : join b (text.foldr (grow b) [done]) = text := join_grow (by simp [h])
  rwa [h] at hjoin

example : parse? .square ['+', '[', '-', ']'] = some (.act '+' (.loop (.act '-' .done) .done)) := rfl

theorem forall_of_parse {ok : Char → Prop} {text : List Char} {p : Program} (h : parse? b text = some p)
    (hok : ∀ c ∈ text, c ≠ b.enter → c ≠ b.exit → ok c) : p.Forall ok := by
  rw [parse?_eq_some_iff] at h
  exact forall_grow hok (by simp [h])

theorem Forall.mono {ok ok' : Char → Prop} (h : ∀ c, ok c → ok' c) {p : Program} (hp : p.Forall ok) :
    p.Forall ok' := by
  induction p with
  | done => trivial
  | act c rest ih => exact ⟨h c hp.1, ih hp.2⟩
  | loop body rest ihbody ihrest => exact ⟨ihbody hp.1, ihrest hp.2⟩

theorem balanced_text {p : Program} (h : p.Forall fun c => c ≠ b.enter ∧ c ≠ b.exit) : b.Balanced (p.text b) := by
  unfold Brackets.Balanced
  induction p with
  | done => rfl
  | act c rest ih =>
    rw [text, Brackets.depthFrom_cons, Brackets.shift?_other h.1.1 h.1.2]
    exact ih h.2
  | loop body rest ihbody ihrest =>
    have hbody := Brackets.depthFrom_add (ihbody h.1) 1
    rw [text, Brackets.depthFrom_cons, Brackets.shift?_enter, Option.bind_some, Brackets.depthFrom_append_of hbody,
      Brackets.depthFrom_cons, Brackets.shift?_exit_succ]
    exact ihrest h.2

end Program

/-! ### What a program means -/

/-- The state after a run, or what stopped the run: if nothing else is said, a fault with the state that it left
behind. -/
abbrev Result (σ : Type) (ε : Type := Fault × σ) := Except ε σ

/-- The results of going on with `next` unless the run is over. -/
def Result.Then {σ ε : Type} (r : Result σ ε) (next : σ → Result σ ε → Prop) (r' : Result σ ε) : Prop :=
  match r with
  | .ok s => next s r'
  | .error e => r' = .error e

/-- What a program needs to know of the states that it works on. -/
structure Semantics (σ ε : Type) where
  /-- The value that guards a loop. -/
  cell : σ → Cell
  /-- What a character does that is not a bracket. -/
  act : Char → σ → Result σ ε

namespace Semantics

variable {σ ε : Type}

/-- A program, run from a state, ends with a result. -/
inductive Evaluates (sem : Semantics σ ε) : Program → σ → Result σ ε → Prop where
  | done (s : σ) : Evaluates sem .done s (.ok s)
  | act {c : Char} {rest : Program} {s s' : σ} {r : Result σ ε} (hact : sem.act c s = .ok s')
    (hrest : Evaluates sem rest s' r) : Evaluates sem (.act c rest) s r
  | act_error {c : Char} {rest : Program} {s : σ} {e : ε} (hact : sem.act c s = .error e) :
    Evaluates sem (.act c rest) s (.error e)
  | exit {body rest : Program} {s : σ} {r : Result σ ε} (hcell : sem.cell s = 0) (hrest : Evaluates sem rest s r) :
    Evaluates sem (.loop body rest) s r
  | pass {body rest : Program} {s s' : σ} {r : Result σ ε} (hcell : sem.cell s ≠ 0)
    (hbody : Evaluates sem body s (.ok s')) (hloop : Evaluates sem (.loop body rest) s' r) :
    Evaluates sem (.loop body rest) s r
  | pass_error {body rest : Program} {s : σ} {e : ε} (hcell : sem.cell s ≠ 0)
    (hbody : Evaluates sem body s (.error e)) : Evaluates sem (.loop body rest) s (.error e)

/-- A program, run from a state, fails when `passed` characters of its text are behind the reader.  A loop that fails
after its first pass fails on its closing bracket. -/
inductive StopsAt (sem : Semantics σ ε) (b : Brackets) : Program → σ → Nat → ε → Prop where
  | act_error {c : Char} {rest : Program} {s : σ} {e : ε} (hact : sem.act c s = .error e) :
    StopsAt sem b (.act c rest) s 0 e
  | act {c : Char} {rest : Program} {s s' : σ} {passed : Nat} {e : ε} (hact : sem.act c s = .ok s')
    (hrest : StopsAt sem b rest s' passed e) : StopsAt sem b (.act c rest) s (passed + 1) e
  | body {body rest : Program} {s : σ} {passed : Nat} {e : ε} (hcell : sem.cell s ≠ 0)
    (hbody : StopsAt sem b body s passed e) : StopsAt sem b (.loop body rest) s (passed + 1) e
  | replay {body rest : Program} {s s' : σ} {e : ε} (hcell : sem.cell s ≠ 0)
    (hbody : sem.Evaluates body s (.ok s')) (hloop : sem.Evaluates (.loop body .done) s' (.error e)) :
    StopsAt sem b (.loop body rest) s ((body.text b).length + 1) e
  | rest {body rest : Program} {s s' : σ} {passed : Nat} {e : ε}
    (hloop : sem.Evaluates (.loop body .done) s (.ok s')) (hrest : StopsAt sem b rest s' passed e) :
    StopsAt sem b (.loop body rest) s ((body.text b).length + 2 + passed) e

variable {sem : Semantics σ ε}

theorem evaluates_done_iff {s : σ} {r : Result σ ε} : sem.Evaluates .done s r ↔ r = .ok s := by
  constructor
  · rintro ⟨⟩
    rfl
  · rintro rfl
    exact .done s

theorem evaluates_act_iff {c : Char} {rest : Program} {s : σ} {r : Result σ ε} :
    sem.Evaluates (.act c rest) s r ↔ (sem.act c s).Then (sem.Evaluates rest) r := by
  constructor
  · intro h
    cases h with
    | act hact hrest =>
      rw [hact]
      exact hrest
    | act_error hact =>
      rw [hact]
      rfl
  · intro h
    cases hact : sem.act c s with
    | ok s' =>
      rw [hact] at h
      exact .act hact h
    | error e =>
      rw [hact] at h
      rw [show r = .error e from h]
      exact .act_error hact

/-- A loop is over at once if the cell is zero. -/
theorem evaluates_loop_of_eq_zero {body rest : Program} {s : σ} {r : Result σ ε} (hcell : sem.cell s = 0) :
    sem.Evaluates (.loop body rest) s r ↔ sem.Evaluates rest s r := by
  constructor
  · intro h
    cases h with
    | exit _ hrest => exact hrest
    | pass hne => exact absurd hcell hne
    | pass_error hne => exact absurd hcell hne
  · exact .exit hcell

/-- A loop is a pass and the loop again if the cell is not zero. -/
theorem evaluates_loop_of_ne_zero {body rest : Program} {s : σ} {r : Result σ ε} (hcell : sem.cell s ≠ 0) :
    sem.Evaluates (.loop body rest) s r ↔
      ∃ r₁, sem.Evaluates body s r₁ ∧ Result.Then r₁ (sem.Evaluates (.loop body rest)) r := by
  constructor
  · intro h
    cases h with
    | exit hzero => exact absurd hzero hcell
    | pass _ hbody hloop => exact ⟨_, hbody, hloop⟩
    | pass_error _ hbody => exact ⟨_, hbody, rfl⟩
  · rintro ⟨r₁, hbody, hthen⟩
    cases r₁ with
    | ok s' => exact .pass hcell hbody hthen
    | error e =>
      rw [show r = .error e from hthen]
      exact .pass_error hcell hbody

/-- What follows a loop is run from the state that the loop leaves behind. -/
theorem evaluates_loop_iff {body rest : Program} {s : σ} {r : Result σ ε} :
    sem.Evaluates (.loop body rest) s r ↔
      ∃ r₁, sem.Evaluates (.loop body .done) s r₁ ∧ Result.Then r₁ (sem.Evaluates rest) r := by
  constructor
  · intro h
    -- the induction is on the passes of the loop, so the loop must be a variable
    generalize hp : Program.loop body rest = p at h
    induction h with
    | done | act | act_error => cases hp
    | exit hcell hrest =>
      cases hp
      exact ⟨_, .exit hcell (.done _), hrest⟩
    | pass hcell hbody _ _ ih =>
      cases hp
      obtain ⟨r₁, hloop, hthen⟩ := ih rfl
      exact ⟨r₁, .pass hcell hbody hloop, hthen⟩
    | pass_error hcell hbody =>
      cases hp
      exact ⟨_, .pass_error hcell hbody, rfl⟩
  · rintro ⟨r₁, h, hthen⟩
    generalize hp : Program.loop body .done = p at h
    induction h with
    | done | act | act_error => cases hp
    | exit hcell hdone =>
      cases hp
      cases hdone
      exact .exit hcell hthen
    | pass hcell hbody _ _ ih =>
      cases hp
      exact .pass hcell hbody (ih hthen rfl)
    | pass_error hcell hbody =>
      cases hp
      rw [show r = _ from hthen]
      exact .pass_error hcell hbody

/-- What every character keeps true of the results is true of the result of a program. -/
theorem Evaluates.preserves {ok : Char → Prop} (good : Result σ ε → Prop)
    (hact : ∀ c s, ok c → good (.ok s) → good (sem.act c s)) {p : Program} (hp : p.Forall ok) {s : σ} {r : Result σ ε}
    (h : sem.Evaluates p s r) (hs : good (.ok s)) : good r := by
  induction h with
  | done => exact hs
  | act h _ ih => exact ih hp.2 (h ▸ hact _ _ hp.1 hs)
  | act_error h => exact h ▸ hact _ _ hp.1 hs
  | exit _ _ ih => exact ih hp.2 hs
  | pass _ _ _ ihbody ihloop => exact ihloop hp (ihbody hp.1 hs)
  | pass_error _ _ ihbody => exact ihbody hp.1 hs

theorem StopsAt.evaluates {b : Brackets} {p : Program} {s : σ} {passed : Nat} {e : ε}
    (h : sem.StopsAt b p s passed e) : sem.Evaluates p s (.error e) := by
  induction h with
  | act_error hact => exact .act_error hact
  | act hact _ ih => exact .act hact ih
  | body hcell _ ih => exact .pass_error hcell ih
  | replay hcell hbody hloop => exact .pass hcell hbody (evaluates_loop_iff.2 ⟨_, hloop, rfl⟩)
  | rest hloop _ ih => exact evaluates_loop_iff.2 ⟨_, hloop, ih⟩

theorem StopsAt.lt_length {b : Brackets} {p : Program} {s : σ} {passed : Nat} {e : ε}
    (h : sem.StopsAt b p s passed e) : passed < (p.text b).length := by
  induction h with
  | act_error => simp [Program.text]
  | act _ _ ih =>
    rw [Program.text, List.length_cons]
    omega
  | body _ _ ih =>
    rw [Program.text, List.length_cons, List.length_append]
    omega
  | replay =>
    rw [Program.text, List.length_cons, List.length_append, List.length_cons]
    omega
  | rest _ _ ih =>
    rw [Program.text, List.length_cons, List.length_append, List.length_cons]
    omega

end Semantics

end TapeMachine
