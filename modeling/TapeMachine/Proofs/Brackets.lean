import Mathlib.Data.List.Basic

/-!
# Brackets

The shape of a text as far as its brackets go.

* `depthFrom` follows the depth of a text and gives up where a bracket closes nothing; a text is `Balanced` if it
  starts and ends at depth 0.  `bracketDepth` passes over the brackets that close nothing instead.
* The bracket that closes a loop is the first after a balanced text, and the one that opens it the last before one
  (`Balanced.eq_of_append_exit`, `Balanced.eq_of_append_enter`).
* `openTails` are the texts that follow the brackets still open at the end.  There are `bracketDepth` of them
  (`length_openTails`), and `openTails_enter`, `openTails_exit` and `openTails_other` say what one more character does
  to them.
-/

namespace TapeMachine

/-- The characters that open and close a loop. -/
structure Brackets where
  enter : Char
  exit : Char
  distinct : exit ≠ enter

namespace Brackets

/-- The brackets of the language. -/
def square : Brackets := ⟨'[', ']', by decide⟩

variable (b : Brackets)

/-- The depth after a character, `none` if it closes a loop and none is open. -/
def shift? (depth : Nat) (c : Char) : Option Nat :=
  if c = b.enter then some (depth + 1)
  else if c = b.exit then if depth = 0 then none else some (depth - 1)
  else some depth

/-- The depth after a text that starts at `depth`, `none` if the text closes more loops than are open. -/
def depthFrom (depth : Nat) (text : List Char) : Option Nat := text.foldlM b.shift? depth

/-- Every loop of the text is opened and closed in it. -/
def Balanced (text : List Char) : Prop := b.depthFrom 0 text = some 0

instance (text : List Char) : Decidable (b.Balanced text) :=
  inferInstanceAs (Decidable (b.depthFrom 0 text = some 0))

/-- The depth after a text that starts at `depth`, where a bracket that closes nothing does not count. -/
def bracketDepthFrom (depth : Nat) (text : List Char) : Nat :=
  text.foldl (fun depth c => if c = b.enter then depth + 1 else if c = b.exit then depth - 1 else depth) depth

/-- The number of loops open after a text. -/
def bracketDepth (text : List Char) : Nat := b.bracketDepthFrom 0 text

/-- The texts after the brackets that the text opens and does not close, the innermost first. -/
def openTails : List Char → List (List Char)
  | [] => []
  | c :: rest =>
    if c = b.enter ∧ (b.depthFrom 0 rest).isSome then openTails rest ++ [rest] else openTails rest

/-! ### Following the depth -/

variable {b}

@[simp]
theorem shift?_enter (depth : Nat) : b.shift? depth b.enter = some (depth + 1) := by
  simp [shift?]

theorem shift?_exit (depth : Nat) : b.shift? depth b.exit = if depth = 0 then none else some (depth - 1) := by
  simp [shift?, b.distinct]

@[simp]
theorem shift?_exit_succ (depth : Nat) : b.shift? (depth + 1) b.exit = some depth := by
  simp [shift?_exit]

@[simp]
theorem shift?_exit_zero : b.shift? 0 b.exit = none := by
  simp [shift?_exit]

theorem shift?_other {c : Char} (hn : c ≠ b.enter) (hx : c ≠ b.exit) (depth : Nat) :
    b.shift? depth c = some depth := by
  simp [shift?, hn, hx]

/-- A character has the same effect on a greater depth. -/
theorem shift?_add {depth depth' : Nat} {c : Char} (h : b.shift? depth c = some depth') (k : Nat) :
    b.shift? (depth + k) c = some (depth' + k) := by
  by_cases hn : c = b.enter
  · subst hn
    rw [shift?_enter, Option.some.injEq] at h
    rw [shift?_enter, Option.some.injEq]
    omega
  by_cases hx : c = b.exit
  · subst hx
    rw [shift?_exit] at h ⊢
    split at h
    · cases h
    · next hd =>
      rw [Option.some.injEq] at h
      rw [if_neg (by omega), Option.some.injEq]
      omega
  · rw [shift?_other hn hx, Option.some.injEq] at h
    rw [shift?_other hn hx, h]

@[simp]
theorem depthFrom_nil (depth : Nat) : b.depthFrom depth [] = some depth := rfl

theorem depthFrom_cons (depth : Nat) (c : Char) (rest : List Char) :
    b.depthFrom depth (c :: rest) = (b.shift? depth c).bind (b.depthFrom · rest) := by
  simp [depthFrom, bind]

theorem depthFrom_append (depth : Nat) (t u : List Char) :
    b.depthFrom depth (t ++ u) = (b.depthFrom depth t).bind (b.depthFrom · u) := by
  simp [depthFrom, bind]

theorem depthFrom_append_of {depth depth' : Nat} {t : List Char} (h : b.depthFrom depth t = some depth')
    (u : List Char) : b.depthFrom depth (t ++ u) = b.depthFrom depth' u := by
  rw [depthFrom_append, h, Option.bind_some]

theorem depthFrom_concat {depth depth' : Nat} {t : List Char} (h : b.depthFrom depth t = some depth') (c : Char) :
    b.depthFrom depth (t ++ [c]) = b.shift? depth' c := by
  rw [depthFrom_append_of h, depthFrom_cons]
  cases b.shift? depth' c <;> rfl

/-- Where a text has a depth, so has every beginning of it. -/
theorem depthFrom_of_append {depth depth' : Nat} {t u : List Char} (h : b.depthFrom depth (t ++ u) = some depth') :
    ∃ d, b.depthFrom depth t = some d ∧ b.depthFrom d u = some depth' := by
  rw [depthFrom_append] at h
  exact Option.bind_eq_some_iff.1 h

/-- A text that stays within the loops it opens does the same at any depth. -/
theorem depthFrom_add {depth depth' : Nat} {text : List Char} (h : b.depthFrom depth text = some depth') (k : Nat) :
    b.depthFrom (depth + k) text = some (depth' + k) := by
  induction text generalizing depth with
  | nil =>
    rw [depthFrom_nil, Option.some.injEq] at h
    rw [depthFrom_nil, h]
  | cons c rest ih =>
    rw [depthFrom_cons] at h ⊢
    obtain ⟨d, hd, h⟩ := Option.bind_eq_some_iff.1 h
    rw [shift?_add hd k]
    exact ih h

theorem Balanced.depthFrom {text : List Char} (h : b.Balanced text) (depth : Nat) :
    b.depthFrom depth text = some depth := by
  have := depthFrom_add h depth
  rwa [Nat.zero_add] at this

/-- A text that ends at a smaller depth closes a loop. -/
theorem exit_mem_of_depthFrom {depth depth' : Nat} {text : List Char} (h : b.depthFrom depth text = some depth')
    (hlt : depth' < depth) : b.exit ∈ text := by
  induction text generalizing depth with
  | nil =>
    rw [depthFrom_nil, Option.some.injEq] at h
    omega
  | cons c rest ih =>
    by_cases hx : c = b.exit
    · exact hx ▸ List.mem_cons_self
    rw [depthFrom_cons] at h
    obtain ⟨d, hd, h⟩ := Option.bind_eq_some_iff.1 h
    have hle : depth ≤ d := by
      unfold shift? at hd
      split_ifs at hd <;> · cases hd; omega
    exact List.mem_cons_of_mem c (ih h (by omega))

theorem depthFrom_filter {keep : Char → Bool} (hn : keep b.enter) (hx : keep b.exit) (depth : Nat)
    (text : List Char) : b.depthFrom depth (text.filter keep) = b.depthFrom depth text := by
  induction text generalizing depth with
  | nil => rfl
  | cons c rest ih =>
    by_cases hc : keep c
    · rw [List.filter_cons_of_pos hc, depthFrom_cons, depthFrom_cons]
      exact congrArg _ (funext ih)
    · rw [List.filter_cons_of_neg hc, depthFrom_cons, shift?_other, Option.bind_some, ih]
      · rintro rfl; exact hc hn
      · rintro rfl; exact hc hx

/-! ### Matching brackets -/

private theorem not_balanced_exit {t : List Char} (ht : b.Balanced t) (u : List Char) :
    ¬b.Balanced (t ++ b.exit :: u) := by
  intro h
  rw [Balanced, depthFrom_append_of ht, depthFrom_cons, shift?_exit_zero] at h
  cases h

private theorem not_balanced_enter {u : List Char} (hu : b.Balanced u) (t : List Char) :
    ¬b.Balanced (t ++ b.enter :: u) := by
  intro h
  obtain ⟨depth, -, h⟩ := depthFrom_of_append h
  rw [depthFrom_cons, shift?_enter, Option.bind_some, hu.depthFrom, Option.some.injEq] at h
  omega

/-- The bracket that closes a loop is the first after a balanced text. -/
theorem Balanced.eq_of_append_exit {t t' u u' : List Char} (ht : b.Balanced t) (ht' : b.Balanced t')
    (h : t ++ b.exit :: u = t' ++ b.exit :: u') : t = t' := by
  rcases List.append_eq_append_iff.1 h with ⟨v, rfl, hv⟩ | ⟨v, rfl, hv⟩
  · cases v with
    | nil => simp
    | cons c v =>
      obtain ⟨rfl, -⟩ := List.cons.inj hv
      exact absurd ht' (not_balanced_exit ht v)
  · cases v with
    | nil => simp
    | cons c v =>
      obtain ⟨rfl, -⟩ := List.cons.inj hv
      exact absurd ht (not_balanced_exit ht' v)

/-- The bracket that opens a loop is the last before a balanced text. -/
theorem Balanced.eq_of_append_enter {t t' u u' : List Char} (hu : b.Balanced u) (hu' : b.Balanced u')
    (h : t ++ b.enter :: u = t' ++ b.enter :: u') : t = t' := by
  rcases List.append_eq_append_iff.1 h with ⟨v, rfl, hv⟩ | ⟨v, rfl, hv⟩
  · cases v with
    | nil => simp
    | cons c v =>
      obtain ⟨rfl, rfl⟩ := List.cons.inj hv
      exact absurd hu (not_balanced_enter hu' v)
  · cases v with
    | nil => simp
    | cons c v =>
      obtain ⟨rfl, rfl⟩ := List.cons.inj hv
      exact absurd hu' (not_balanced_enter hu v)

/-! ### The depth that never fails -/

private theorem bracketDepthFrom_cons (depth : Nat) (c : Char) (rest : List Char) :
    b.bracketDepthFrom depth (c :: rest) =
      b.bracketDepthFrom (if c = b.enter then depth + 1 else if c = b.exit then depth - 1 else depth) rest := rfl

private theorem bracketDepthFrom_of_depthFrom {depth depth' : Nat} {text : List Char}
    (h : b.depthFrom depth text = some depth') : b.bracketDepthFrom depth text = depth' := by
  induction text generalizing depth with
  | nil => exact Option.some.inj h
  | cons c rest ih =>
    rw [depthFrom_cons] at h
    obtain ⟨d, hd, h⟩ := Option.bind_eq_some_iff.1 h
    have hshift : (if c = b.enter then depth + 1 else if c = b.exit then depth - 1 else depth) = d := by
      unfold shift? at hd
      split_ifs at hd ⊢ <;> simp_all
    rw [bracketDepthFrom_cons, hshift]
    exact ih h

/-- A text that closes more than `depth` loops ends at the same depth from `depth + 1` as from `depth`: the bracket
that closes nothing makes up for the difference. -/
private theorem bracketDepthFrom_succ_of_none {depth : Nat} {text : List Char} (h : b.depthFrom depth text = none) :
    b.bracketDepthFrom (depth + 1) text = b.bracketDepthFrom depth text := by
  induction text generalizing depth with
  | nil => cases h
  | cons c rest ih =>
    rw [depthFrom_cons] at h
    rw [bracketDepthFrom_cons, bracketDepthFrom_cons]
    by_cases hn : c = b.enter
    · subst hn
      rw [shift?_enter, Option.bind_some] at h
      simpa using ih h
    by_cases hx : c = b.exit
    · subst hx
      cases depth with
      | zero => simp [b.distinct]
      | succ d =>
        rw [shift?_exit_succ, Option.bind_some] at h
        simpa [b.distinct] using ih h
    · rw [shift?_other hn hx, Option.bind_some] at h
      simpa [hn, hx] using ih h

theorem bracketDepth_of_depthFrom {depth : Nat} {text : List Char} (h : b.depthFrom 0 text = some depth) :
    b.bracketDepth text = depth :=
  bracketDepthFrom_of_depthFrom h

/-! ### The brackets that stay open -/

theorem length_openTails (text : List Char) : (b.openTails text).length = b.bracketDepth text := by
  change _ = b.bracketDepthFrom 0 text
  induction text with
  | nil => rfl
  | cons c rest ih =>
    rw [openTails, bracketDepthFrom_cons]
    by_cases hn : c = b.enter
    · subst hn
      rw [if_pos rfl]
      cases hd : b.depthFrom 0 rest with
      | none =>
        rw [if_neg (by simp), ih]
        exact (bracketDepthFrom_succ_of_none hd).symm
      | some d =>
        rw [if_pos (by simp), List.length_append, ih, bracketDepthFrom_of_depthFrom hd]
        exact (bracketDepthFrom_of_depthFrom (depthFrom_add hd 1)).symm
    · rw [if_neg (by simp [hn]), if_neg hn, ih]
      split <;> rfl

private theorem openTails_eq_nil {text : List Char} (h : b.depthFrom 0 text = some 0) : b.openTails text = [] := by
  rw [← List.length_eq_zero_iff, length_openTails, bracketDepth_of_depthFrom h]

theorem openTails_enter (text : List Char) :
    b.openTails (text ++ [b.enter]) = [] :: (b.openTails text).map (· ++ [b.enter]) := by
  induction text with
  | nil => simp [openTails]
  | cons c rest ih =>
    have hsome : (b.depthFrom 0 (rest ++ [b.enter])).isSome = (b.depthFrom 0 rest).isSome := by
      cases hd : b.depthFrom 0 rest with
      | none => rw [depthFrom_append, hd]; rfl
      | some d => rw [depthFrom_concat hd, shift?_enter]; rfl
    rw [List.cons_append, openTails, openTails, ih, hsome]
    split <;> simp

theorem openTails_exit (text : List Char) :
    b.openTails (text ++ [b.exit]) = (b.openTails text).tail.map (· ++ [b.exit]) := by
  induction text with
  | nil => simp [openTails, b.distinct]
  | cons c rest ih =>
    rw [List.cons_append, openTails, openTails, ih]
    by_cases hn : c = b.enter
    · cases hd : b.depthFrom 0 rest with
      | none => simp [depthFrom_append, hd]
      | some d =>
        rw [depthFrom_concat hd, if_pos (show c = b.enter ∧ (some d).isSome from ⟨hn, rfl⟩)]
        cases d with
        | zero =>
          -- the new bracket closes the one at the head, so nothing after it is open
          rw [shift?_exit_zero, openTails_eq_nil hd]
          simp
        | succ d =>
          rw [shift?_exit_succ]
          have hlen : (b.openTails rest).length = d + 1 := by
            rw [length_openTails, bracketDepth_of_depthFrom hd]
          obtain ⟨tail, tails, htails⟩ := List.exists_cons_of_length_eq_add_one hlen
          simp [htails, hn]
    · simp [hn]

theorem openTails_other {c : Char} (hn : c ≠ b.enter) (hx : c ≠ b.exit) (text : List Char) :
    b.openTails (text ++ [c]) = (b.openTails text).map (· ++ [c]) := by
  induction text with
  | nil => simp [openTails, hn]
  | cons c' rest ih =>
    have hsome : (b.depthFrom 0 (rest ++ [c])).isSome = (b.depthFrom 0 rest).isSome := by
      cases hd : b.depthFrom 0 rest with
      | none => rw [depthFrom_append, hd]; rfl
      | some d => rw [depthFrom_concat hd, shift?_other hn hx]
    rw [List.cons_append, openTails, openTails, ih, hsome]
    split <;> simp

theorem openTails_filter {keep : Char → Bool} (hn : keep b.enter) (hx : keep b.exit) (text : List Char) :
    b.openTails (text.filter keep) = (b.openTails text).map (·.filter keep) := by
  induction text with
  | nil => rfl
  | cons c rest ih =>
    by_cases hc : keep c
    · rw [List.filter_cons_of_pos hc, openTails, openTails, depthFrom_filter hn hx, ih]
      split <;> simp
    · have hne : c ≠ b.enter := by rintro rfl; exact hc hn
      rw [List.filter_cons_of_neg hc, openTails, if_neg (by simp [hne]), ih]

end Brackets

end TapeMachine
