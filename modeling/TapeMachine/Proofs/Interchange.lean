import Mathlib.Data.Set.Card
import TapeMachine.Proofs.Alike
import TapeMachine.Tape.Fixed
import TapeMachine.Tape.Sparse

/-!
# The two tapes are interchangeable

One tape is an array and the other a map that forgets zeros.  Started blank with at least one cell, they give the same
reply to every call, and a program cannot tell them apart (`tapes_interchangeable`).

* `TapeCall` is what can be asked of a tape, and `Tape.replies?` asks for one thing after the other.
* `Twins` is the relation between the two that every call keeps: it is a bisimulation, so the engine keeps it too.
* `occupied_eq_encard`: the map of the sparse tape has one entry for each cell that is not zero.
-/

namespace TapeMachine

/-! ### Calls and replies -/

/-- What can be asked of a tape. -/
inductive TapeCall where
  | moveHead (position : Int)
  | read
  | write (value : Cell)
  | head
  | capacity
  | cellAt (position : Int)
  deriving DecidableEq, Repr

/-- What a tape answers. -/
inductive TapeReply where
  | done
  /-- The move was outside the tape. -/
  | refused (cause : OutOfBounds)
  | value (value : Cell)
  | position (position : Int)
  | count (count : Nat)
  | cell (value : Option Cell)
  deriving DecidableEq, Repr

namespace Tape

variable {τ τ' : Type} [Tape τ] [Tape τ']

/-- The reply to a call and the tape after it, `none` if the call needs the cell under the head and there is none. -/
def reply? (t : τ) : TapeCall → Option (TapeReply × τ)
  | .moveHead position =>
    match moveHead t position with
    | .ok t' => some (.done, t')
    | .error cause => some (.refused cause, t)
  | .read => (read? t).map fun (value, t) => (.value value, t)
  | .write value => (write? t value).map fun t => (.done, t)
  | .head => some (.position (head t), t)
  | .capacity => some (.count (capacity t), t)
  | .cellAt position => some (.cell (cellAt? t position), t)

/-- The replies to one call after the other, and the tape after the last of them. -/
def replies? : τ → List TapeCall → Option (List TapeReply × τ)
  | t, [] => some ([], t)
  | t, call :: calls =>
    (reply? t call).bind fun (reply, t) => (replies? t calls).map fun (replies, t) => (reply :: replies, t)

/-- The tapes look the same from outside. -/
structure SameView (t : τ) (t' : τ') : Prop where
  head : head t = head t'
  capacity : capacity t = capacity t'
  cells (position : Int) : cellAt? t position = cellAt? t' position

namespace Bisimulation

variable {R : τ → τ' → Prop} (hR : Bisimulation R) (hview : ∀ t t', R t t' → SameView t t')

include hR hview

theorem reply {t : τ} {t' : τ'} (h : R t t') (call : TapeCall) :
    ∃ reply u u', reply? t call = some (reply, u) ∧ reply? t' call = some (reply, u') ∧ R u u' := by
  cases call with
  | moveHead position =>
    rcases hR.moveHead h position with ⟨u, u', hu, hu', hR'⟩ | ⟨cause, hu, hu'⟩
    · exact ⟨.done, u, u', by rw [reply?, hu], by rw [reply?, hu'], hR'⟩
    · exact ⟨.refused cause, t, t', by rw [reply?, hu], by rw [reply?, hu'], h⟩
  | read =>
    obtain ⟨value, u, u', hu, hu', hR'⟩ := hR.read h
    exact ⟨.value value, u, u', by rw [reply?, hu]; rfl, by rw [reply?, hu']; rfl, hR'⟩
  | write value =>
    obtain ⟨u, u', hu, hu', hR'⟩ := hR.write h value
    exact ⟨.done, u, u', by rw [reply?, hu]; rfl, by rw [reply?, hu']; rfl, hR'⟩
  | head => exact ⟨_, t, t', rfl, by rw [reply?, (hview t t' h).head], h⟩
  | capacity => exact ⟨_, t, t', rfl, by rw [reply?, (hview t t' h).capacity], h⟩
  | cellAt position => exact ⟨_, t, t', rfl, by rw [reply?, (hview t t' h).cells position], h⟩

theorem replies {t : τ} {t' : τ'} (h : R t t') (calls : List TapeCall) :
    ∃ replies u u', replies? t calls = some (replies, u) ∧ replies? t' calls = some (replies, u') ∧ R u u' := by
  induction calls generalizing t t' with
  | nil => exact ⟨[], t, t', rfl, rfl, h⟩
  | cons call calls ih =>
    obtain ⟨reply, u, u', hu, hu', hcall⟩ := hR.reply hview h call
    obtain ⟨replies, v, v', hv, hv', hcalls⟩ := ih hcall
    refine ⟨reply :: replies, v, v', ?_, ?_, hcalls⟩
    · simp only [replies?, hu, Option.bind_some, hv, Option.map_some]
    · simp only [replies?, hu', Option.bind_some, hv', Option.map_some]

end Bisimulation

end Tape

/-! ### The sparse tape stores what it must -/

namespace SparseTape

/-- No zero is stored, and nothing outside the tape. -/
def Tidy (t : SparseTape) : Prop :=
  ∀ (position : Int) (value : Cell), t.cells[position]? = some value →
    value ≠ 0 ∧ 0 ≤ position ∧ position < t.capacity

theorem cellAt?_eq_some_iff {t : SparseTape} {position : Int} {value : Cell} :
    t.cellAt? position = some value ↔ (0 ≤ position ∧ position < t.capacity) ∧ t.valueAt position = value := by
  unfold cellAt?
  split
  · next hok =>
    rw [checkBounds_eq_ok_iff] at hok
    rw [Option.some.injEq, iff_and_self]
    omega
  · next herror =>
    rw [checkBounds_eq_error_iff] at herror
    simp only [reduceCtorEq, false_iff]
    omega

/-- The stored cells after a write. -/
theorem getElem?_of_write {t u : SparseTape} {value : Cell} (h : t.write? value = some u) (position : Int) :
    u.cells[position]? =
      if t.head = position then if value = 0 then none else some value else t.cells[position]? := by
  cases h
  dsimp only
  split
  · simp only [Std.TreeMap.getElem?_erase, Std.LawfulEqCmp.compare_eq_iff_eq]
  · simp only [Std.TreeMap.getElem?_insert, Std.LawfulEqCmp.compare_eq_iff_eq]

/-- What is stored is what can be seen not to be zero. -/
theorem Tidy.mem_cells_iff {t : SparseTape} (h : t.Tidy) {position : Int} :
    position ∈ t.cells ↔ ∃ value, t.cellAt? position = some value ∧ value ≠ 0 := by
  simp only [cellAt?_eq_some_iff, Std.TreeMap.mem_iff_isSome_getElem?, valueAt]
  cases hcell : t.cells[position]? with
  | none => simp
  | some value =>
    obtain ⟨hvalue, hposition⟩ := h position value hcell
    simpa using ⟨hposition, hvalue⟩

/-- The map has one entry for each cell that is not zero. -/
theorem Tidy.occupied_eq_encard {t : SparseTape} (h : t.Tidy) :
    (t.occupied : ℕ∞) = {position : Int | ∃ value, t.cellAt? position = some value ∧ value ≠ 0}.encard := by
  have hkeys : {position : Int | ∃ value, t.cellAt? position = some value ∧ value ≠ 0} =
      (t.cells.keys.toFinset : Set Int) := by
    ext position
    simp only [Set.mem_ofPred_eq, List.coe_toFinset, Std.TreeMap.mem_keys]
    exact h.mem_cells_iff.symm
  rw [hkeys, Set.encard_coe_eq_coe_finsetCard, List.toFinset_card_of_nodup Std.TreeMap.nodup_keys,
    Std.TreeMap.length_keys]
  rfl

end SparseTape

/-! ### Twins -/

/-- The two tapes hold the same values, and the head is on one of the cells. -/
structure Twins (fixed : FixedTape) (sparse : SparseTape) : Prop where
  head : (fixed.head : Int) = sparse.head
  capacity : fixed.cells.size = sparse.capacity
  inside : fixed.head < fixed.cells.size
  values (i : Nat) : fixed.cells[i]?.getD 0 = sparse.valueAt i
  tidy : sparse.Tidy

namespace Twins

/-- Two blank tapes of the same capacity are twins. -/
theorem blank {capacity : Nat} (h : 1 ≤ capacity) :
    Twins (.ofCapacity capacity) (.ofCapacity capacity) where
  head := rfl
  capacity := Array.size_replicate
  inside := by
    rw [FixedTape.ofCapacity, Array.size_replicate]
    exact h
  values i := by
    simp only [FixedTape.ofCapacity, SparseTape.ofCapacity, SparseTape.valueAt, Array.getElem?_replicate,
      Std.TreeMap.getElem?_emptyc]
    split <;> rfl
  tidy position value hcell := by
    simp [SparseTape.ofCapacity] at hcell

variable {fixed : FixedTape} {sparse : SparseTape}

theorem sameView (h : Twins fixed sparse) : Tape.SameView fixed sparse where
  head := h.head
  capacity := h.capacity
  cells position := by
    simp only [Tape.cellAt?, FixedTape.cellAt?, SparseTape.cellAt?, ← h.capacity]
    cases hcheck : checkBounds position fixed.cells.size with
    | error cause => rfl
    | ok i =>
      obtain ⟨rfl, hi⟩ := checkBounds_eq_ok_iff.mp hcheck
      have hvalue := h.values i
      rw [Array.getElem?_eq_getElem hi, Option.getD_some] at hvalue
      simp only [Array.getElem?_eq_getElem hi, hvalue]

theorem moveHead (h : Twins fixed sparse) (position : Int) :
    (∃ u u', fixed.moveHead position = .ok u ∧ sparse.moveHead position = .ok u' ∧ Twins u u') ∨
      ∃ cause, fixed.moveHead position = .error cause ∧ sparse.moveHead position = .error cause := by
  have hsame : checkBounds position sparse.capacity = checkBounds position fixed.cells.size := by
    rw [h.capacity]
  unfold FixedTape.moveHead SparseTape.moveHead
  rw [hsame]
  cases hcheck : checkBounds position fixed.cells.size with
  | error cause => exact .inr ⟨cause, rfl, rfl⟩
  | ok i =>
    obtain ⟨rfl, hi⟩ := checkBounds_eq_ok_iff.mp hcheck
    exact .inl ⟨_, _, rfl, rfl, rfl, h.capacity, hi, h.values, h.tidy⟩

theorem read (h : Twins fixed sparse) :
    ∃ value, fixed.read? = some (value, fixed) ∧ sparse.read? = some (value, sparse) := by
  have hinside := h.inside
  have hvalue := h.values fixed.head
  rw [Array.getElem?_eq_getElem hinside, Option.getD_some, h.head] at hvalue
  refine ⟨fixed.cells[fixed.head], ?_, ?_⟩
  · rw [FixedTape.read?, Array.getElem?_eq_getElem hinside, Option.map_some]
  · rw [SparseTape.read?, hvalue]

theorem write (h : Twins fixed sparse) (value : Cell) :
    ∃ u u', fixed.write? value = some u ∧ sparse.write? value = some u' ∧ Twins u u' := by
  have hinside := h.inside
  have hcells := SparseTape.getElem?_of_write (rfl : sparse.write? value = some _)
  refine ⟨_, _, dif_pos hinside, rfl, h.head, ?_, ?_, fun i => ?_, fun position stored hcell => ?_⟩
  · rw [Array.size_set]
    exact h.capacity
  · rw [Array.size_set]
    exact hinside
  · have hi := h.values i
    rw [SparseTape.valueAt] at hi ⊢
    rw [hcells, Array.getElem?_set, ← h.head]
    simp only [Int.natCast_inj]
    split
    · split
      · next hzero => exact hzero
      · rfl
    · exact hi
  · rw [hcells] at hcell
    split at hcell
    · next hhead =>
      split at hcell
      · cases hcell
      · next hvalue =>
        cases hcell
        refine ⟨hvalue, ?_, ?_⟩
        · have := h.head
          omega
        · have := h.head
          have := h.capacity
          dsimp only
          omega
    · exact h.tidy position stored hcell

theorem bisimulation : Tape.Bisimulation Twins where
  head := fun h => h.head
  moveHead := fun h position => h.moveHead position
  read := fun h =>
    have ⟨value, hfixed, hsparse⟩ := h.read
    ⟨value, _, _, hfixed, hsparse, h⟩
  write := fun h value => h.write value

end Twins

/-! ### The two tapes in a run -/

/-- Runners on two tapes start with the same fault, or alike. -/
theorem Runner.start_alike {τ τ' κ : Type} [Tape τ] [Tape τ'] {R : τ → τ' → Prop} {tape : τ} {tape' : τ'}
    (h : R tape tape') (stack : ContextStack κ) (commands : CommandMap κ) (policy : Policy) (input : Source)
    (output : Sink) :
    (∃ fault, start tape stack commands policy input output = .error fault ∧
      start tape' stack commands policy input output = .error fault) ∨
    ∃ r r', start tape stack commands policy input output = .ok r ∧
      start tape' stack commands policy input output = .ok r' ∧ r.Alike R r' := by
  unfold start
  cases stack.push (.plain commands) with
  | error fault => exact .inl ⟨fault, rfl, rfl⟩
  | ok stack => exact .inr ⟨_, _, rfl, rfl, ⟨h, rfl, rfl, rfl⟩, rfl, rfl⟩

/-- Blank tapes of one capacity, whether fixed or sparse, cannot be told apart.  They give the same replies to the same
calls, and the cell under the head is always there.  The sparse tape stores the nonzero cells of the tape and nothing
else.  A program ends alike on both, and leaves the same contexts, source, sink and view of the tape. -/
theorem tapes_interchangeable {capacity : Nat} (h : 1 ≤ capacity) :
    (∀ calls : List TapeCall, ∃ (replies : List TapeReply) (fixed : FixedTape) (sparse : SparseTape),
      Tape.replies? (FixedTape.ofCapacity capacity) calls = some (replies, fixed) ∧
      Tape.replies? (SparseTape.ofCapacity capacity) calls = some (replies, sparse) ∧
      sparse.Tidy ∧
      sparse.occupied = {position : Int | ∃ value, sparse.cellAt? position = some value ∧ value ≠ 0}.encard) ∧
    ∀ (stack : ContextStack Empty) (commands : CommandMap Empty) (policy : Policy) (input : Source) (output : Sink),
      (∃ fault, Runner.start (FixedTape.ofCapacity capacity) stack commands policy input output = .error fault ∧
        Runner.start (SparseTape.ofCapacity capacity) stack commands policy input output = .error fault) ∨
      ∃ r r', Runner.start (FixedTape.ofCapacity capacity) stack commands policy input output = .ok r ∧
        Runner.start (SparseTape.ofCapacity capacity) stack commands policy input output = .ok r' ∧
        ∀ fuel source,
          (r.feed Machine.noHost fuel source).Alike Tape.SameView (r'.feed Machine.noHost fuel source) := by
  have hblank := Twins.blank h
  constructor
  · intro calls
    obtain ⟨replies, fixed, sparse, hfixed, hsparse, htwins⟩ :=
      Twins.bisimulation.replies (fun _ _ h => h.sameView) hblank calls
    exact ⟨replies, fixed, sparse, hfixed, hsparse, htwins.tidy, htwins.tidy.occupied_eq_encard⟩
  · intro stack commands policy input output
    obtain hfault | ⟨r, r', hr, hr', halike⟩ := Runner.start_alike hblank stack commands policy input output
    · exact .inl hfault
    · refine .inr ⟨r, r', hr, hr', fun fuel source => ?_⟩
      exact (Runner.feedFrom_alike Twins.bisimulation nofun halike fuel 0 source).mono fun _ _ h => h.sameView

/-- A tape of two cells, with a move that is refused and a cell that is written and erased. -/
theorem tapes_interchangeable_after_erasure :
    1 ≤ 2 ∧ ∃ sparse : SparseTape,
      Tape.replies? (SparseTape.ofCapacity 2) [.write 7, .moveHead 2, .moveHead 1, .write 3, .write 0, .cellAt 0] =
        some ([.done, .refused ⟨2, 2⟩, .done, .done, .done, .cell (some 7)], sparse) ∧
      sparse.Tidy ∧
      sparse.occupied = {position : Int | ∃ value, sparse.cellAt? position = some value ∧ value ≠ 0}.encard := by
  obtain ⟨replies, fixed, sparse, hfixed, hsparse, hstored⟩ := (@tapes_interchangeable 2 (by decide)).1
    [.write 7, .moveHead 2, .moveHead 1, .write 3, .write 0, .cellAt 0]
  have hreplies : [.done, .refused ⟨2, 2⟩, .done, .done, .done, .cell (some 7)] = replies :=
    congrArg Prod.fst (Option.some.inj hfixed)
  subst hreplies
  exact ⟨by decide, sparse, hsparse, hstored⟩

end TapeMachine
