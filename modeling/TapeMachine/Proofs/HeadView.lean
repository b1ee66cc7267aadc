import Mathlib.Algebra.Order.Floor.Div
import TapeMachine.Pane.Cells
import TapeMachine.Proofs.HeadMoves
import TapeMachine.Proofs.Interchange

/-!
# The head in the cell pane

The cell pane shows rows of eight cells around the head.  Rows are counted by unsigned words and positions are signed
ones, so on a tape of more than `maxPosition` cells the positions of the last rows come round below zero.  The head is
in view all the same, and nothing else looks like it (`head_in_view`).

* The rows start inside the tape (`shownRows_eq`), and so the position of a row is a word (`rowStart_cases`).
* A row whose position has come round shows no cells, since there are none below zero.  Any other row shows the cells
  from its position on, as far as the tape goes (`getElem?_cellsFrom`).
-/

namespace TapeMachine

/-- A tape that shows what it holds: there is something to see where it has a cell, and under the head it is what is
read. -/
class Tape.Legible (τ : Type) [Tape τ] : Prop where
  isSome_cellAt?_iff (t : τ) (position : Int) :
    (Tape.cellAt? t position).isSome ↔ 0 ≤ position ∧ position < Tape.capacity t
  read_of_cellAt? {t : τ} {value : Cell} (h : Tape.cellAt? t (Tape.head t) = some value) :
    Tape.read? t = some (value, t)

instance : Tape.Legible FixedTape where
  isSome_cellAt?_iff t position := by
    change (t.cellAt? position).isSome ↔ 0 ≤ position ∧ position < t.cells.size
    unfold FixedTape.cellAt?
    split
    · next hcheck =>
      obtain ⟨rfl, hindex⟩ := checkBounds_eq_ok_iff.1 hcheck
      simp only [Array.getElem?_eq_getElem hindex, Option.isSome_some, true_iff]
      omega
    · next hcheck =>
      have houtside := (checkBounds_eq_error_iff.1 hcheck).1
      simp only [Option.isSome_none, Bool.false_eq_true, false_iff]
      omega
  read_of_cellAt? := by
    intro t value h
    change t.cellAt? t.head = some value at h
    change t.cells[t.head]?.map _ = _
    unfold FixedTape.cellAt? at h
    split at h
    · next hcheck =>
      obtain ⟨heq, -⟩ := checkBounds_eq_ok_iff.1 hcheck
      rw [Int.natCast_inj] at heq
      rw [heq, h]
      rfl
    · cases h

instance : Tape.Legible SparseTape where
  isSome_cellAt?_iff t position := by
    simp only [Option.isSome_iff_exists, Tape.cellAt?, SparseTape.cellAt?_eq_some_iff]
    simp [Tape.capacity]
  read_of_cellAt? := by
    intro t value h
    rw [← (SparseTape.cellAt?_eq_some_iff.1 h).2]
    rfl

namespace Pane.Cells

open Screen Tape

/-! ### Rows -/

section

variable {row : Nat}

theorem totalRows_eq_ceilDiv (capacity : Nat) : totalRows capacity = capacity ⌈/⌉ 8 := by
  rw [Nat.ceilDiv_eq_add_pred_div]
  rfl

/-- A row starts inside the tape. -/
theorem mul_rowCells_lt_of_lt_totalRows {capacity : Nat} (h : row < totalRows capacity) :
    row * rowCells < capacity := by
  unfold totalRows rowCells at *
  omega

/-- The position of a row is the number of cells before it, or it has come round below zero. -/
theorem rowStart_cases (h : row * rowCells ≤ maxWord) :
    (rowStart row = row * rowCells ∧ rowStart row + rowCells ≤ maxPosition + 1) ∨
      (maxPosition < row * rowCells ∧ -maxPosition - 1 ≤ rowStart row ∧ rowStart row + rowCells ≤ 0) := by
  unfold rowStart signedWord
  simp only [rowCells, maxWord, maxPosition, wordCount, Int.bmod] at *
  omega

/-- The number of cells before a row, as the two's complement of a word. -/
theorem rowStart_eq (h : row * rowCells ≤ maxWord) :
    rowStart row =
      if row * 8 < 0x8000000000000000 then (row * 8 : Int) else (row * 8 : Int) - 0x10000000000000000 := by
  unfold rowStart signedWord
  simp only [rowCells, maxWord, wordCount, Int.bmod] at *
  omega

/-- The row of a position is the one row that starts at most seven cells before it. -/
theorem rowStart_le_and_lt_iff (h : row * rowCells ≤ maxWord) {position : Int} (hnonneg : 0 ≤ position)
    (hword : position ≤ maxPosition) :
    rowStart row ≤ position ∧ position < rowStart row + rowCells ↔ row = position.toNat / rowCells := by
  have hcases := rowStart_cases h
  unfold rowCells at *
  omega

end

variable {τ : Type} [Tape τ] {t : τ} {height : Nat}

theorem firstRow_le (head : Int) (totalRows visibleRows : Nat) :
    firstRow head totalRows visibleRows ≤ totalRows - visibleRows :=
  Nat.min_le_right _ _

/-- The pane is full, or it shows the whole tape. -/
theorem shownRows_eq (t : τ) (height : Nat) :
    shownRows t height =
      List.range' (firstRow (head t) (totalRows (capacity t)) (visibleRows height))
        (min (totalRows (capacity t)) (visibleRows height)) := by
  have hfirst := firstRow_le (head t) (totalRows (capacity t)) (visibleRows height)
  unfold shownRows
  dsimp only
  congr 1
  omega

theorem lt_totalRows_of_mem {row : Nat} (h : row ∈ shownRows t height) : row < totalRows (capacity t) := by
  have hfirst := firstRow_le (head t) (totalRows (capacity t)) (visibleRows height)
  rw [shownRows_eq, List.mem_range'_1] at h
  omega

theorem headRow_mem_shownRows (hnonneg : 0 ≤ head t) (hinside : head t < capacity t) :
    (head t).toNat / rowCells ∈ shownRows t height := by
  have hvisible := one_le_visibleRows height
  have htotal : (head t).toNat / rowCells < totalRows (capacity t) := by
    unfold totalRows rowCells
    omega
  rw [shownRows_eq, List.mem_range'_1]
  unfold firstRow
  generalize (head t).toNat / rowCells = row at *
  omega

/-! ### Cells -/

/-- The span of a cell. -/
def cellSpan (isHead : Bool) (value : Cell) : Span := ⟨Text.alignRight 5 (toString value), cellStyle isHead value⟩

/-- The style of the cell under the head, whatever its value. -/
def headStyle : Style := (Style.ofColors .black Palette.yellow).bold

theorem cellSpan_style_eq_iff {isHead : Bool} {value : Cell} : (cellSpan isHead value).style = headStyle ↔ isHead := by
  cases isHead with
  | true => exact iff_of_true rfl rfl
  | false =>
    refine iff_of_false (fun h => ?_) Bool.false_ne_true
    -- only the head has a background
    have hbg : (cellStyle false value).bg = none := by
      rw [cellStyle, if_neg Bool.false_ne_true]
      split <;> rfl
    rw [show cellStyle false value = headStyle from h] at hbg
    cases hbg

/-- The spans of cells, each with a blank after it. -/
def cellSpans (head : Int) (cells : List (Int × Cell)) : List Span :=
  cells.flatMap fun cell => [cellSpan (cell.1 == head) cell.2, ⟨" ", .plain⟩]

theorem filter_cellSpans (head : Int) (cells : List (Int × Cell)) :
    (cellSpans head cells).filter (·.style = headStyle) =
      (cells.filter (·.1 == head)).map fun cell => cellSpan true cell.2 := by
  induction cells with
  | nil => rfl
  | cons cell cells ih =>
    have hblank : Style.plain ≠ headStyle := by decide
    have hcons : cellSpans head (cell :: cells) =
        cellSpan (cell.1 == head) cell.2 :: ⟨" ", .plain⟩ :: cellSpans head cells := rfl
    rw [hcons]
    by_cases hcell : cell.1 = head
    · simp [cellSpan_style_eq_iff, hblank, ih, hcell]
    · simp [cellSpan_style_eq_iff, hblank, ih, hcell]

/-- The span of a cell and the blank after it take two places. -/
theorem getElem?_cellSpans (head : Int) (cells : List (Int × Cell)) (column : Nat) :
    (cellSpans head cells)[2 * column]? = cells[column]?.map fun cell => cellSpan (cell.1 == head) cell.2 := by
  induction cells generalizing column with
  | nil => rfl
  | cons cell cells ih =>
    cases column with
    | zero => rfl
    | succ column => exact ih column

variable [Legible τ]

/-- The cells of a row, column by column.  No cell is left out before the end of the tape. -/
theorem getElem?_cellsFrom {count column : Nat} {position : Int} (hcolumn : column < count)
    (hposition : 0 ≤ position ∨ position + column < 0) :
    (cellsFrom t count position)[column]? =
      (cellAt? t (position + column)).map fun value => (position + column, value) := by
  induction count generalizing column position with
  | zero => exact absurd hcolumn (Nat.not_lt_zero column)
  | succ count ih =>
    unfold cellsFrom
    cases column with
    | zero => cases hcell : cellAt? t position <;> simp [hcell]
    | succ column =>
      cases hcell : cellAt? t position with
      | some value =>
        have hsum : position + 1 + column = position + (column + 1 : Nat) := by omega
        rw [List.getElem?_cons_succ, ih (Nat.lt_of_succ_lt_succ hcolumn) (by omega), hsum]
      | none =>
        have houtside : ¬(cellAt? t (position + (column + 1 : Nat))).isSome := by
          have hhere := Legible.isSome_cellAt?_iff t position
          rw [hcell] at hhere
          rw [Legible.isSome_cellAt?_iff]
          simp at hhere
          omega
        rw [Option.not_isSome_iff_eq_none.1 houtside]
        rfl

theorem filter_cellsFrom {place : Int} {value : Cell} (hplace : cellAt? t place = some value) {count : Nat}
    {position : Int} (hposition : 0 ≤ position ∨ position + count ≤ 0) :
    (cellsFrom t count position).filter (·.1 == place) =
      if position ≤ place ∧ place < position + count then [(place, value)] else [] := by
  have hinside := (Legible.isSome_cellAt?_iff t place).1 (by rw [hplace]; rfl)
  induction count generalizing position with
  | zero => rw [if_neg (by omega), cellsFrom, List.filter_nil]
  | succ count ih =>
    unfold cellsFrom
    cases hcell : cellAt? t position with
    | none =>
      have hhere := Legible.isSome_cellAt?_iff t position
      rw [hcell] at hhere
      simp only [Option.isSome_none, Bool.false_eq_true, false_iff] at hhere
      rw [if_neg (by omega), List.filter_nil]
    | some value' =>
      have hrest := @ih (position + 1) (by omega)
      by_cases heq : position = place
      · subst heq
        rw [if_neg (by omega)] at hrest
        obtain rfl : value = value' := Option.some.inj (hplace.symm.trans hcell)
        rw [if_pos (by omega)]
        simp [hrest]
      · have hiff : position + 1 ≤ place ∧ place < position + 1 + count ↔
            position ≤ place ∧ place < position + (count + 1 : Nat) := by omega
        simp only [hiff] at hrest
        simp [heq, hrest]

/-- A row has a span in the style of the head if it is the row of the head, and then one. -/
theorem filter_line {row : Nat} (hrow : row * rowCells ≤ maxWord) (hword : head t ≤ maxPosition) {value : Cell}
    (hvalue : cellAt? t (head t) = some value) :
    (line t row).filter (·.style = headStyle) =
      if row = (head t).toNat / rowCells then [cellSpan true value] else [] := by
  have hinside := (Legible.isSome_cellAt?_iff t (head t)).1 (by rw [hvalue]; rfl)
  have hposition : 0 ≤ rowStart row ∨ rowStart row + rowCells ≤ 0 := by
    rcases rowStart_cases hrow with h | h
    · omega
    · omega
  have hlabel : Style.ofFg Palette.grey ≠ headStyle := by decide
  have hcells : (line t row).filter (·.style = headStyle) =
      (cellSpans (head t) (cellsFrom t rowCells (rowStart row))).filter (·.style = headStyle) :=
    List.filter_cons_of_neg (by simpa using hlabel)
  rw [hcells, filter_cellSpans, filter_cellsFrom hvalue hposition]
  simp only [rowStart_le_and_lt_iff hrow hinside.1 hword]
  split <;> rfl

/-! ### The pane -/

/-- What a pane of the given height shows of a tape that holds `value` under its head.  A number is shown as blanks and
then its decimal digits. -/
structure ShowsHead (t : τ) (height : Nat) (value : Cell) : Prop where
  /-- The end of the rows, and the number of cells before each of them, are words. -/
  end_isWord : firstRow (head t) (capacity t ⌈/⌉ 8) (max 1 (height - 2)) + max 1 (height - 2) ≤ maxWord
  start_isWord (row : Nat) (h : row ∈ shownRows t height) : row * 8 ≤ maxWord
  /-- The positions in a row are signed words. -/
  position_isWord (row : Nat) (h : row ∈ shownRows t height) (column : Nat) (hcolumn : column < 8) :
    -0x8000000000000000 ≤ rowStart row + column ∧ rowStart row + column < 0x8000000000000000
  rows : shownRows t height =
    List.range' (firstRow (head t) (capacity t ⌈/⌉ 8) (max 1 (height - 2)))
      (min (capacity t ⌈/⌉ 8) (max 1 (height - 2)))
  headRow : (head t).toNat / 8 ∈ shownRows t height
  /-- One span of all rows is in the style of the head, and it shows the value. -/
  headSpan : ∃ span,
    ((shownRows t height).map (line t)).flatten.filter
        (·.style = (Style.ofColors .black Palette.yellow).bold) = [span] ∧
      span.text.toList = List.replicate (5 - (toString value).length) ' ' ++ (toString value).toList
  /-- The position of a row is the number of cells before it.  Beyond the signed words it has come round. -/
  rowStart_eq (row : Nat) (h : row ∈ shownRows t height) :
    rowStart row = if row * 8 < 0x8000000000000000 then (row * 8 : Int) else (row * 8 : Int) - 0x10000000000000000
  label (row : Nat) (h : row ∈ shownRows t height) :
    (line t row)[0]?.map (·.text.toList) =
      some (List.replicate (6 - (toString (rowStart row)).length) ' ' ++ (toString (rowStart row)).toList ++ [' '])
  /-- A column shows the cell at its position, and nothing if there is none. -/
  cell (row : Nat) (h : row ∈ shownRows t height) (column : Nat) (hcolumn : column < 8) :
    (line t row)[2 * column + 1]?.map (·.text.toList) =
      (cellAt? t (rowStart row + column)).map fun value =>
        List.replicate (5 - (toString value).length) ' ' ++ (toString value).toList
  /-- The rows are what is drawn. -/
  drawn (g : Grid) (a : Area) (h : a.height = height) (isFocused : Bool) :
    ∃ boxed : Grid, draw g a t isFocused =
      some (boxed.drawLines a.inner .left ((shownRows t height).map (line t)), t)

/-- Of rows that differ from each other, one holds the head. -/
private theorem filter_flatten_rows {rows : List Nat} {row : Nat} {f : Nat → Line} {span : Span} (hrow : row ∈ rows)
    (hnodup : rows.Nodup) (hf : ∀ r ∈ rows, (f r).filter (·.style = headStyle) = if r = row then [span] else []) :
    (rows.map f).flatten.filter (·.style = headStyle) = [span] := by
  obtain ⟨before, after, rfl⟩ := List.append_of_mem hrow
  have hothers : ∀ part : List Nat, part ⊆ before ++ row :: after → row ∉ part →
      (part.map f).flatten.filter (·.style = headStyle) = [] := by
    intro part hpart hnotMem
    rw [List.filter_flatten, List.flatten_eq_nil_iff]
    intro spans hspans
    simp only [List.mem_map, exists_exists_and_eq_and] at hspans
    obtain ⟨r, hr, rfl⟩ := hspans
    rw [hf r (hpart hr), if_neg (ne_of_mem_of_not_mem hr hnotMem)]
  rw [List.nodup_append, List.nodup_cons] at hnodup
  have hbefore : row ∉ before := fun hmem => hnodup.2.2 row hmem row List.mem_cons_self rfl
  rw [List.map_append, List.flatten_append, List.filter_append, List.map_cons, List.flatten_cons, List.filter_append,
    hf row hrow, if_pos rfl, hothers before (List.subset_append_left _ _) hbefore,
    hothers after (fun r hr => List.mem_append_right _ (List.mem_cons_of_mem _ hr)) hnodup.2.1.1]
  rfl

/-- A row shows its cells in the columns where they belong. -/
theorem getElem?_line {row column : Nat} (hrow : row * rowCells ≤ maxWord) (hcolumn : column < rowCells) :
    (line t row)[2 * column + 1]? =
      (cellAt? t (rowStart row + column)).map (cellSpan (rowStart row + column == head t)) := by
  have hposition : 0 ≤ rowStart row ∨ rowStart row + column < 0 := by
    rcases rowStart_cases hrow with h | h
    · omega
    · omega
  refine (List.getElem?_cons_succ ..).trans ((getElem?_cellSpans _ _ _).trans ?_)
  rw [getElem?_cellsFrom hcolumn hposition, Option.map_map]
  rfl

/-- The cell pane shows the head.  This holds of every tape that shows what it holds, such as the fixed and the sparse
tape, whatever its capacity and wherever on it the head is. -/
theorem head_in_view (t : τ) (hcapacity : capacity t ≤ maxWord) (hnonneg : 0 ≤ head t) (hinside : head t < capacity t)
    (hword : head t ≤ maxPosition) (height : Nat) (hheight : height < 0x10000) :
    ∃ value, read? t = some (value, t) ∧ ShowsHead t height value := by
  obtain ⟨value, hvalue⟩ := Option.isSome_iff_exists.1 ((Legible.isSome_cellAt?_iff t (head t)).2 ⟨hnonneg, hinside⟩)
  have hread := Legible.read_of_cellAt? hvalue
  have hstart : ∀ row ∈ shownRows t height, row * rowCells ≤ maxWord := fun row hrow =>
    Nat.le_trans (Nat.le_of_lt (mul_rowCells_lt_of_lt_totalRows (lt_totalRows_of_mem hrow))) hcapacity
  have hnodup : (shownRows t height).Nodup := by
    rw [shownRows_eq]
    exact List.nodup_range'
  have hheadRow : (head t).toNat / rowCells ∈ shownRows t height := headRow_mem_shownRows hnonneg hinside
  refine ⟨value, hread, ?_, hstart, ?_, ?_, hheadRow, ?_, fun row hrow => rowStart_eq (hstart row hrow), ?_, ?_, ?_⟩
  · have hfirst := firstRow_le (head t) (capacity t ⌈/⌉ 8) (max 1 (height - 2))
    rw [← totalRows_eq_ceilDiv] at hfirst ⊢
    simp only [totalRows, rowCells, maxWord] at *
    omega
  · intro row hrow column hcolumn
    have hcases := rowStart_cases (hstart row hrow)
    simp only [rowCells, maxPosition] at hcases
    omega
  · rw [shownRows_eq, totalRows_eq_ceilDiv, visibleRows_eq]
  · refine ⟨cellSpan true value, ?_, Text.toList_alignRight 5 _⟩
    exact filter_flatten_rows hheadRow hnodup fun row hrow => filter_line (hstart row hrow) hword hvalue
  · intro row hrow
    simp [line]
  · intro row hrow column hcolumn
    rw [getElem?_line (hstart row hrow) hcolumn, Option.map_map]
    simp only [Function.comp_def, cellSpan, Text.toList_alignRight]
  · rintro g a rfl isFocused
    exact ⟨_, by rw [draw, hread]; rfl⟩

/-- The largest sparse tape, with its head next to the largest position.  The rows below that of the head have come
round. -/
theorem head_in_view_next_to_largest :
    let t : SparseTape := ⟨(∅ : Std.TreeMap Int Cell).insert 0x7ffffffffffffffe 7, 0x7ffffffffffffffe, maxWord⟩
    capacity t ≤ maxWord ∧ 0 ≤ head t ∧ head t < capacity t ∧ head t ≤ maxPosition ∧ 6 < 0x10000 ∧
      shownRows t 6 = [0xffffffffffffffd, 0xffffffffffffffe, 0xfffffffffffffff, 0x1000000000000000] ∧
      rowStart 0x1000000000000000 = -0x8000000000000000 ∧
      ∃ value, read? t = some (value, t) ∧ ShowsHead t 6 value := by
  intro t
  exact ⟨by decide, by decide, by decide, by decide, by decide, by decide, by decide,
    head_in_view t (by decide) (by decide) (by decide) (by decide) 6 (by decide)⟩

end Pane.Cells

end TapeMachine
