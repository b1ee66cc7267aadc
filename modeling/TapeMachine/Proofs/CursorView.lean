import Mathlib.Data.List.Basic
import TapeMachine.Pane.Program

/-!
# The cursor of the program pane

The program pane shows a program as lines of spans, one span a character, and scrolls to the line of the cursor.  The
lines spell the program and hold the cursor on the line that the pane follows (`LaidOut`), and whatever the offset was
before, that line is among those shown (`InView`).

* The lines are laid out one character at a time.  Each adds its spans to the line that is not finished, and the end of
  a line finishes it (`Layout.allLines_add`).  What the lines have to do with the text so far (`Layout.Spells`) is kept
  by one more character, and so by all of them.
* An offset that follows the cursor is not moved off it when it is clamped, and is then left alone.
-/

namespace TapeMachine

open Screen

/-- The characters of a line, without their styles. -/
def Screen.Line.chars (line : Line) : List Char := line.flatMap fun span => span.text.toList

namespace Pane.Program

/-! ### What the lines are to be -/

/-- The span of the cursor on `c`.  At the end of a line there is no character to highlight, so it is a blank. -/
def cursorSpan (isError : Bool) (c : Char) : Span := ⟨if c = '\n' then " " else c.toString, cursorStyle isError⟩

/-- The text that the lines of a program spell.  If the cursor is on the end of a line, it is a blank before it. -/
def spelled (source : List Char) (cursor : Nat) : List Char :=
  if source[cursor]? = some '\n' then source.take cursor ++ ' ' :: source.drop cursor else source

/-- What the lines of a program are to be, and the number of the line that holds the cursor. -/
structure LaidOut (source : List Char) (cursor : Nat) (isError : Bool) (lines : List Line) (cursorLine : Nat) :
    Prop where
  length : lines.length = source.count '\n' + 1
  joined : ['\n'].intercalate (lines.map Line.chars) = spelled source cursor
  /-- The one span in the style of the cursor is that of its character.  Past the end there is none. -/
  cursorSpans : lines.flatten.filter (·.style = cursorStyle isError) = source[cursor]?.toList.map (cursorSpan isError)
  cursorLine_eq : cursorLine = (source.take (min cursor source.length)).count '\n'
  /-- The span of the cursor is on the line with that number, and on the end of a line it is the last one. -/
  onCursorLine (c : Char) (hc : source[cursor]? = some c) :
    ∃ left right, lines[cursorLine]? = some (left ++ cursorSpan isError c :: right) ∧ (c = '\n' → right = [])

theorem spelled_of_length_le {source : List Char} {cursor : Nat} (h : source.length ≤ cursor) :
    spelled source cursor = source := by
  rw [spelled, List.getElem?_eq_none h, if_neg nofun]

/-- One more character is spelled as it is, unless it is an end of a line with the cursor on it. -/
theorem spelled_concat (text : List Char) (c : Char) (cursor : Nat) :
    spelled (text ++ [c]) cursor =
      spelled text cursor ++ if text.length = cursor ∧ c = '\n' then [' ', c] else [c] := by
  rcases Nat.lt_trichotomy text.length cursor with hlt | rfl | hlt
  · rw [spelled_of_length_le (by simp; omega), spelled_of_length_le (Nat.le_of_lt hlt), if_neg (by omega)]
  · rw [spelled_of_length_le (Nat.le_refl _), spelled, List.getElem?_concat_length]
    by_cases hc : c = '\n'
    · simp [hc]
    · simp [hc]
  · rw [if_neg (by omega), spelled, spelled, List.getElem?_append_left hlt,
      List.take_append_of_le_length (Nat.le_of_lt hlt), List.drop_append_of_le_length (Nat.le_of_lt hlt)]
    split
    · simp
    · rfl

/-! ### One more character -/

/-- The spans that a character adds to its line. -/
def spansOf (cursor : Nat) (isError : Bool) (index : Nat) (c : Char) : List Span :=
  if c = '\n' then if index = cursor then [⟨" ", cursorStyle isError⟩] else []
  else [⟨c.toString, if index = cursor then cursorStyle isError else charStyle c⟩]

/-- Only the cursor has a background. -/
theorem charStyle_ne_cursorStyle (c : Char) (isError : Bool) : charStyle c ≠ cursorStyle isError := by
  intro h
  have hbg : (charStyle c).bg = none := by
    unfold charStyle
    split_ifs <;> rfl
  rw [h] at hbg
  cases hbg

section

variable {cursor : Nat} {isError : Bool} {index : Nat} {c : Char}

theorem spansOf_cursor : spansOf cursor isError cursor c = [cursorSpan isError c] := by
  unfold spansOf cursorSpan
  split <;> simp

theorem filter_spansOf :
    (spansOf cursor isError index c).filter (·.style = cursorStyle isError) =
      if index = cursor then [cursorSpan isError c] else [] := by
  by_cases hindex : index = cursor
  · rw [hindex, spansOf_cursor, if_pos rfl]
    simp [cursorSpan]
  · unfold spansOf
    rw [if_neg hindex, if_neg hindex]
    split <;> simp [charStyle_ne_cursorStyle]

theorem chars_spansOf :
    Line.chars (spansOf cursor isError index c) ++ (if c = '\n' then ['\n'] else []) =
      if index = cursor ∧ c = '\n' then [' ', c] else [c] := by
  unfold spansOf Line.chars
  by_cases hc : c = '\n'
  · by_cases hindex : index = cursor
    · simp [hc, hindex]
    · simp [hc, hindex]
  · simp [hc]

end

/-- The text of lines, all but the last of which are finished. -/
theorem intercalate_concat (finished : List Line) (last : Line) :
    ['\n'].intercalate ((finished ++ [last]).map Line.chars) =
      (finished.flatMap fun line => line.chars ++ ['\n']) ++ last.chars := by
  induction finished with
  | nil => simp
  | cons line rest ih =>
    obtain ⟨first, others, hothers⟩ : ∃ first others, (rest ++ [last]).map Line.chars = first :: others :=
      List.exists_cons_of_ne_nil (by simp)
    rw [List.cons_append, List.map_cons, List.flatMap_cons, List.append_assoc, ← ih, hothers]
    simp [List.intercalate_cons_cons]

namespace Layout

variable {cursor : Nat} {isError : Bool} {index : Nat} {c : Char} (layout : Layout)

theorem allLines_eq : layout.allLines = layout.lines.toList ++ [layout.spans.toList] := by
  simp [allLines]

/-- A character adds its spans to the line that is not finished, and the end of a line finishes it. -/
theorem allLines_add :
    (layout.add cursor isError index c).allLines =
      layout.lines.toList ++ (layout.spans.toList ++ spansOf cursor isError index c) ::
        if c = '\n' then [[]] else [] := by
  unfold add spansOf
  by_cases hc : c = '\n'
  · by_cases hindex : index = cursor
    · simp [allLines_eq, hc, hindex]
    · simp [allLines_eq, hc, hindex]
  · simp [allLines_eq, hc]

theorem size_add :
    (layout.add cursor isError index c).lines.size = layout.lines.size + if c = '\n' then 1 else 0 := by
  unfold add
  dsimp only
  split <;> simp

theorem cursorLine_add :
    (layout.add cursor isError index c).cursorLine =
      if index = cursor then layout.lines.size else layout.cursorLine := by
  unfold add
  dsimp only
  split <;> rfl

theorem intercalate_add :
    ['\n'].intercalate ((layout.add cursor isError index c).allLines.map Line.chars) =
      ['\n'].intercalate (layout.allLines.map Line.chars) ++
        if index = cursor ∧ c = '\n' then [' ', c] else [c] := by
  have hchars (line line' : Line) : Line.chars (line ++ line') = line.chars ++ line'.chars := List.flatMap_append
  have hspans : Line.chars (spansOf cursor isError index c) ++ _ = _ := chars_spansOf
  rw [allLines_add, allLines_eq, intercalate_concat, ← hspans]
  by_cases hc : c = '\n'
  · rw [if_pos hc, if_pos hc, List.append_cons, intercalate_concat]
    simp [Line.chars]
  · rw [if_neg hc, if_neg hc, intercalate_concat, hchars]
    simp

theorem flatten_add :
    (layout.add cursor isError index c).allLines.flatten =
      layout.allLines.flatten ++ spansOf cursor isError index c := by
  rw [allLines_add, allLines_eq]
  split <;> simp

/-- A line that is there stays where it is, and what is finished is not added to. -/
theorem getElem?_add {i : Nat} {line : Line} (h : layout.allLines[i]? = some line) :
    ∃ more, (layout.add cursor isError index c).allLines[i]? = some (line ++ more) ∧
      (i < layout.lines.size → more = []) := by
  rw [allLines_eq] at h
  rw [allLines_add]
  by_cases hi : i < layout.lines.size
  · refine ⟨[], ?_, fun _ => rfl⟩
    rw [List.getElem?_append_left (by simpa using hi)] at h
    rw [List.getElem?_append_left (by simpa using hi), h, List.append_nil]
  · refine ⟨spansOf cursor isError index c, ?_, fun h => absurd h hi⟩
    have hlt := (List.getElem?_eq_some_iff.1 h).1
    obtain rfl : i = layout.lines.size := by
      simp at hlt
      omega
    have hlast : (layout.lines.toList ++ [layout.spans.toList])[layout.lines.size]? = some layout.spans.toList :=
      List.getElem?_concat_length
    rw [hlast, Option.some.injEq] at h
    rw [← h, List.getElem?_append_right (by simp)]
    simp

/-! ### All characters -/

/-- What a layout is after `text` has been laid out. -/
structure Spells (cursor : Nat) (isError : Bool) (text : List Char) (layout : Layout) : Prop where
  size : layout.lines.size = text.count '\n'
  joined : ['\n'].intercalate (layout.allLines.map Line.chars) = spelled text cursor
  cursorSpans :
    layout.allLines.flatten.filter (·.style = cursorStyle isError) = text[cursor]?.toList.map (cursorSpan isError)
  cursorLine_eq (h : cursor < text.length) : layout.cursorLine = (text.take cursor).count '\n'
  /-- The cursor stays on its line.  If it is on the end of the line, then the line is finished. -/
  onCursorLine (c : Char) (hc : text[cursor]? = some c) :
    ∃ left right, layout.allLines[layout.cursorLine]? = some (left ++ cursorSpan isError c :: right) ∧
      (c = '\n' → right = [] ∧ layout.cursorLine < layout.lines.size)

variable {text : List Char} {layout}

theorem Spells.cursorSpans_add (h : layout.Spells cursor isError text) :
    (layout.add cursor isError text.length c).allLines.flatten.filter (·.style = cursorStyle isError) =
      (text ++ [c])[cursor]?.toList.map (cursorSpan isError) := by
  rw [flatten_add, List.filter_append, h.cursorSpans, filter_spansOf]
  rcases Nat.lt_trichotomy text.length cursor with hlt | rfl | hlt
  · rw [if_neg (by omega), List.getElem?_eq_none (Nat.le_of_lt hlt), List.getElem?_eq_none (by simp; omega)]
    rfl
  · rw [if_pos rfl, List.getElem?_eq_none (Nat.le_refl _), List.getElem?_concat_length]
    rfl
  · rw [if_neg (by omega), List.getElem?_append_left hlt, List.append_nil]

theorem Spells.onCursorLine_add (h : layout.Spells cursor isError text) {c' : Char}
    (hc' : (text ++ [c])[cursor]? = some c') :
    let next := layout.add cursor isError text.length c
    ∃ left right, next.allLines[next.cursorLine]? = some (left ++ cursorSpan isError c' :: right) ∧
      (c' = '\n' → right = [] ∧ next.cursorLine < next.lines.size) := by
  dsimp only
  rw [cursorLine_add, size_add]
  rcases Nat.lt_trichotomy text.length cursor with hlt | rfl | hlt
  · rw [List.getElem?_eq_none (by simp; omega)] at hc'
    cases hc'
  · -- the cursor is met, on the line that is not finished
    rw [List.getElem?_concat_length, Option.some.injEq] at hc'
    subst hc'
    refine ⟨layout.spans.toList, [], ?_, fun hc => ⟨rfl, ?_⟩⟩
    · rw [if_pos rfl, allLines_add, spansOf_cursor, List.getElem?_append_right (by simp)]
      simp
    · rw [if_pos rfl, if_pos hc]
      exact Nat.lt_succ_self _
  · rw [List.getElem?_append_left hlt] at hc'
    obtain ⟨left, right, hline, hright⟩ := h.onCursorLine c' hc'
    obtain ⟨more, hmore, hfinished⟩ : ∃ more, (layout.add cursor isError text.length c).allLines[_]? = _ ∧ _ :=
      layout.getElem?_add hline
    rw [if_neg (by omega)]
    refine ⟨left, right ++ more, by rw [hmore]; simp, fun hc => ?_⟩
    obtain ⟨rfl, hsize⟩ := hright hc
    exact ⟨hfinished hsize, Nat.lt_add_right _ hsize⟩

/-- One more character. -/
theorem Spells.add (h : layout.Spells cursor isError text) (c : Char) :
    (layout.add cursor isError text.length c).Spells cursor isError (text ++ [c]) where
  size := by
    rw [size_add, h.size, List.count_append, List.count_singleton]
    simp
  joined := by rw [intercalate_add, h.joined, spelled_concat]
  cursorSpans := h.cursorSpans_add
  cursorLine_eq hcursor := by
    rw [List.length_append, List.length_singleton] at hcursor
    rw [cursorLine_add, List.take_append_of_le_length (by omega)]
    split
    · next heq => rw [h.size, ← heq, List.take_length]
    · exact h.cursorLine_eq (by omega)
  onCursorLine _ hc := h.onCursorLine_add hc

/-- All the characters that are left. -/
theorem Spells.addAll (h : layout.Spells cursor isError text) (rest : List Char) :
    (addAll cursor isError text.length rest layout).Spells cursor isError (text ++ rest) := by
  induction rest generalizing text layout with
  | nil =>
    rw [List.append_nil]
    exact h
  | cons c rest ih =>
    have hrest := ih (h.add c)
    rw [List.length_append, List.length_singleton, List.append_assoc, List.singleton_append] at hrest
    exact hrest

theorem spells_nil (cursor : Nat) (isError : Bool) : Spells cursor isError [] {} where
  size := rfl
  joined := by simp [allLines_eq, Line.chars, spelled]
  cursorSpans := rfl
  cursorLine_eq h := absurd h (Nat.not_lt_zero cursor)
  onCursorLine _ hc := nomatch hc

end Layout

/-! ### The program as a whole -/

theorem spells_layOut (source : List Char) (cursor : Nat) (isError : Bool) :
    (layOut source cursor isError).Spells cursor isError source :=
  (Layout.spells_nil cursor isError).addAll source

theorem cursorLine_eq (source : List Char) (cursor : Nat) (isError : Bool) :
    cursorLine source cursor isError = (source.take (min cursor source.length)).count '\n' := by
  have hspells := spells_layOut source cursor isError
  unfold cursorLine
  dsimp only
  split
  · next hle => rw [hspells.size, Nat.min_eq_right hle, List.take_length]
  · next hlt => rw [hspells.cursorLine_eq (by omega), Nat.min_eq_left (by omega)]

/-- The lines of every program, and the line that the pane follows, are what they are to be. -/
theorem laidOut (source : List Char) (cursor : Nat) (isError : Bool) :
    LaidOut source cursor isError (lines source cursor isError) (cursorLine source cursor isError) := by
  have hspells := spells_layOut source cursor isError
  refine ⟨?_, hspells.joined, hspells.cursorSpans, cursorLine_eq source cursor isError, fun c hc => ?_⟩
  · rw [lines, Layout.allLines_eq, List.length_append, Array.length_toList, hspells.size, List.length_singleton]
  · have hlt := (List.getElem?_eq_some_iff.1 hc).1
    obtain ⟨left, right, hline, hright⟩ := hspells.onCursorLine c hc
    refine ⟨left, right, ?_, fun h => (hright h).1⟩
    rw [cursorLine, if_neg (by omega)]
    exact hline

/-! ### The window -/

section

variable {line offset visible : Nat}

/-- Following a line brings it into view. -/
theorem follow_bounds (line offset : Nat) (hvisible : 1 ≤ visible) :
    follow line offset visible ≤ line ∧ line < follow line offset visible + visible := by
  unfold follow
  split
  · omega
  · split <;> omega

/-- A line that is in view is not followed. -/
theorem follow_eq_self (hle : offset ≤ line) (hlt : line < offset + visible) : follow line offset visible = offset := by
  rw [follow, if_neg (by omega), if_neg (by omega)]

theorem window_eq_extract {α : Type} (offset visible : Nat) (lines : List α) :
    window offset visible lines = lines.extract offset (min lines.length (offset + visible)) := by
  rw [window, List.extract_eq_take_drop, List.take_eq_take_iff, List.length_drop]
  omega

end

section

variable (source : List Char) (cursor : Nat) (isError : Bool) (height offset : Nat)

theorem cursorLine_lt_length : cursorLine source cursor isError < (lines source cursor isError).length := by
  have hlaid := laidOut source cursor isError
  rw [hlaid.length, hlaid.cursorLine_eq]
  exact Nat.lt_succ_of_le ((List.take_sublist _ source).count_le '\n')

theorem scroll_bounds :
    scroll source cursor isError height offset ≤ cursorLine source cursor isError ∧
      cursorLine source cursor isError < scroll source cursor isError height offset + visibleRows height ∧
      scroll source cursor isError height offset ≤ (lines source cursor isError).length - visibleRows height := by
  have hline := cursorLine_lt_length source cursor isError
  obtain ⟨hle, hlt⟩ := follow_bounds (cursorLine source cursor isError) offset (one_le_visibleRows height)
  simp only [scroll, clampScroll]
  omega

theorem scroll_scroll :
    scroll source cursor isError height (scroll source cursor isError height offset) =
      scroll source cursor isError height offset := by
  obtain ⟨hle, hlt, hlast⟩ := scroll_bounds source cursor isError height offset
  rw [scroll, follow_eq_self hle hlt, clampScroll, Nat.min_eq_left hlast]

end

/-- What is shown of the program by a pane of the given height whose offset was `offset` before.  The pane has
`max 1 (height - 2)` rows for the lines. -/
structure InView (source : List Char) (cursor : Nat) (isError : Bool) (height offset : Nat) : Prop where
  /-- The rows below the old offset are counted only if the cursor is not above it, and then their end is a word. -/
  end_isWord (h : offset ≤ cursorLine source cursor isError) : offset + max 1 (height - 2) ≤ maxWord
  next_isWord : cursorLine source cursor isError + 1 ≤ maxWord
  /-- The new offset is counted back from below the cursor only if there are that many lines. -/
  rows_le (h : offset + max 1 (height - 2) ≤ cursorLine source cursor isError) :
    max 1 (height - 2) ≤ cursorLine source cursor isError + 1
  scroll_le : scroll source cursor isError height offset ≤ cursorLine source cursor isError
  lt_scroll : cursorLine source cursor isError < scroll source cursor isError height offset + max 1 (height - 2)
  scroll_le_last :
    scroll source cursor isError height offset ≤ (lines source cursor isError).length - max 1 (height - 2)
  shown : visibleLines source cursor isError height offset =
    (lines source cursor isError).extract (scroll source cursor isError height offset)
      (min (lines source cursor isError).length (scroll source cursor isError height offset + max 1 (height - 2)))
  /-- What is shown is what is drawn. -/
  drawn (g : Grid) (a : Area) (h : a.height = height) (isFocused : Bool) :
    ∃ boxed : Grid, draw g a source cursor isError isFocused offset =
      boxed.drawLines a.inner .left (visibleLines source cursor isError height offset)
  scroll_again : scroll source cursor isError height (scroll source cursor isError height offset) =
    scroll source cursor isError height offset
  shown_again : visibleLines source cursor isError height (scroll source cursor isError height offset) =
    visibleLines source cursor isError height offset

/-- The program pane shows the cursor.  The lines spell the program, one of them holds the cursor, and after the pane
has been drawn that line is in view, whatever the offset was before. -/
theorem cursor_in_view (source : List Char) (hsource : source.length < 0x8000000000000000) (cursor : Nat)
    (isError : Bool) (height : Nat) (hheight : height < 0x10000) (offset : Nat) :
    LaidOut source cursor isError (lines source cursor isError) (cursorLine source cursor isError) ∧
      InView source cursor isError height offset := by
  have hlaid := laidOut source cursor isError
  have hbounds := scroll_bounds source cursor isError height offset
  have hshown : visibleLines source cursor isError height offset = _ := window_eq_extract _ _ _
  rw [visibleRows_eq] at hbounds hshown
  obtain ⟨hle, hlt, hlast⟩ := hbounds
  have hline : cursorLine source cursor isError ≤ source.length := by
    rw [hlaid.cursorLine_eq]
    exact Nat.le_trans List.count_le_length (List.length_take_le' _ source)
  refine ⟨hlaid, fun h => ?_, ?_, fun h => by omega, hle, hlt, hlast, hshown, ?_, ?_, ?_⟩
  · unfold maxWord
    omega
  · unfold maxWord
    omega
  · rintro g a rfl isFocused
    exact ⟨_, rfl⟩
  · exact scroll_scroll source cursor isError height offset
  · rw [visibleLines, scroll_scroll]
    rfl

/-- A cursor that has failed on the end of a line, in a pane with three rows that was scrolled to the end. -/
theorem cursor_in_view_on_line_end :
    let source := ['+', '\n', '[', ']', '\n', '.', '\n', '\n', '-']
    source.length < 0x8000000000000000 ∧ 5 < 0x10000 ∧ scroll source 4 true 5 maxScroll = 1 ∧
      visibleLines source 4 true 5 maxScroll =
        [[⟨"[", charStyle '['⟩, ⟨"]", charStyle ']'⟩, cursorSpan true '\n'], [⟨".", charStyle '.'⟩], []] ∧
      LaidOut source 4 true (lines source 4 true) (cursorLine source 4 true) ∧ InView source 4 true 5 maxScroll := by
  intro source
  exact ⟨by decide, by decide, by decide, rfl, cursor_in_view source (by decide) 4 true 5 (by decide) maxScroll⟩

end Pane.Program

end TapeMachine
