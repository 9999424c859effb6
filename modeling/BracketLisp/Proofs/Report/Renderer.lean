import BracketLisp.Proofs.Report.Page
import Mathlib.Algebra.GroupWithZero.Nat
import Mathlib.Data.List.Forall2

/-!
# `BracketLisp.Proofs.Report.Renderer`: what a renderer is relied on for

A report is drawn by a renderer, about which nothing is known but its documentation.
`Renderer.Documented` puts this down: where the lines of a text end for it, and what a report on
one character shows. It says nothing of the lines that the scanner reads, of positions, or of how
a position becomes an offset. How many columns a character takes is for the renderer to say.

* `Shows` says what rows show: the numbers in the header, a line with its number, and the mark
  below it. A character that takes no column may lack its mark.
* `documented_plain` finds all of it in the plain reports. `sum_columnWidth` aligns their mark.
-/

set_option autoImplicit false

namespace BracketLisp.Report

open Text

/-- How many columns a row takes, where each character has a width. -/
def columns (width : Char → Nat) (row : List Char) : Nat :=
  (row.map width).sum

@[simp] theorem columns_append (width : Char → Nat) (front back : List Char) :
    columns width (front ++ back) = columns width front + columns width back := by
  simp [columns]

/-- Whether a row has its mark behind a number of columns. -/
def MarkedAt (width : Char → Nat) (row : List Char) (count : Nat) : Prop :=
  ∃ front back, row = front ++ '┬' :: back ∧ '┬' ∉ front ∧ columns width front = count

/-- Whether a character may be shown so: as one or more spaces if it is white space, and else as
it is. -/
def IsCell (c : Char) (cell : List Char) : Prop :=
  if isBlank c then ∃ count, cell = List.replicate (count + 1) ' ' else cell = [c]

/-- What a report shows: the number of a line and that of a column in the header, the content of
a line with its number in front, and below it a mark. As many columns stand before the mark as
before the character of the content that it points at. If the content is too short, one column
more stands there for each character that it lacks. -/
structure Shows (width : Char → Nat) (rows : List String) (number column : Nat)
    (content : List Char) : Prop where
  header : ∃ margin, rows[1]? = some
    (margin ++ "╭─[<unknown>:" ++ toString number ++ ":" ++ toString (column + 1) ++ "]")
  source : ∃ cells, List.Forall₂ IsCell content cells ∧
    rows[3]? = some (" " ++ toString number ++ " │ " ++ String.ofList cells.flatten) ∧
    ((∀ cell ∈ cells[column]?, 0 < columns width cell) →
      ∃ mark, rows[4]? = some mark ∧
        MarkedAt width mark.toList (columns width (" " ++ toString number ++ " │ ").toList +
          columns width (cells.take column).flatten + (column - content.length)))

/-- What is relied on of a renderer. -/
structure Renderer.Documented (renderer : Renderer) : Prop where
  /-- Lines end behind each of the line breaks of Unicode, and a carriage return and a line feed
  together are one. -/
  lines_eq : ∀ text, renderer.lines text = cut endsLine text
  /-- Offsets count characters. A report that starts at a character and has its label on it names
  the line and the column of this character, shows the line without the white space at its end,
  and has its mark below the character. -/
  shows : ∀ (sketch : Sketch) (index column : Nat) (line : List Char),
    sketch.label.start = sketch.start → sketch.label.stop = sketch.start + 1 →
    sketch.color = false → (renderer.lines sketch.text)[index]? = some line →
    column < line.length →
    sketch.start = ((renderer.lines sketch.text).take index).flatten.length + column →
    ∃ rows, renderer.draw sketch = some (joinRows rows) ∧
      rows.head? = some (sketch.kind ++ ": " ++ sketch.message) ∧
      Shows renderer.width rows (index + 1) column (trimEnd line)

/-! ### Columns of plain reports -/

/-- No character is wide before the code points of Hangul. -/
theorem width_of_lt {c : Char} (h : c.toNat < 0x1100) : width c = 1 := by
  have hranges : ∀ range ∈ wideRanges, 0x1100 ≤ range.1 := by decide
  have hwide : isWide c = false := by
    refine List.any_eq_false.2 fun range hrange => ?_
    have hle := hranges range hrange
    simp only [Bool.and_eq_true, decide_eq_true_eq, not_and]
    omega
  rw [width, hwide, if_neg Bool.false_ne_true]

@[simp] theorem columns_replicate (count : Nat) :
    columns width (List.replicate count ' ') = count := by
  rw [columns, List.map_replicate, width_of_lt (by decide), List.sum_replicate_nat, Nat.mul_one]

/-- A number takes one column for each digit. -/
theorem columns_toString (number : Nat) :
    columns width (toString number).toList = (toString number).length := by
  have hdigits : ∀ c ∈ (toString number).toList, width c = 1 := by
    intro c hc
    have hmem : c ∈ Nat.toDigits 10 number := by simpa using hc
    have hdigit : c.isDigit = true := Nat.isDigit_of_mem_toDigits (by decide) (by decide) hmem
    have hle : c.toNat ≤ 57 := (Char.isDigit_iff_toNat.1 hdigit).2
    exact width_of_lt (by omega)
  rw [columns, List.map_congr_left hdigits, List.map_const', List.sum_replicate_nat, Nat.mul_one,
    String.length_toList]

/-- White space takes a column at least. -/
theorem widthAt_pos_of_isBlank (index : Nat) {c : Char} (h : isBlank c = true) :
    0 < widthAt index c := by
  unfold widthAt tabStop
  split
  · omega
  · exact Nat.one_pos

theorem isCell_cellAt (index : Nat) (c : Char) : IsCell c (cellAt index c) := by
  unfold IsCell cellAt
  split
  next hblank =>
    exact ⟨widthAt index c - 1, by rw [Nat.sub_add_cancel (widthAt_pos_of_isBlank index hblank)]⟩
  next => rfl

theorem isCell_cells (content : List Char) : List.Forall₂ IsCell content (cells content) := by
  refine List.forall₂_iff_get.2 ⟨by simp [cells], fun index _ _ => ?_⟩
  simpa [cells] using isCell_cellAt index content[index]

/-- A character is shown as wide as its column. -/
theorem columns_cellAt (index : Nat) (c : Char) :
    columns width (cellAt index c) = widthAt index c := by
  unfold cellAt
  split
  next => exact columns_replicate _
  next hblank =>
    have htab : c ≠ '\t' := by
      rintro rfl
      exact hblank (by decide)
    rw [widthAt, if_neg htab, if_neg hblank]
    rfl

/-- The arrow moves along with the characters before it, and by one column for each place past
the end of the line. -/
theorem sum_columnWidth (content : List Char) (column : Nat) :
    ((List.range column).map (columnWidth content)).sum =
      columns width ((cells content).take column).flatten + (column - content.length) := by
  induction column with
  | zero => simp [columns]
  | succ column ih =>
    rw [List.range_succ, List.map_append, List.sum_append, ih, List.map_singleton,
      List.sum_singleton, List.take_add_one, List.flatten_append, columns_append, cells,
      List.getElem?_mapIdx]
    cases h : content[column]? with
    | some c =>
      obtain ⟨hlt, -⟩ := List.getElem?_eq_some_iff.1 h
      have hwidth : columnWidth content column = widthAt column c := by rw [columnWidth, h]
      have hcell : columns width ((some c).map (cellAt column)).toList.flatten =
          widthAt column c := by
        simpa using columns_cellAt column c
      rw [hwidth, hcell]
      omega
    | none =>
      have hle : content.length ≤ column := List.getElem?_eq_none_iff.1 h
      have hwidth : columnWidth content column = 1 := by rw [columnWidth, h]
      rw [hwidth]
      simp only [Option.map_none, Option.toList_none, List.flatten_nil, columns, List.map_nil,
        List.sum_nil]
      omega

/-- The part of the arrow before the column that it points at. -/
theorem columns_flatMap_columnWidth (line : List Char) (indices : List Nat) :
    columns width (indices.flatMap fun index => List.replicate (columnWidth line index) ' ') =
      (indices.map (columnWidth line)).sum := by
  induction indices with
  | nil => rfl
  | cons index others ih =>
    rw [List.flatMap_cons, columns_append, columns_replicate, ih, List.map_cons, List.sum_cons]

/-! ### Plain reports -/

/-- The rows of a plain report show the line of their spot without the white space at its end. -/
theorem shows_rows (sketch : Sketch) (spot : Spot) :
    Shows width (rows sketch spot) spot.number spot.column (trimEnd spot.line) where
  header := ⟨_, rfl⟩
  source := by
    refine ⟨cells (trimEnd spot.line), isCell_cells _, rfl, fun _ => ⟨_, rfl, ?_⟩⟩
    have hbar : columns width "│ ".toList = 2 := by decide
    have hends : columns width " ".toList = 1 ∧ columns width " │ ".toList = 3 := by decide
    simp only [arrowRow, String.toList_append, String.toList_ofList, List.append_assoc,
      List.cons_append]
    rw [← List.append_assoc, ← List.append_assoc]
    refine ⟨_, _, rfl, ?_, ?_⟩
    · simp
    · simp only [columns_append, columns_replicate, columns_flatMap_columnWidth, sum_columnWidth,
        columns_toString, hbar, hends]
      omega

/-- Plain reports are drawn as documented. -/
theorem documented_plain : plain.Documented where
  lines_eq := pageLines_eq_cut
  shows sketch index column line _ _ _ hline hcolumn hstart := by
    have hspot : sketch.spot = ⟨index + 1, column, line⟩ := by
      rw [Sketch.spot, hstart, Nat.add_comm index]
      exact locate_of_getElem? 1 hline hcolumn
    refine ⟨rows sketch sketch.spot, rfl, rfl, ?_⟩
    rw [hspot]
    exact shows_rows sketch ⟨index + 1, column, line⟩

end BracketLisp.Report
