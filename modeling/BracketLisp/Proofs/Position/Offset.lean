import BracketLisp.Position.Offset
import BracketLisp.Proofs.Text.Line
import Mathlib.Data.List.Infix

/-!
# `BracketLisp.Proofs.Position.Offset`: offsets of places on lines

Two ways to cut a text meet here. Lines drop their terminators and pieces keep them, but
both are numbered alike, and a line is what its piece begins with. So a place on a line
has as its offset the characters of all earlier pieces and those before it on the line.

* `text_eq_of_line` finds a line in its text, between the earlier pieces and the later ones.
* `offsetIn_of_line` is the offset of a place on a line, up to the place behind the line.
* `lineStart_mono` and `lineStart_add_length_le` order the lines: each one ends before the next
  one starts.
-/

set_option autoImplicit false

namespace BracketLisp

namespace Text

/-- Whether characters can stand between the content of a line and the next line. Only the
last line may end with nothing. -/
def IsEnding (ending : List Char) : Prop :=
  ending = [] ∨ ending = ['\n'] ∨ ending = ['\r', '\n']

/-- How many characters stand before a line, given by its index. -/
def lineStart (text : List Char) (index : Nat) : Nat :=
  ((pieces text).take index).flatten.length

/-- Later lines do not start earlier. -/
theorem lineStart_mono (text : List Char) {index later : Nat} (h : index ≤ later) :
    lineStart text index ≤ lineStart text later :=
  (List.IsPrefix.flatten (List.take_prefix_take_left h)).length_le

/-- A piece is its line and a terminator. -/
theorem exists_ending (piece : List Char) :
    ∃ ending, IsEnding ending ∧ piece = body piece ++ ending := by
  fun_induction body piece with
  | case1 => exact ⟨[], .inl rfl, rfl⟩
  | case2 => exact ⟨['\n'], .inr (.inl rfl), rfl⟩
  | case3 => exact ⟨['\r', '\n'], .inr (.inr rfl), rfl⟩
  | case4 c rest _ _ ih =>
    obtain ⟨ending, hending, hrest⟩ := ih
    exact ⟨ending, hending, congrArg (c :: ·) hrest⟩

/-- A line stands in its text between the earlier pieces and, behind its terminator, the
later ones. -/
theorem text_eq_of_line {text line : List Char} {index : Nat}
    (h : (lines text)[index]? = some line) :
    ∃ ending, IsEnding ending ∧
      text = ((pieces text).take index).flatten ++ (line ++ ending) ++
        ((pieces text).drop (index + 1)).flatten := by
  rw [lines, List.getElem?_map] at h
  obtain ⟨piece, hpiece, rfl⟩ := Option.map_eq_some_iff.1 h
  obtain ⟨ending, hending, heq⟩ := exists_ending piece
  refine ⟨ending, hending, ?_⟩
  obtain ⟨hlt, hget⟩ := List.getElem?_eq_some_iff.1 hpiece
  calc
    text = (pieces text).flatten := (flatten_pieces text).symm
    _ = ((pieces text).take index ++ piece :: (pieces text).drop (index + 1)).flatten := by
      rw [← hget, ← List.drop_eq_getElem_cons hlt, List.take_append_drop]
    _ = _ := by rw [List.flatten_append, List.flatten_cons, ← List.append_assoc, ← heq]

/-- The characters of a text from a place on a line on. -/
theorem drop_lineStart_add {text line : List Char} {index column : Nat}
    (h : (lines text)[index]? = some line) (hcolumn : column ≤ line.length) :
    ∃ after, text.drop (lineStart text index + column) = line.drop column ++ after := by
  obtain ⟨ending, -, htext⟩ := text_eq_of_line h
  refine ⟨ending ++ ((pieces text).drop (index + 1)).flatten, ?_⟩
  unfold lineStart
  generalize ((pieces text).take index).flatten = before at htext ⊢
  generalize ((pieces text).drop (index + 1)).flatten = later at htext ⊢
  rw [htext, List.append_assoc, List.drop_length_add_append, List.append_assoc,
    List.drop_append_of_le_length hcolumn]

/-- The place behind a line is not past the end of the text. -/
theorem lineStart_add_length_le_length {text line : List Char} {index : Nat}
    (h : (lines text)[index]? = some line) :
    lineStart text index + line.length ≤ text.length := by
  obtain ⟨ending, -, htext⟩ := text_eq_of_line h
  conv => rhs; rw [htext]
  simp only [lineStart, List.length_append]
  omega

/-- A line ends before any later one starts. -/
theorem lineStart_add_length_le {text line : List Char} {index later : Nat}
    (h : (lines text)[index]? = some line) (hlater : index < later) :
    lineStart text index + line.length ≤ lineStart text later := by
  rw [lines, List.getElem?_map] at h
  obtain ⟨piece, hpiece, rfl⟩ := Option.map_eq_some_iff.1 h
  calc
    lineStart text index + (body piece).length ≤ lineStart text index + piece.length :=
      Nat.add_le_add_left (length_body_le piece) _
    _ = lineStart text (index + 1) := by
      rw [lineStart, lineStart, List.take_add_one, hpiece, Option.toList_some,
        List.flatten_concat, List.length_append]
    _ ≤ lineStart text later := lineStart_mono text hlater

end Text

open Text

/-- An offset counts on from the start of the line, but not past the end of the text. -/
theorem Position.offsetIn_eq_min (position : Position) (text : List Char) :
    position.offsetIn text =
      min (lineStart text (position.line - 1) + (position.column - 1)) text.length :=
  rfl

/-- The offset of a place on a line, or right behind it. -/
theorem Position.offsetIn_of_line {text line : List Char} {index column : Nat}
    (h : (lines text)[index]? = some line) (hcolumn : column ≤ line.length) (source : String) :
    (⟨source, index + 1, column + 1⟩ : Position).offsetIn text =
      lineStart text index + column := by
  have hle := lineStart_add_length_le_length h
  rw [Position.offsetIn_eq_min, Nat.add_sub_cancel, Nat.add_sub_cancel]
  omega

end BracketLisp
