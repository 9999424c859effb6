import BracketLisp.Proofs.Position.Offset
import Mathlib.Order.Monotone.Defs

/-!
# `BracketLisp.Proofs.Position.Counting`: offsets of counted places

The place behind some characters of a text is found by counting: a line for every line feed
among them, and a column for every character after the last one (`Position.behind`). An offset
is found the other way round, by going back to where the line starts. The two fit together
because a text has one ended piece for every line feed.

* `lineStart_count` finds the start of the line that is reached behind some characters: what
  is ended among them stands before it.
* `Position.offsetIn_behind` is the offset of a counted place, which is how many characters
  stand before it.
* `Position.offsetIn_mono` compares any two places, also those that are not in the text.

`offsetIn_inverts_counting` puts them together.
-/

set_option autoImplicit false

namespace BracketLisp

open Text

/-- The place behind the characters at the front of a text called `source`. -/
def Position.behind (source : String) (front : List Char) : Position where
  source
  line := 1 + front.count '\n'
  column := 1 + (unended front).length

/-- As many lines as there are line feeds in front hold all that is ended there. -/
theorem Text.lineStart_count (front rest : List Char) :
    lineStart (front ++ rest) (front.count '\n') = (ended front).length := by
  rw [lineStart, pieces_append_ended, List.take_left' (length_pieces_ended front),
    flatten_pieces]

namespace Position

/-- A counted place has the number of characters before it as its offset. -/
theorem offsetIn_behind (source : String) (front rest : List Char) :
    (behind source front).offsetIn (front ++ rest) = front.length := by
  have hoffset : lineStart (front ++ rest) (front.count '\n') + (unended front).length =
      front.length := by
    rw [lineStart_count, ← List.length_append, ended_append_unended]
  simp only [offsetIn_eq_min, behind, Nat.add_sub_cancel_left]
  rw [hoffset, List.length_append]
  exact Nat.min_eq_left (Nat.le_add_right ..)

/-- No offset is past the end of the text. -/
theorem offsetIn_le_length (position : Position) (text : List Char) :
    position.offsetIn text ≤ text.length :=
  Nat.min_le_right ..

/-- A place has no smaller offset than one that is neither on a later line nor at a later
column. -/
theorem offsetIn_mono {first second : Position} (hline : first.line ≤ second.line)
    (hcolumn : first.column ≤ second.column) (text : List Char) :
    first.offsetIn text ≤ second.offsetIn text := by
  have hstart : lineStart text (first.line - 1) ≤ lineStart text (second.line - 1) :=
    lineStart_mono text (Nat.sub_le_sub_right hline 1)
  have hrest : first.column - 1 ≤ second.column - 1 := Nat.sub_le_sub_right hcolumn 1
  rw [offsetIn_eq_min, offsetIn_eq_min]
  omega

end Position

/-- Offsets take back what counting lines and columns gives: the place behind any number of
characters of a text has this number as its offset. The offset of any place whatsoever is that
of a character or of the end of the text, and it never decreases as the column grows on one
line, or the line at one column. -/
theorem offsetIn_inverts_counting (text : List Char) :
    (∀ source, ∀ offset ≤ text.length,
      (Position.behind source (text.take offset)).offsetIn text = offset) ∧
    (∀ position : Position, position.offsetIn text ≤ text.length) ∧
    (∀ source line, Monotone fun column => (⟨source, line, column⟩ : Position).offsetIn text) ∧
    ∀ source column, Monotone fun line => (⟨source, line, column⟩ : Position).offsetIn text := by
  refine ⟨fun source offset hoffset => ?_, fun position => position.offsetIn_le_length text,
    fun source line column later hcolumn => ?_, fun source column line later hline => ?_⟩
  · have hbehind := Position.offsetIn_behind source (text.take offset) (text.drop offset)
    rwa [List.take_append_drop, List.length_take_of_le hoffset] at hbehind
  · exact Position.offsetIn_mono (Nat.le_refl line) hcolumn text
  · exact Position.offsetIn_mono hline (Nat.le_refl column) text

/-- The second line is empty, and the third one lacks its line feed. A place with the line and
column zero is at the start. A column past the end of the first line counts on in the others,
and a line past the last one is at the end. -/
theorem offsetIn_inverts_counting_blank_line :
    ∃ text : List Char, text = "ab\n\ncd".toList ∧ 5 ≤ text.length ∧
      Position.behind "t" (text.take 5) = ⟨"t", 3, 2⟩ ∧
      (⟨"t", 3, 2⟩ : Position).offsetIn text = 5 ∧
      (⟨"t", 0, 0⟩ : Position).offsetIn text = 0 ∧
      (⟨"t", 1, 5⟩ : Position).offsetIn text = 4 ∧
      (⟨"t", 9, 5⟩ : Position).offsetIn text = text.length ∧
      (⟨"t", 1, 0⟩ : Position).offsetIn text ≤ (⟨"t", 1, 5⟩ : Position).offsetIn text ∧
      (⟨"t", 1, 5⟩ : Position).offsetIn text ≤ (⟨"t", 9, 5⟩ : Position).offsetIn text ∧
      (⟨"t", 9, 5⟩ : Position).offsetIn text ≤ text.length := by
  let text := "ab\n\ncd".toList
  have hlength : 5 ≤ text.length := by decide
  obtain ⟨hcounted, hlimit, hcolumn, hline⟩ := offsetIn_inverts_counting text
  have hplace : Position.behind "t" (text.take 5) = ⟨"t", 3, 2⟩ := by decide
  exact ⟨text, rfl, hlength, hplace, hplace ▸ hcounted "t" 5 hlength, by decide, by decide,
    by decide, hcolumn "t" 1 (by decide : 0 ≤ 5), hline "t" 5 (by decide : 1 ≤ 9),
    hlimit ⟨"t", 9, 5⟩⟩

end BracketLisp
