import BracketLisp.Text.Blank
import Mathlib.Data.List.DropRight

/-!
# `BracketLisp.Proofs.Text.Blank`: white space at the ends

White space at an end of a text makes no difference to the trimmed text (`trimEnd_append`,
`trim_append`), and a text without any is trimmed already (`trim_eq_self`).
-/

set_option autoImplicit false

namespace BracketLisp.Text

/-- White space behind a text is trimmed away. -/
theorem trimEnd_append {back : List Char} (h : ∀ c ∈ back, isBlank c = true)
    (text : List Char) : trimEnd (text ++ back) = trimEnd text := by
  rw [trimEnd, List.reverse_append,
    List.dropWhile_append_of_pos fun c hc => h c (List.mem_reverse.1 hc), trimEnd]

/-- What is trimmed from the end of a text is white space. -/
theorem exists_trimEnd (text : List Char) :
    ∃ back, text = trimEnd text ++ back ∧ ∀ c ∈ back, isBlank c = true := by
  refine ⟨(text.reverse.takeWhile isBlank).reverse, ?_, fun c hc => ?_⟩
  · rw [trimEnd, ← List.reverse_append, List.takeWhile_append_dropWhile, List.reverse_reverse]
  · exact List.mem_takeWhile_imp (List.mem_reverse.1 hc)

/-- White space around a text is trimmed away. -/
theorem trim_append {front back : List Char} (hfront : ∀ c ∈ front, isBlank c = true)
    (hback : ∀ c ∈ back, isBlank c = true) (text : List Char) :
    trim (front ++ text ++ back) = trim text := by
  rw [trim, List.append_assoc, List.dropWhile_append_of_pos hfront, List.dropWhile_append, trim]
  split
  next hnone =>
    have hnil : text.dropWhile isBlank = [] := by simpa using hnone
    rw [List.dropWhile_eq_nil_iff.2 hback, hnil]
  next => exact trimEnd_append hback _

/-- A text that neither begins nor ends with white space is trimmed already. -/
theorem trim_eq_self {text : List Char} (hfirst : ∀ c ∈ text.head?, isBlank c = false)
    (hlast : ∀ c ∈ text.getLast?, isBlank c = false) : trim text = text := by
  have hfront : text.dropWhile isBlank = text := by
    cases text with
    | nil => rfl
    | cons c rest => rw [List.dropWhile_cons_of_neg (by simp [hfirst c rfl])]
  rw [trim, hfront]
  refine List.rdropWhile_eq_self_iff.2 fun hne => ?_
  simp [hlast _ (List.getLast?_eq_some_getLast hne)]

end BracketLisp.Text
