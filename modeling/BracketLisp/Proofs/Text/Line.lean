import BracketLisp.Text.Line
import Mathlib.Data.List.Basic
import Mathlib.Data.List.DropRight

/-!
# `BracketLisp.Proofs.Text.Line`: what lines are made of

Every line feed of a text ends a piece, so no line holds one (`not_mem_of_mem_lines`). A
line that stands alone is cut no further (`lines_of_not_mem`), and what begins the first line
of a text can be put in front of it (`lines_append`). Lines only lose their terminators, so
together they are no longer than the text (`length_flatten_lines_le`).

The last line feed of a text separates what is `ended` from what is `unended`. It separates the
pieces, too (`pieces_append_ended`), and as many of them are ended as there are line feeds
(`length_pieces_ended`).
-/

set_option autoImplicit false

namespace BracketLisp.Text

/-- A line feed can only be the last character of a piece. -/
theorem not_mem_dropLast_of_mem_pieces {text piece : List Char} (h : piece ∈ pieces text) :
    '\n' ∉ piece.dropLast := by
  induction text generalizing piece with
  | nil => cases h
  | cons c rest ih =>
    unfold pieces at h
    split at h
    next =>
      rcases List.mem_cons.1 h with rfl | hmem
      · simp
      · exact ih hmem
    next hc =>
      cases hrest : pieces rest with
      | nil =>
        rw [hrest] at h
        obtain rfl := List.mem_singleton.1 h
        simp
      | cons first others =>
        rw [hrest] at h ih
        rcases List.mem_cons.1 h with rfl | hmem
        · -- The character before the first piece is none.
          have hfirst : '\n' ∉ first.dropLast := ih (List.mem_cons_self ..)
          cases first with
          | nil => simp
          | cons d tail =>
            rw [List.dropLast_cons_cons, List.mem_cons, not_or]
            exact ⟨fun heq => hc heq.symm, hfirst⟩
        · exact ih (List.mem_cons_of_mem _ hmem)

/-- What a piece holds besides its terminator is free of line feeds. -/
theorem not_mem_body {piece : List Char} (h : '\n' ∉ piece.dropLast) : '\n' ∉ body piece := by
  -- The first three cases are the pieces without content.
  fun_induction body piece with
  | case1 => simp
  | case2 => simp
  | case3 => simp
  | case4 c rest hfeed hreturn ih =>
    cases rest with
    | nil =>
      have hc : c ≠ '\n' := fun heq => hfeed heq rfl
      simpa [body] using hc.symm
    | cons d tail =>
      rw [List.dropLast_cons_cons, List.mem_cons, not_or] at h
      rw [List.mem_cons, not_or]
      exact ⟨h.1, ih h.2⟩

/-- No line holds a line feed. -/
theorem not_mem_of_mem_lines {text line : List Char} (h : line ∈ lines text) : '\n' ∉ line := by
  obtain ⟨piece, hpiece, rfl⟩ := List.mem_map.1 h
  exact not_mem_body (not_mem_dropLast_of_mem_pieces hpiece)

/-- Characters without a line feed are one piece. -/
theorem pieces_of_not_mem {text : List Char} (hne : text ≠ []) (h : '\n' ∉ text) :
    pieces text = [text] := by
  induction text with
  | nil => exact absurd rfl hne
  | cons c rest ih =>
    rw [List.mem_cons, not_or] at h
    rw [pieces, if_neg (Ne.symm h.1)]
    cases rest with
    | nil => rfl
    | cons d tail => rw [ih (List.cons_ne_nil d tail) h.2]

/-- Characters without a line feed are all of their piece. -/
theorem body_of_not_mem {text : List Char} (h : '\n' ∉ text) : body text = text := by
  fun_induction body text with
  | case1 => rfl
  | case2 => simp at h
  | case3 => simp at h
  | case4 c rest _ _ ih =>
    rw [List.mem_cons, not_or] at h
    rw [ih h.2]

/-- A line that stands alone is the one line of its text. -/
theorem lines_of_not_mem {text : List Char} (hne : text ≠ []) (h : '\n' ∉ text) :
    lines text = [text] := by
  rw [lines, pieces_of_not_mem hne h, List.map_singleton, body_of_not_mem h]

/-- Characters without a line feed begin the first piece. -/
theorem pieces_append {front : List Char} (hne : front ≠ []) (hfeed : '\n' ∉ front)
    (rest : List Char) :
    pieces (front ++ rest) = (front ++ (pieces rest).headD []) :: (pieces rest).tail := by
  induction front with
  | nil => exact absurd rfl hne
  | cons c front ih =>
    rw [List.mem_cons, not_or] at hfeed
    rw [List.cons_append, pieces, if_neg (Ne.symm hfeed.1)]
    cases front with
    | nil =>
      rw [List.nil_append]
      cases pieces rest <;> rfl
    | cons d tail =>
      rw [ih (List.cons_ne_nil d tail) hfeed.2]
      rfl

/-- What begins a piece is all of its line, unless it takes a part of the terminator. -/
theorem body_append {front : List Char} (hfeed : '\n' ∉ front)
    (hreturn : front.getLast? ≠ some '\r') (piece : List Char) :
    body (front ++ piece) = front ++ body piece := by
  induction front with
  | nil => rfl
  | cons c rest ih =>
    rw [List.mem_cons, not_or] at hfeed
    rw [List.cons_append, List.cons_append]
    cases rest with
    | nil =>
      have hc : c ≠ '\r' := fun heq => hreturn (heq ▸ rfl)
      rw [body] <;> simp [hc, Ne.symm hfeed.1]
    | cons d tail =>
      have hd : d ≠ '\n' := fun heq => hfeed.2 (heq ▸ List.mem_cons_self ..)
      rw [body, ih hfeed.2 (by simpa using hreturn)] <;> simp [hd]

/-- Characters that begin the first line of a text leave all other lines as they are. -/
theorem lines_append {front : List Char} (hne : front ≠ []) (hfeed : '\n' ∉ front)
    (hreturn : front.getLast? ≠ some '\r') (rest : List Char) :
    lines (front ++ rest) = (front ++ (lines rest).headD []) :: (lines rest).tail := by
  rw [lines, pieces_append hne hfeed, List.map_cons, body_append hfeed hreturn, lines]
  cases pieces rest <;> rfl

/-- A piece only loses its terminator. -/
theorem length_body_le (piece : List Char) : (body piece).length ≤ piece.length := by
  fun_induction body piece with
  | case1 => simp
  | case2 => simp
  | case3 => simp
  | case4 c rest _ _ ih => simpa using ih

/-- All lines together are no longer than the text. -/
theorem length_flatten_lines_le (text : List Char) :
    (lines text).flatten.length ≤ text.length := by
  have hbody (rows : List (List Char)) :
      (rows.map body).flatten.length ≤ rows.flatten.length := by
    induction rows with
    | nil => simp
    | cons row rows ih =>
      have hrow := length_body_le row
      simp only [List.map_cons, List.flatten_cons, List.length_append]
      omega
  have hpieces := hbody (pieces text)
  rw [flatten_pieces] at hpieces
  exact hpieces

/-! ### The last line feed -/

/-- The characters up to the last line feed, with which they end. There are none if there is no
line feed. -/
def ended (text : List Char) : List Char :=
  text.rdropWhile (· != '\n')

/-- The characters after the last line feed. There is no line feed if these are all. -/
def unended (text : List Char) : List Char :=
  text.rtakeWhile (· != '\n')

theorem ended_append_unended (text : List Char) : ended text ++ unended text = text :=
  List.rdropWhile_append_rtakeWhile

theorem not_mem_unended (text : List Char) : '\n' ∉ unended text :=
  fun h => by simpa using List.mem_rtakeWhile_imp h

/-- What is ended ends with a line feed. -/
theorem eq_of_mem_getLast?_ended {text : List Char} {c : Char}
    (h : c ∈ (ended text).getLast?) : c = '\n' := by
  obtain ⟨hne, rfl⟩ := List.mem_getLast?_eq_getLast h
  have hlast := List.rdropWhile_last_not (· != '\n') text hne
  rwa [bne_iff_ne, not_not] at hlast

/-- All line feeds are in what is ended. -/
theorem count_ended (text : List Char) : (ended text).count '\n' = text.count '\n' := by
  conv_rhs => rw [← ended_append_unended text, List.count_append,
    List.count_eq_zero.2 (not_mem_unended text), Nat.add_zero]

/-- A character that is no line feed belongs to the piece of what comes after it. -/
theorem pieces_cons_of_ne {c : Char} {rest : List Char} (hc : c ≠ '\n') (hrest : rest ≠ []) :
    ∃ piece others, pieces rest = piece :: others ∧
      pieces (c :: rest) = (c :: piece) :: others := by
  cases h : pieces rest with
  | nil => exact absurd (by simpa [h] using (flatten_pieces rest).symm) hrest
  | cons piece others => exact ⟨piece, others, rfl, by rw [pieces, if_neg hc, h]⟩

/-- Characters that end with a line feed have as many pieces as line feeds, whatever comes
after them. -/
theorem pieces_append_of_getLast? {front : List Char} (h : ∀ c ∈ front.getLast?, c = '\n')
    (rest : List Char) :
    pieces (front ++ rest) = pieces front ++ pieces rest ∧
      (pieces front).length = front.count '\n' := by
  induction front with
  | nil => exact ⟨rfl, rfl⟩
  | cons c front ih =>
    obtain ⟨happend, hlength⟩ := ih fun d hd => h d (List.mem_getLast?_cons hd)
    by_cases hc : c = '\n'
    · subst hc
      rw [List.cons_append, pieces, pieces, if_pos rfl, if_pos rfl, happend, List.cons_append,
        List.length_cons, hlength, List.count_cons_self]
      exact ⟨rfl, rfl⟩
    · -- The last character is a line feed, so it is not this one.
      have hfront : front ≠ [] := by
        rintro rfl
        exact hc (h c rfl)
      obtain ⟨piece, others, hpieces, hcons⟩ := pieces_cons_of_ne hc hfront
      rw [hpieces] at happend hlength
      refine ⟨?_, ?_⟩
      · rw [hcons, List.cons_append, pieces, if_neg hc, happend]
        rfl
      · rw [hcons, List.count_cons_of_ne hc, ← hlength]
        rfl

/-- What is ended is cut as if it stood alone, and so is what comes after it. -/
theorem pieces_append_ended (front rest : List Char) :
    pieces (front ++ rest) = pieces (ended front) ++ pieces (unended front ++ rest) := by
  rw [← (pieces_append_of_getLast? (fun _ => eq_of_mem_getLast?_ended) _).1,
    ← List.append_assoc, ended_append_unended]

/-- What is ended has its lines as if it stood alone, and so has what comes after it. -/
theorem lines_append_ended (front rest : List Char) :
    lines (front ++ rest) = lines (ended front) ++ lines (unended front ++ rest) := by
  rw [lines, pieces_append_ended, List.map_append, lines, lines]

/-- Each line feed of a text ends one piece. -/
theorem length_pieces_ended (text : List Char) :
    (pieces (ended text)).length = text.count '\n' :=
  (pieces_append_of_getLast? (fun _ => eq_of_mem_getLast?_ended) []).2.trans (count_ended text)

end BracketLisp.Text
