import BracketLisp.Proofs.Text.Unit
import Mathlib.Data.List.Basic
import Mathlib.Data.List.Induction

/-!
# `BracketLisp.Proofs.Text.Literal`: what is written is read

A text that is escaped and put between quotes reads as itself, whatever it consists of, and
whatever follows the closing quote.

* `Escaped` lists the ways in which a character is written. Each is a unit that stands for the
  character (`Escaped.isUnit`).
* `read_escape` makes a row of these units, up to the quote. So no two texts are escaped alike
  (`escape_injective`).
* `isControl_of_mem_escape`: an escaped text holds no control character, so it stays on one
  line.
* `odd_backslashes`: each quote in an escaped text belongs to the backslash before it.
-/

set_option autoImplicit false

namespace BracketLisp.Text.Literal

/-! ### Escaped characters are units -/

/-- The ways in which a character is written: a special one behind a backslash, a control
character as a letter or as its code, and any other as it is. -/
inductive Escaped (c : Char) : List Char → Prop where
  | special (h : c = '\\' ∨ c = '"') : Escaped c ['\\', c]
  | letter {letter : Char} (h : (letter, c) ∈ controlLetters) : Escaped c ['\\', letter]
  | code {high low : Nat} (hhigh : high < 16) (hlow : low < 16) (h : c.toNat = 16 * high + low) :
      Escaped c ['\\', 'x', hexDigit high, hexDigit low]
  | plain (hslash : c ≠ '\\') (hquote : c ≠ '"') (h : isControl c = false) : Escaped c [c]

/-- Each character is written in one of these ways. -/
theorem escaped_escapeChar (c : Char) : Escaped c (escapeChar c) := by
  unfold escapeChar
  split
  next hspecial => exact .special hspecial
  next hspecial =>
    rw [not_or] at hspecial
    split
    next letter hletter =>
      refine .letter ?_
      unfold shorthand? at hletter
      split at hletter <;> cases hletter <;> decide
    next =>
      split
      next hcontrol =>
        -- Control characters are among the first 128.
        have hlt : c.toNat < 128 := by
          simp only [isControl, Bool.or_eq_true, decide_eq_true_eq, beq_iff_eq] at hcontrol
          omega
        exact .code (by omega) (by omega) (Nat.div_add_mod ..).symm
      next hcontrol => exact .plain hspecial.1 hspecial.2 (Bool.eq_false_iff.2 hcontrol)

/-- A hexadecimal digit has the value that it is written for. -/
theorem isDigitOf_hexDigit {value : Nat} (h : value < 16) :
    IsDigitOf 16 (hexDigit value) value := by
  have hall : ∀ value < 16, IsDigitOf 16 (hexDigit value) value := by decide
  exact hall value h

/-- An escaped character is a unit that stands for the character. -/
theorem Escaped.isUnit {c : Char} {raw : List Char} (h : Escaped c raw) : IsUnit raw c := by
  cases h with
  | special h => exact .sign (by rcases h with rfl | rfl <;> decide)
  | letter h => exact .control h
  | code hhigh hlow h => exact .hexadecimal (isDigitOf_hexDigit hhigh) (isDigitOf_hexDigit hlow) h
  | plain hslash hquote _ => exact .plain hquote hslash

/-- An escaped text is a row of units that stands for the text. -/
theorem units_escape (content : List Char) : Units (escape content) content := by
  induction content with
  | nil => exact .nil
  | cons c content ih =>
    rw [escape, List.flatMap_cons]
    exact .cons (escaped_escapeChar c).isUnit ih

/-- An escaped text and a closing quote read as the text, up to the quote. -/
theorem read_escape (content rest : List Char) :
    read (escape content ++ '"' :: rest) = ⟨content, (escape content).length + 1, .closed⟩ :=
  read_closed (units_escape content) rest

/-- Different texts have different escaped forms. -/
theorem escape_injective : Function.Injective escape := by
  intro first second h
  have hread := read_escape first []
  rw [h, read_escape second []] at hread
  exact (Reading.mk.inj hread).1.symm

/-! ### What an escaped text does not hold -/

/-- No escaped character holds a control character. -/
theorem Escaped.not_control {c d : Char} {raw : List Char} (h : Escaped c raw) (hd : d ∈ raw) :
    isControl d = false := by
  have hhex : ∀ value < 16, isControl (hexDigit value) = false := by decide
  have hletters : ∀ pair ∈ controlLetters, isControl pair.1 = false := by decide
  cases h with
  | special hspecial =>
    rcases List.mem_pair.1 hd with rfl | rfl
    · rfl
    · rcases hspecial with rfl | rfl <;> rfl
  | letter hletter =>
    rcases List.mem_pair.1 hd with rfl | rfl
    · rfl
    · exact hletters _ hletter
  | code hhigh hlow _ =>
    simp only [List.mem_cons, List.not_mem_nil, or_false] at hd
    rcases hd with rfl | rfl | rfl | rfl
    · rfl
    · rfl
    · exact hhex _ hhigh
    · exact hhex _ hlow
  | plain _ _ hcontrol => rwa [List.mem_singleton.1 hd]

/-- An escaped text holds no control character. -/
theorem isControl_of_mem_escape {content : List Char} {d : Char} (h : d ∈ escape content) :
    isControl d = false := by
  obtain ⟨c, -, hc⟩ := List.mem_flatMap.1 h
  exact (escaped_escapeChar c).not_control hc

/-- An escaped text holds no line feed. -/
theorem not_mem_escape (content : List Char) : '\n' ∉ escape content := fun h =>
  absurd (isControl_of_mem_escape h) (by decide)

/-! ### Quotes in an escaped text -/

/-- How many backslashes a text ends in. -/
def trailingBackslashes (text : List Char) : Nat :=
  (text.reverse.takeWhile (· == '\\')).length

theorem trailingBackslashes_concat (text : List Char) (c : Char) :
    trailingBackslashes (text ++ [c]) = if c = '\\' then trailingBackslashes text + 1 else 0 := by
  unfold trailingBackslashes
  rw [List.reverse_append, List.reverse_singleton, List.singleton_append, List.takeWhile_cons]
  by_cases hc : c = '\\' <;> simp [hc]

/-- Either a character is special, or no quote and no final backslash is written for it. -/
theorem Escaped.ending {c : Char} {raw : List Char} (h : Escaped c raw) :
    (c = '\\' ∨ c = '"') ∧ raw = ['\\', c] ∨
      '"' ∉ raw ∧ ∃ front last, raw = front ++ [last] ∧ last ≠ '\\' := by
  have hhex : ∀ value < 16, hexDigit value ≠ '"' ∧ hexDigit value ≠ '\\' := by decide
  have hletters : ∀ pair ∈ controlLetters, pair.1 ≠ '"' ∧ pair.1 ≠ '\\' := by decide
  cases h with
  | special hspecial => exact .inl ⟨hspecial, rfl⟩
  | @letter letter hletter =>
    obtain ⟨hquote, hslash⟩ := hletters _ hletter
    exact .inr ⟨by simpa using hquote.symm, ['\\'], letter, rfl, hslash⟩
  | @code high low hhigh hlow _ =>
    refine .inr ⟨?_, ['\\', 'x', hexDigit high], hexDigit low, rfl, (hhex low hlow).2⟩
    simpa using ⟨(hhex high hhigh).1.symm, (hhex low hlow).1.symm⟩
  | plain hslash hquote _ => exact .inr ⟨by simpa using hquote.symm, [], c, rfl, hslash⟩

theorem escape_concat (content : List Char) (c : Char) :
    escape (content ++ [c]) = escape content ++ escapeChar c := by
  rw [escape, List.flatMap_append, List.flatMap_singleton, escape]

/-- The backslashes at the end of an escaped text are pairs. -/
theorem trailingBackslashes_escape (content : List Char) :
    trailingBackslashes (escape content) % 2 = 0 := by
  induction content using List.reverseRecOn with
  | nil => rfl
  | append_singleton content c ih =>
    rw [escape_concat]
    rcases (escaped_escapeChar c).ending with ⟨rfl | rfl, heq⟩ | ⟨-, front, last, heq, hlast⟩
    · rw [heq, List.append_cons, trailingBackslashes_concat, trailingBackslashes_concat,
        if_pos rfl, if_pos rfl]
      omega
    · rw [heq, List.append_cons, trailingBackslashes_concat, if_neg (by decide)]
    · rw [heq, ← List.append_assoc, trailingBackslashes_concat, if_neg hlast]

/-- A quote is only written for itself, behind a backslash. -/
theorem front_of_escapeChar {c : Char} {front after : List Char}
    (h : escapeChar c = front ++ '"' :: after) : front = ['\\'] := by
  have hmem : '"' ∈ escapeChar c := h ▸ List.mem_append_right _ (List.mem_cons_self ..)
  rcases (escaped_escapeChar c).ending with ⟨-, heq⟩ | ⟨hnone, -⟩
  · rw [heq] at h
    match front with
    | [] => simp at h
    | [d] => simpa using (List.cons.inj h).1.symm
    | d :: e :: front => simp at h
  · exact absurd hmem hnone

/-- A quote in an escaped text stands behind an odd number of backslashes, so the last of them
belongs to it. -/
theorem odd_backslashes {content before after : List Char}
    (h : escape content = before ++ '"' :: after) : trailingBackslashes before % 2 = 1 := by
  induction content using List.reverseRecOn generalizing after with
  | nil => simp [escape] at h
  | append_singleton content c ih =>
    rw [escape_concat, List.append_eq_append_iff] at h
    -- The quote belongs to the last character, or to one before it.
    obtain ⟨front, rfl, hlast⟩ | ⟨inner, hinner, hafter⟩ := h
    · have hpairs := trailingBackslashes_escape content
      rw [front_of_escapeChar hlast, trailingBackslashes_concat, if_pos rfl]
      omega
    · cases inner with
      | nil =>
        have hquote : escapeChar c = [] ++ '"' :: after := hafter.symm
        exact absurd (front_of_escapeChar hquote) (by decide)
      | cons d inner =>
        obtain ⟨rfl, -⟩ := List.cons.inj hafter
        exact ih hinner

end BracketLisp.Text.Literal
