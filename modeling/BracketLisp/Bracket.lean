/-!
# `BracketLisp.Bracket`: the three kinds of brackets
-/

set_option autoImplicit false

namespace BracketLisp

/-- A kind of bracket. All three make lists, and each closes only itself. -/
inductive Bracket where
  | paren
  | square
  | curly
deriving DecidableEq, Repr

namespace Bracket

/-- The character that opens a list of this kind. -/
def opening : Bracket → Char
  | paren => '('
  | square => '['
  | curly => '{'

/-- The character that closes a list of this kind. -/
def closing : Bracket → Char
  | paren => ')'
  | square => ']'
  | curly => '}'

/-- The kind that `c` opens. -/
def ofOpening? (c : Char) : Option Bracket :=
  match c with
  | '(' => some paren
  | '[' => some square
  | '{' => some curly
  | _ => none

/-- The kind that `c` closes. -/
def ofClosing? (c : Char) : Option Bracket :=
  match c with
  | ')' => some paren
  | ']' => some square
  | '}' => some curly
  | _ => none

@[simp]
theorem ofOpening?_opening (bracket : Bracket) : ofOpening? bracket.opening = some bracket := by
  cases bracket <;> rfl

@[simp]
theorem ofClosing?_closing (bracket : Bracket) : ofClosing? bracket.closing = some bracket := by
  cases bracket <;> rfl

end Bracket

end BracketLisp
