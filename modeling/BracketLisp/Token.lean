import BracketLisp.Bracket
import BracketLisp.Fault

/-!
# `BracketLisp.Token`: tokens and lexemes

A `Token` is what the scanner hands on. A `Lexeme` is a stretch of a line, character
for character, together with the token it reads as or the fault that spoils it, so
the lexemes of a line put together again are the line.
-/

set_option autoImplicit false

namespace BracketLisp

/-- A token. Blanks and comments are tokens too. They mean nothing to the parser. -/
inductive Token where
  | opening (bracket : Bracket)
  | closing (bracket : Bracket)
  | space
  | tab
  | symbol (name : String)
  | literal (content : String)
  | comment (text : String)
deriving DecidableEq, Repr

/-- Whether the parser passes over the token. -/
def Token.isLayout : Token → Bool
  | space | tab | comment _ => true
  | _ => false

/-- Whether `c` can stand in a symbol: neither a space nor a tab, neither a bracket
nor the start of a comment. Quotes and backslashes are ordinary here. -/
def isSymbolChar (c : Char) : Bool :=
  c != ' ' && c != '\t' && c != ';' &&
    (Bracket.ofOpening? c).isNone && (Bracket.ofClosing? c).isNone

/-- A stretch of a line and what it reads as. -/
structure Lexeme where
  raw : List Char
  reading : Except ParseFault Token
deriving Repr

end BracketLisp
