import BracketLisp.Position

/-!
# `BracketLisp.Fault`: what can go wrong, and where

A fault is a cause without a place. An error is a fault at a position, and its
message is the position followed by the wording of the fault.

* `ParseFault` covers the scanner and the parser.
* `EvalFault` covers evaluation. The kinds of values it speaks of are `Kind`s.
-/

set_option autoImplicit false

namespace BracketLisp

/-- The kinds of values, as error messages and hosts name them. -/
inductive Kind where
  | nil
  | bool
  | int
  | float
  | string
  | function
  | builtin
deriving DecidableEq, Repr

/-- The name of a kind. -/
def Kind.name : Kind → String
  | nil => "Nil"
  | bool => "Bool"
  | int => "Int"
  | float => "Float"
  | string => "String"
  | function => "Function"
  | builtin => "Builtin"

/-- Several kinds in a sentence: commas between them, and `or` before the last. -/
def Kind.alternatives : List Kind → String
  | [] => ""
  | [kind] => kind.name
  | [first, last] => first.name ++ " or " ++ last.name
  | first :: others => first.name ++ ", " ++ alternatives others

/-- Why a text is not a sequence of forms. -/
inductive ParseFault where
  /-- A character inside a literal that no escape can go on with. -/
  | illegalEscape (found : Char)
  /-- A literal that its line does not close. -/
  | unclosedLiteral
  /-- A closing bracket where none, or one of another kind, is due. -/
  | unexpectedChar (found : Char)
  /-- A symbol or literal outside of all lists. -/
  | atomAtTopLevel
  /-- A list that the text does not close. -/
  | unclosedList
deriving DecidableEq, Repr

/-- The wording of a parse fault. -/
def ParseFault.message : ParseFault → String
  | illegalEscape found => "Illegal escape sequence: '" ++ found.toString ++ "'"
  | unclosedLiteral => "String literal must be a single line"
  | unexpectedChar found => "Unexpected input char: '" ++ found.toString ++ "'"
  | atomAtTopLevel => "Top-level element must be a list"
  | unclosedList => "Missing closing parenthesis"

/-- Why an evaluation has no value. -/
inductive EvalFault where
  /-- A symbol without a binding. -/
  | undefinedSymbol (name : String)
  /-- A list without a head to call. -/
  | emptyList
  /-- A head that is neither a function nor a builtin. -/
  | notCallable (found : Kind)
  /-- A number of arguments other than the fixed one. -/
  | arityMismatch (expected actual : Nat)
  /-- Fewer arguments than the least number. -/
  | tooFewArguments (minimum actual : Nat)
  /-- A target of `set` that is no symbol. -/
  | targetNotSymbol
  /-- A parameter list that is no list, or holds something besides symbols. -/
  | parameterNotSymbol
  /-- An operand that arithmetic or order does not know. -/
  | nonArithmetic (found : Kind)
  /-- An operand of a kind that does not go with the others. -/
  | typeMismatch (expected : List Kind) (found : Kind)
  /-- An operand that has to be an integer. -/
  | notInteger (found : Kind)
  /-- An operand that has to be a truth value. -/
  | notBoolean (found : Kind)
  /-- A zero divisor. -/
  | divisionByZero
  /-- An integer result that 64 bits do not hold. -/
  | overflow
  /-- An integer outside of the range from `least` to `greatest`. -/
  | outOfRange (value least greatest : Int)
  /-- A text or float that is no number of the kind asked for. -/
  | invalidNumber (text : String)
deriving DecidableEq, Repr

/-- The wording of an evaluation fault. -/
def EvalFault.message : EvalFault → String
  | undefinedSymbol name => "Undefined symbol: " ++ name
  | emptyList => "An empty list is not allowed"
  | notCallable found =>
    "The first element of the list to be evaluated must be a callable object, but this is type " ++
      found.name
  | arityMismatch expected actual =>
    "The number of arguments does not match (expected " ++ toString expected ++
      ", got " ++ toString actual ++ ")"
  | tooFewArguments minimum actual =>
    "Insufficient number of arguments (expected at least " ++ toString minimum ++
      ", got " ++ toString actual ++ ")"
  | targetNotSymbol => "You cannot bind a value to anything other than a symbol"
  | parameterNotSymbol => "The argument list must consist of symbols only"
  | nonArithmetic found => "Non-arithmetic data type: " ++ found.name
  | typeMismatch expected found =>
    "Type mismatch (expected " ++ Kind.alternatives expected ++ ", found " ++ found.name ++ ")"
  | notInteger found => "Operands must be of integer type: " ++ found.name
  | notBoolean found => "Operands must be boolean: " ++ found.name
  | divisionByZero => "Division by zero"
  | overflow => "Arithmetic overflow"
  | outOfRange value least greatest =>
    "Value " ++ toString value ++ " is out of range (" ++ toString least ++ "..=" ++
      toString greatest ++ ")"
  | invalidNumber text => "Invalid number: \"" ++ text ++ "\""

/-- A parse fault and its place. -/
abbrev ParseError := Located ParseFault

/-- An evaluation fault and its place. -/
abbrev EvalError := Located EvalFault

/-- The message of a parse error: where, then what. -/
def ParseError.message (error : ParseError) : String :=
  error.span.text ++ " " ++ error.value.message

/-- The message of an evaluation error: where, then what. -/
def EvalError.message (error : EvalError) : String :=
  error.span.text ++ " " ++ error.value.message

end BracketLisp
