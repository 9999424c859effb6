/-!
# `BracketLisp.Catalog`: the operations every full session knows

`catalog` lists them with their names, in the order in which a session takes them up.

* An `Operation` gets its arguments evaluated, from left to right.
* A `SpecialForm` decides itself what to evaluate, and when.
-/

set_option autoImplicit false

namespace BracketLisp

/-- The four operations of arithmetic. -/
inductive Arith where
  | add
  | sub
  | mul
  | div
deriving DecidableEq, Repr

/-- The four relations of order. -/
inductive Comparison where
  | lt
  | le
  | gt
  | ge
deriving DecidableEq, Repr

/-- An entry of the catalog whose arguments are evaluated from left to right. -/
inductive Operation where
  | arithmetic (op : Arith)
  | remainder
  | compare (comparison : Comparison)
  | equal
  | not
  /-- The conjunction, which stops at the first `false`. -/
  | all
  /-- The disjunction, which stops at the first `true`. -/
  | any
  | bitAnd
  | bitOr
  /-- Exclusive or, and the complement of a single operand. -/
  | bitXor
  | shiftLeft
  | shiftRight
  | concat
  | toInt
  | toFloat
deriving DecidableEq, Repr

/-- An entry of the catalog that gets its arguments as they stand. -/
inductive SpecialForm where
  /-- Binds a symbol in the scope of the call. -/
  | assign
  /-- Evaluates one of two branches. -/
  | branch
  /-- Evaluates a body as long as a condition holds. -/
  | loop
  /-- Makes a function. -/
  | lambda
  /-- Evaluates elements in order. -/
  | sequence
deriving DecidableEq, Repr

/-- An entry of the catalog. -/
inductive Builtin where
  | operation (operation : Operation)
  | form (form : SpecialForm)
deriving DecidableEq, Repr

/-- The entries of the catalog with their names, in order. -/
def catalog : List (String × Builtin) :=
  [("+", .operation (.arithmetic .add)),
    ("-", .operation (.arithmetic .sub)),
    ("*", .operation (.arithmetic .mul)),
    ("/", .operation (.arithmetic .div)),
    ("eq", .operation .equal),
    ("and", .operation .all),
    ("or", .operation .any),
    ("band", .operation .bitAnd),
    ("bor", .operation .bitOr),
    ("bxor", .operation .bitXor),
    ("str", .operation .concat),
    ("%", .operation .remainder),
    ("<", .operation (.compare .lt)),
    ("<=", .operation (.compare .le)),
    (">", .operation (.compare .gt)),
    (">=", .operation (.compare .ge)),
    ("not", .operation .not),
    ("lshift", .operation .shiftLeft),
    ("rshift", .operation .shiftRight),
    ("int", .operation .toInt),
    ("float", .operation .toFloat),
    ("set", .form .assign),
    ("if", .form .branch),
    ("while", .form .loop),
    ("func", .form .lambda),
    ("do", .form .sequence)]

end BracketLisp
