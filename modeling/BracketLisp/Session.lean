import BracketLisp.Eval.Element
import BracketLisp.Form.Parse

/-!
# `BracketLisp.Session`: running texts

A session is an environment that texts are run in, one after the other. Running a text
means to parse all of it first, so a text that does not parse changes no binding, and
then to evaluate its forms in the root.

* `parse` only parses. The symbols of the text stay known.
* `run` evaluates forms up to the first fault.
* `runEach` evaluates all forms, and a fault ends only the form that it is in.
-/

set_option autoImplicit false

namespace BracketLisp.Session

variable {H : Type}

/-- Why running a text gave no value. -/
inductive Failure where
  | parse (error : ParseError)
  | eval (error : EvalError)
  | outOfFuel
deriving DecidableEq, Repr

/-- The failure that a halt amounts to. -/
def Failure.ofHalt : Halt → Failure
  | .fault error => eval error
  | .outOfFuel => outOfFuel

/-- Parses a text. Its symbols get their numbers, also those before a fault. -/
def parse (source : String) (text : List Char) (env : Environment H) :
    Except ParseError (List Form) × Environment H :=
  let (result, symbols) := BracketLisp.parse source text env.symbols
  (result, { env with symbols })

/-- Evaluates forms in a scope up to the first fault. The result is the value of the
last one, and `last` if there is none. -/
def evalForms [Host H] (fuel : Nat) (scope : ScopeId) :
    (last : Value H) → List Form → Eval H (Value H)
  | last, [] => pure last
  | _, form :: others => do
    let value ← eval fuel form.element scope
    evalForms fuel scope value others

/-- A text evaluates its forms as `do` evaluates the elements of its call. -/
theorem evalForms_eq_inOrder [Host H] (fuel : Nat) (scope : ScopeId) (last : Value H)
    (forms : List Form) :
    evalForms fuel scope last forms =
      Eval.inOrder (eval fuel) scope last (forms.map Form.element) := by
  induction forms generalizing last with
  | nil => rfl
  | cons form others ih => simp only [evalForms, List.map_cons, Eval.inOrder, ih]

/-- Evaluates every form in a scope. -/
def evalEach [Host H] (fuel : Nat) (scope : ScopeId) :
    List Form → Environment H → List (Except Halt (Value H)) × Environment H
  | [], env => ([], env)
  | form :: others, env =>
    let (result, env) := (eval fuel form.element scope).apply env
    let (results, env) := evalEach fuel scope others env
    (result :: results, env)

/-- Runs a text up to its first fault. -/
def run [Host H] (fuel : Nat) (source : String) (text : List Char) (env : Environment H) :
    Except Failure (Value H) × Environment H :=
  match parse source text env with
  | (.error error, env) => (.error (.parse error), env)
  | (.ok forms, env) =>
    let (result, env) := (evalForms fuel .root .nil forms).apply env
    (result.mapError .ofHalt, env)

/-- Runs every form of a text, and gives one result for each. -/
def runEach [Host H] (fuel : Nat) (source : String) (text : List Char) (env : Environment H) :
    Except ParseError (List (Except Halt (Value H))) × Environment H :=
  match parse source text env with
  | (.error error, env) => (.error error, env)
  | (.ok forms, env) =>
    let (results, env) := evalEach fuel .root forms env
    (.ok results, env)

/-- The source name of a text that is run by itself. -/
def anonymousSource : String := "<src>"

/-- Runs a text in a session of its own that knows the catalog. -/
def runAlone [Host H] (fuel owner : Nat) (text : List Char) : Except Failure (Value H) :=
  (run fuel anonymousSource text (.full owner)).1

end BracketLisp.Session
