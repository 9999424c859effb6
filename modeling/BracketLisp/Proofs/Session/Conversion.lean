import BracketLisp.Proofs.Environment.Catalog
import BracketLisp.Proofs.Eval.ArithmeticKinds
import BracketLisp.Proofs.Form.Call
import BracketLisp.Proofs.Form.Source
import BracketLisp.Proofs.Session.Sequencing
import BracketLisp.Proofs.Text.Blank

/-!
# `BracketLisp.Proofs.Session.Conversion`: numbers in strings and in source

A number can come from a bare token of a program or, by `int` and `float`, from the content
of a string. The scanner and the parser lead to the one, and the literal that is decoded and
trimmed to the other. Both read the same spellings as the same numbers.

* `catalog_names` finds that every name of the catalog is read as a symbol, and `knows_full`
  that a new session knows its entry by this symbol.
* `apply_eval_operation` evaluates a call of an operation with one argument, and
  `run_operation` runs a text that is one.
* `run_sequence`, `run_toInt`, `run_toFloat` and `run_toInt_concat` are the programs that are
  compared, and `conversion_agrees_with_source` compares them.
-/

set_option autoImplicit false

namespace BracketLisp

open Text Parse

variable {H : Type}

/-! ### Names of the catalog -/

/-- Characters that a symbol can have are a bare token unless they begin with a quote. -/
theorem isBare_of_symbolChars {name : List Char} (hne : name ≠ []) (hquote : name.head? ≠ some '"')
    (hchars : name.all isSymbolChar = true) : IsBare name :=
  ⟨hne, hquote, fun c hc => (isSymbolChar_iff c).1 (List.all_eq_true.1 hchars c hc)⟩

/-- Every name of the catalog is a bare token and no number. -/
theorem catalog_names {name : String} {entry : Builtin} (h : (name, entry) ∈ catalog) :
    IsBare name.toList ∧ Numeral.integer? name.toList = none ∧
      Numeral.float? name.toList = none := by
  have hall : ∀ pair ∈ catalog, (pair.1.toList ≠ [] ∧ pair.1.toList.head? ≠ some '"' ∧
      pair.1.toList.all isSymbolChar = true) ∧
      (Numeral.integer? pair.1.toList).isNone = true ∧
        (Numeral.float? pair.1.toList).isNone = true := by
    decide
  obtain ⟨⟨hne, hquote, hchars⟩, hint, hfloat⟩ := hall _ h
  exact ⟨isBare_of_symbolChars hne hquote hchars, Option.isNone_iff_eq_none.1 hint,
    Option.isNone_iff_eq_none.1 hfloat⟩

/-- Whether a name is read as a symbol that is bound to an entry of the catalog. -/
def Environment.Knows (env : Environment H) (name : String) (entry : Builtin) : Prop :=
  '\n' ∉ name.toList ∧ ∃ (id : SymbolId) (native : Native H),
    Reads name.toList env.symbols (.symbol id) env.symbols ∧
      env.get? .root id = some (.native native) ∧ native.action = .catalog entry

/-- A new session knows the catalog. -/
theorem knows_full (owner : Nat) {name : String} {entry : Builtin} (h : (name, entry) ∈ catalog) :
    (.full owner : Environment H).Knows name entry := by
  have hfeed : ∀ pair ∈ catalog, '\n' ∉ pair.1.toList := by decide
  obtain ⟨native, ⟨id, hlookup, hget⟩, haction⟩ := Environment.offers_full (H := H) owner h
  obtain ⟨hbare, hint, hfloat⟩ := catalog_names h
  refine ⟨hfeed _ h, id, native, reads_bare hbare fun place => ?_, hget, haction⟩
  rw [classify, hint, hfloat, SymbolTable.intern_of_lookup_eq_some hlookup]

/-! ### Calls with one argument -/

/-- Doing one element is evaluating it. -/
theorem apply_inOrder_single (evaluate : Evaluator H) (scope : ScopeId) (last : Value H)
    (element : Element) (env : Environment H) :
    (Eval.inOrder evaluate scope last [element]).apply env =
      (evaluate element scope).apply env := by
  rw [Eval.inOrder, Eval.apply_bind]
  rcases (evaluate element scope).apply env with ⟨halt | value, after⟩ <;> rfl

section Calls

variable [Host H]

/-- A call of an operation with one argument gives what the operation gives for its value. -/
theorem apply_eval_operation (fuel : Nat) {operation : Operation} {id : SymbolId}
    {place span : Position} {argument : Element} {env : Environment H} {native : Native H}
    (hnative : env.get? .root id = some (.native native))
    (haction : native.action = .catalog (.operation operation)) {value : Value H}
    (hvalue : (eval (fuel + 1) argument .root).apply env = (.ok value, env))
    {outcome : Except EvalError (Value H)}
    (hgives : operation.Gives [⟨value, argument.span⟩] outcome) :
    (eval (fuel + 2) (.list .paren [.symbol id place, argument] span) .root).apply env =
      (outcome.mapError .fault, env) := by
  let call : Call := ⟨.paren, .symbol id place, [argument], span⟩
  have hgets : operation.Gets (eval (fuel + 1)) call .root env [⟨value, argument.span⟩] env :=
    Operation.gets_of_get? hnative haction (.next hvalue (.done env)) rfl
  exact hgives (fuel + 1) _ call .root env env hgets rfl

/-- What is run of a text with a single form is this form. -/
theorem run_of_parse {fuel : Nat} {source : String} {text : List Char} {env : Environment H}
    {form : Form} {later : SymbolTable}
    (hparse : parse source text env.symbols = (.ok [form], later)) :
    (Session.run fuel source text env).1 =
      ((eval fuel form.element .root).apply { env with symbols := later }).1.mapError .ofHalt := by
  have hsession : Session.parse source text env = (.ok [form], { env with symbols := later }) := by
    rw [Session.parse, hparse]
  rw [Session.run, hsession]
  show ((Session.evalForms fuel .root .nil [form]).apply _).1.mapError _ = _
  rw [Session.evalForms_eq_inOrder, List.map_singleton, apply_inOrder_single]

/-- A symbol gives its value in the root, whatever other symbols there are. -/
theorem result_of_symbol (fuel : Nat) (id : SymbolId) (place : Position) (later : SymbolTable)
    (env : Environment H) :
    ((eval (fuel + 1) (.symbol id place) .root).apply
        { env with symbols := later }).1.mapError Session.Failure.ofHalt =
      match env.get? .root id with
      | some value => .ok value
      | none => .error (.eval ⟨.undefinedSymbol (later.label id), place⟩) := by
  have hsame : Environment.get? { env with symbols := later } .root id = env.get? .root id := rfl
  show ((Eval.lookup id place .root).apply { env with symbols := later }).1.mapError _ = _
  rw [Eval.apply_lookup, hsame]
  cases env.get? .root id <;> rfl

/-- The conversions to numbers compute their results from their operands. -/
theorem gives_toInt (operand : Located (Value H)) :
    Operation.toInt.Gives [operand] (toIntOf operand) := by
  have hadmits : Operation.toInt.arity.Admits [operand].length := rfl
  exact Operation.gives_of_decides hadmits (ArgumentFold.unary_decides toIntOf operand)

theorem gives_toFloat (operand : Located (Value H)) :
    Operation.toFloat.Gives [operand] (toFloatOf operand) := by
  have hadmits : Operation.toFloat.arity.Admits [operand].length := rfl
  exact Operation.gives_of_decides hadmits (ArgumentFold.unary_decides toFloatOf operand)

/-- The text of an integer is the integer in base ten. -/
theorem gives_concat_int (value : Int64) (place : Position) :
    Operation.concat.Gives [(⟨.int value, place⟩ : Located (Value H))]
      (.ok (.string (toString value.toInt))) := by
  have hgives := gives_concat (List.cons_ne_nil (⟨.int value, place⟩ : Located (Value H)) [])
  simpa [Value.text] using hgives

end Calls

/-! ### Programs -/

section Programs

variable [Host H] {env : Environment H} {argument : List Char} {element : Position → Element}
  {later : SymbolTable}

theorem not_mem_quoted (content : String) : '\n' ∉ (quoted content).toList := by
  simp [toList_quoted, Literal.not_mem_escape]

/-- A text that calls an operation gives what the operation gives for its argument. -/
theorem run_operation (fuel : Nat) (source : String) {name : String} {operation : Operation}
    (hknows : env.Knows name (.operation operation))
    (hargument : Reads argument env.symbols element later) (hfeed : '\n' ∉ argument)
    {value : Value H} (hvalue : ∀ place, (eval (fuel + 1) (element place) .root).apply
      { env with symbols := later } = (.ok value, { env with symbols := later }))
    {outcome : Except EvalError (Value H)} (hgives : operation.Gives
      [⟨value, (element ⟨source, 1, name.toList.length + 3⟩).span⟩] outcome) :
    (Session.run (fuel + 2) source (callText name argument) env).1 = outcome.mapError .eval := by
  obtain ⟨hname, id, native, hreads, hget, haction⟩ := hknows
  have hline : '\n' ∉ callText name argument := by simp [callText, hname, hfeed]
  have hlater : Environment.get? { env with symbols := later } .root id = some (.native native) :=
    hget
  rw [run_of_parse (parse_call hreads hargument hline source)]
  show ((eval (fuel + 2) (.list .paren [.symbol id _, _] _) .root).apply _).1.mapError _ = _
  rw [apply_eval_operation fuel hlater haction (hvalue _) hgives]
  cases outcome <;> rfl

/-- A text that does one thing gives its value. -/
theorem run_sequence (fuel : Nat) (source : String) (hknows : env.Knows "do" (.form .sequence))
    (hargument : Reads argument env.symbols element later) (hfeed : '\n' ∉ argument) :
    (Session.run (fuel + 1) source (callText "do" argument) env).1 =
      ((eval fuel (element ⟨source, 1, 5⟩) .root).apply
        { env with symbols := later }).1.mapError .ofHalt := by
  obtain ⟨hname, id, native, hreads, hget, haction⟩ := hknows
  have hline : '\n' ∉ callText "do" argument := by simp [callText, hfeed]
  have hlater : Environment.get? { env with symbols := later } .root id = some (.native native) :=
    hget
  rw [run_of_parse (parse_call hreads hargument hline source)]
  show ((eval (fuel + 1) (.list .paren [.symbol id _, _] _) .root).apply _).1.mapError _ = _
  rw [Session.apply_eval_sequence fuel hlater haction (List.cons_ne_nil _ _),
    apply_inOrder_single]
  rfl

/-- A text that converts a literal to an integer. -/
theorem run_toInt (fuel : Nat) (source : String) (hknows : env.Knows "int" (.operation .toInt))
    (content : String) :
    (Session.run (fuel + 2) source (callText "int" (quoted content).toList) env).1 =
      match Numeral.integer? (trim content.toList) with
      | some value => .ok (.int value)
      | none => .error (.eval ⟨.invalidNumber content, ⟨source, 1, 6⟩⟩) := by
  rw [run_operation fuel source hknows (reads_literal content env.symbols)
    (not_mem_quoted content) (fun _ => rfl) (gives_toInt _)]
  simp only [toIntOf, integerOf]
  cases Numeral.integer? (trim content.toList) <;> rfl

/-- A text that converts a literal to a float. -/
theorem run_toFloat (fuel : Nat) (source : String)
    (hknows : env.Knows "float" (.operation .toFloat)) (content : String) :
    (Session.run (fuel + 2) source (callText "float" (quoted content).toList) env).1 =
      match Numeral.integer? (trim content.toList), Numeral.float? (trim content.toList) with
      | some value, _ => .ok (.float (.ofInt value.toInt))
      | none, some value => .ok (.float value)
      | none, none =>
        .error (.eval ⟨.invalidNumber (String.ofList (trim content.toList)),
          ⟨source, 1, 8⟩⟩) := by
  rw [run_operation fuel source hknows (reads_literal content env.symbols)
    (not_mem_quoted content) (fun _ => rfl) (gives_toFloat _)]
  simp only [toFloatOf, floatOf]
  cases Numeral.integer? (trim content.toList) with
  | some value => rfl
  | none => cases Numeral.float? (trim content.toList) <;> rfl

/-- A written integer holds no white space. -/
theorem trim_toString (n : Int) : trim (toString n).toList = (toString n).toList := by
  have hchars : ∀ c ∈ (toString n).toList, isBlank c = false := by
    intro c hc
    rcases Numeral.minus_or_isDigit_of_mem hc with rfl | hdigit
    · rfl
    · obtain ⟨hleast, hgreatest⟩ := Char.isDigit_iff_toNat.1 hdigit
      have hbounds : 48 ≤ c.toNat ∧ c.toNat ≤ 57 := ⟨hleast, hgreatest⟩
      simp [isBlank, blankRanges]
      omega
  exact trim_eq_self (fun c hc => hchars c (List.mem_of_mem_head? hc))
    fun c hc => hchars c (List.mem_of_mem_getLast? hc)

/-- A text that converts the text of an integer back. -/
theorem run_toInt_concat (fuel : Nat) (source : String)
    (hint : env.Knows "int" (.operation .toInt)) (hstr : env.Knows "str" (.operation .concat))
    {value : Int64} (hargument : Reads argument env.symbols (.int value) env.symbols)
    (hfeed : '\n' ∉ argument) :
    (Session.run (fuel + 3) source (callText "int" (callText "str" argument)) env).1 =
      .ok (.int value) := by
  obtain ⟨-, id, native, hreads, hget, haction⟩ := hstr
  have hline : '\n' ∉ callText "str" argument := by simp [callText, hfeed]
  have hback (place : Position) :
      toIntOf (⟨.string (toString value.toInt), place⟩ : Located (Value H)) = .ok (.int value) := by
    rw [toIntOf, integerOf, trim_toString, Numeral.integer?_toString]
    rfl
  exact run_operation (fuel + 1) source hint (hreads.call hargument) hline
    (fun place => apply_eval_operation fuel hget haction rfl (gives_concat_int value _))
    (hback _ ▸ gives_toInt _)

end Programs

/-- Take characters that are a bare token, without white space at their ends. If they are an
integer numeral, then a program, `int` and `float` read the same integer from them, and `int`
reads it back from its text. If they are a float numeral, a program and `float` read the same
float, and `int` refuses them. Else a program looks them up, and both conversions refuse them.
White space around the content of any string changes no conversion that succeeds. -/
theorem conversion_agrees_with_source [Host H] (fuel owner : Nat) (source : String) {w : String}
    (hbare : IsBare w.toList) (hfeed : '\n' ∉ w.toList)
    (hfirst : ∀ c ∈ w.toList.head?, isBlank c = false)
    (hlast : ∀ c ∈ w.toList.getLast?, isBlank c = false) :
    let start : Environment H := .full owner
    let result (text : List Char) := (Session.run (fuel + 3) source text start).1
    let int (content : String) := result (callText "int" (quoted content).toList)
    let float (content : String) := result (callText "float" (quoted content).toList)
    (∀ i, Numeral.integer? w.toList = some i →
      result (callText "do" w.toList) = .ok (.int i) ∧ int w = .ok (.int i) ∧
        float w = .ok (.float (.ofInt i.toInt)) ∧
        result (callText "int" (callText "str" w.toList)) = .ok (.int i)) ∧
    (∀ x, Numeral.integer? w.toList = none → Numeral.float? w.toList = some x →
      result (callText "do" w.toList) = .ok (.float x) ∧ float w = .ok (.float x) ∧
        int w = .error (.eval ⟨.invalidNumber w, ⟨source, 1, 6⟩⟩)) ∧
    (Numeral.integer? w.toList = none → Numeral.float? w.toList = none →
      result (callText "do" w.toList) =
          (match start.get? .root (start.symbols.intern w).1 with
            | some value => .ok value
            | none => .error (.eval ⟨.undefinedSymbol w, ⟨source, 1, 5⟩⟩)) ∧
        int w = .error (.eval ⟨.invalidNumber w, ⟨source, 1, 6⟩⟩) ∧
        float w = .error (.eval ⟨.invalidNumber w, ⟨source, 1, 8⟩⟩)) ∧
    (∀ content front back : String, (∀ c ∈ front.toList, isBlank c = true) →
      (∀ c ∈ back.toList, isBlank c = true) → ∀ value,
        (int content = .ok value → int (front ++ content ++ back) = .ok value) ∧
          (float content = .ok value → float (front ++ content ++ back) = .ok value)) ∧
    ∀ i : Int64, result (callText "int" (callText "str" (toString i.toInt).toList)) =
      .ok (.int i) := by
  intro start result int float
  have hdo : start.Knows "do" (.form .sequence) := knows_full owner (by decide)
  have hint : start.Knows "int" (.operation .toInt) := knows_full owner (by decide)
  have hfloat : start.Knows "float" (.operation .toFloat) := knows_full owner (by decide)
  have hstr : start.Knows "str" (.operation .concat) := knows_full owner (by decide)
  -- Nothing else about the environment matters.
  clear_value start
  have htrim : trim w.toList = w.toList := trim_eq_self hfirst hlast
  have hresult {element : Position → Element} {later : SymbolTable}
      (hclassify : ∀ place, classify start.symbols w place = (element place, later)) :
      result (callText "do" w.toList) =
        ((eval (fuel + 2) (element ⟨source, 1, 5⟩) .root).apply
          { start with symbols := later }).1.mapError .ofHalt :=
    run_sequence (fuel + 2) source hdo (reads_bare hbare hclassify) hfeed
  have hconverted := run_toInt (fuel + 1) source hint
  have hwidened := run_toFloat (fuel + 1) source hfloat
  refine ⟨fun i hi => ?_, fun x hi hx => ?_, fun hi hx => ?_, ?_, fun i => ?_⟩
  · have hclassify (place : Position) :
        classify start.symbols w place = (.int i place, start.symbols) := by
      rw [classify, hi]
    refine ⟨hresult hclassify, (hconverted _).trans ?_, (hwidened _).trans ?_, ?_⟩
    · rw [htrim, hi]
    · rw [htrim, hi]
    · exact run_toInt_concat fuel source hint hstr (reads_bare hbare hclassify) hfeed
  · have hclassify (place : Position) :
        classify start.symbols w place = (.float x place, start.symbols) := by
      rw [classify, hi, hx]
    refine ⟨hresult hclassify, (hwidened _).trans ?_, (hconverted _).trans ?_⟩
    · rw [htrim, hi, hx]
    · rw [htrim, hi]
  · have hclassify (place : Position) : classify start.symbols w place =
        (.symbol (start.symbols.intern w).1 place, (start.symbols.intern w).2) := by
      rw [classify, hi, hx]
    refine ⟨(hresult hclassify).trans ?_, (hconverted _).trans ?_, (hwidened _).trans ?_⟩
    · rw [result_of_symbol (fuel + 1),
        SymbolTable.label_of_nameOf (start.symbols.nameOf_intern w)]
    · rw [htrim, hi]
    · rw [htrim, hi, hx, String.ofList_toList]
  · intro content front back hfront hback value
    have hsame : trim (front ++ content ++ back).toList = trim content.toList := by
      rw [String.toList_append, String.toList_append, trim_append hfront hback]
    refine ⟨fun hvalue => (hconverted _).trans ?_, fun hvalue => (hwidened _).trans ?_⟩
    · have hcontent := (hconverted content).symm.trans hvalue
      rw [hsame]
      cases hi : Numeral.integer? (trim content.toList) with
      | some i => simpa [hi] using hcontent
      | none => simp [hi] at hcontent
    · have hcontent := (hwidened content).symm.trans hvalue
      rw [hsame]
      exact hcontent
  · have hclassify (place : Position) :
        classify start.symbols (toString i.toInt) place = (.int i place, start.symbols) := by
      rw [classify, Numeral.integer?_toString]
    have hline : '\n' ∉ (toString i.toInt).toList := fun hmem => by
      rcases Numeral.minus_or_isDigit_of_mem hmem with h | h
      · cases h
      · exact absurd h (by decide)
    exact run_toInt_concat fuel source hint hstr (reads_bare (isBare_int i.toInt) hclassify) hline

/-- A binary numeral with a separator, in a program, in a string, and in a string with white space
around it. -/
theorem conversion_agrees_with_source_binary :
    ∃ result : List Char → Except Session.Failure (Value Empty),
      (∀ text, result text = (Session.run 3 "t" text (.full 0)).1) ∧
        result "(do 0b1_01)".toList = .ok (.int 5) ∧
        result "(int \"0b1_01\")".toList = .ok (.int 5) ∧
        result "(int \"\\n0b1_01\\t\")".toList = .ok (.int 5) ∧
        result "(int (str 0b1_01))".toList = .ok (.int 5) := by
  have hbare : IsBare "0b1_01".toList := isBare_of_symbolChars (by decide) (by decide) (by decide)
  have hfirst : ∀ c ∈ "0b1_01".toList.head?, isBlank c = false := by
    rintro c ⟨⟩
    decide
  have hlast : ∀ c ∈ "0b1_01".toList.getLast?, isBlank c = false := by
    rintro c ⟨⟩
    decide
  obtain ⟨hint, -, -, hblank, -⟩ := conversion_agrees_with_source (H := Empty) 0 0 "t" hbare
    (by decide) hfirst hlast
  obtain ⟨hread, hconverted, -, hback⟩ := hint 5 (by decide)
  have hfront : "\n".toList.all isBlank = true := by decide
  have hend : "\t".toList.all isBlank = true := by decide
  have hspaced := (hblank _ "\n" "\t" (List.all_eq_true.1 hfront) (List.all_eq_true.1 hend) _).1
    hconverted
  exact ⟨_, fun _ => rfl, hread, hconverted, hspaced, hback⟩

end BracketLisp
