import BracketLisp.Proofs.Eval.Fuel
import BracketLisp.Session

/-!
# `BracketLisp.Proofs.Session.History`: what a session is asked and answers

A `Request` is one thing that a session can be asked to do, and `Session.answer` does it.
`Answers` leaves out the fuel: a request has an answer if some amount of fuel is enough for
it. A `History` is a row of requests with their answers, from one environment to another.

* `Answer.Corresponds` relates the answers of two runs. `Coupling.answers` derives it from
  a bridge between the evaluations, for both ways to run a text, and `Answers.transfer`
  leaves out the fuel.
* `Answers.unique` and `History.unique` say that a session without a host has at most one
  answer to each request.
-/

set_option autoImplicit false

namespace BracketLisp

variable {H : Type}

/-! ### Requests and answers -/

/-- The two ways to run a text. -/
inductive Mode where
  /-- Up to the first fault. -/
  | whole
  /-- Every form by itself. -/
  | each

/-- What a session can be asked to do. -/
inductive Request (H : Type) where
  | parse (source : String) (text : List Char)
  | run (mode : Mode) (source : String) (text : List Char)
  | register (name : String) (action : Action H)

/-- What comes of a request. -/
inductive Answer (H : Type) where
  | parsed (result : Except ParseError (List Form))
  | ran (result : Except Session.Failure (Value H))
  | ranEach (result : Except ParseError (List (Except Halt (Value H))))
  | registered

/-- Whether a text is to be run. -/
def Request.isRun : Request H → Bool
  | run _ _ _ => true
  | _ => false

/-- Whether a request brings nothing of the host: what it registers has to be an entry of
the catalog. -/
def Request.HostFree : Request H → Prop
  | register _ action => ∃ entry, action = .catalog entry
  | _ => True

/-- Whether a text was run. -/
def Answer.isRun : Answer H → Bool
  | ran _ | ranEach _ => true
  | _ => false

/-- Does what is asked. -/
def Session.answer [Host H] (fuel : Nat) (request : Request H) (env : Environment H) :
    Answer H × Environment H :=
  match request with
  | .parse source text => (parse source text env).map .parsed id
  | .run .whole source text => (run fuel source text env).map .ran id
  | .run .each source text => (runEach fuel source text env).map .ranEach id
  | .register name action => (.registered, (env.register name action).2)

/-- Whether the fuel was enough for an answer. -/
def Answer.Ended : Answer H → Prop
  | ran result => result ≠ .error .outOfFuel
  | ranEach (.ok results) => ∀ result ∈ results, result ≠ .error .outOfFuel
  | _ => True

/-- A result can be checked for a lack of fuel without comparing values. -/
instance {α : Type} (result : Except Halt α) : Decidable (result = .error .outOfFuel) :=
  match result with
  | .ok _ | .error (.fault _) => isFalse nofun
  | .error .outOfFuel => isTrue rfl

instance {α : Type} (result : Except Session.Failure α) :
    Decidable (result = .error .outOfFuel) :=
  match result with
  | .ok _ | .error (.parse _) | .error (.eval _) => isFalse nofun
  | .error .outOfFuel => isTrue rfl

instance (answer : Answer H) : Decidable answer.Ended :=
  match answer with
  | .ran result => inferInstanceAs (Decidable (result ≠ .error .outOfFuel))
  | .ranEach (.ok results) =>
    inferInstanceAs (Decidable (∀ result ∈ results, result ≠ .error .outOfFuel))
  | .ranEach (.error _) | .parsed _ | .registered => isTrue trivial

/-- The request is answered with `answer`, which leaves `after`. -/
def Answers [Host H] (request : Request H) (before : Environment H) (answer : Answer H)
    (after : Environment H) : Prop :=
  answer.Ended ∧ ∃ fuel, Session.answer fuel request before = (answer, after)

/-- Requests and their answers, one after the other, in one session. -/
inductive History [Host H] :
    Environment H → List (Request H) → List (Answer H) → Environment H → Prop where
  | nil (env : Environment H) : History env [] [] env
  | cons {request : Request H} {answer : Answer H} {requests : List (Request H)}
      {answers : List (Answer H)} {before middle after : Environment H}
      (first : Answers request before answer middle)
      (others : History middle requests answers after) :
      History before (request :: requests) (answer :: answers) after

/-- A history goes on with one more request. -/
theorem History.snoc [Host H] {request : Request H} {answer : Answer H}
    {requests : List (Request H)} {answers : List (Answer H)} {before middle after : Environment H}
    (h : History before requests answers middle) (last : Answers request middle answer after) :
    History before (requests ++ [request]) (answers ++ [answer]) after := by
  induction h with
  | nil env => exact .cons last (.nil after)
  | cons first _ ih => exact .cons first (ih last)

/-- Does what is asked, one request after the other, with the same fuel for each. -/
def Session.answerAll [Host H] (fuel : Nat) :
    List (Request H) → Environment H → List (Answer H) × Environment H
  | [], env => ([], env)
  | request :: others, env =>
    let (answer, env) := answer fuel request env
    let (answers, env) := answerAll fuel others env
    (answer :: answers, env)

/-- If the fuel was enough for all answers, they are a history. -/
theorem History.of_answerAll [Host H] (fuel : Nat) {requests : List (Request H)}
    {env : Environment H}
    (hended : ∀ answer ∈ (Session.answerAll fuel requests env).1, answer.Ended) :
    History env requests (Session.answerAll fuel requests env).1
      (Session.answerAll fuel requests env).2 := by
  induction requests generalizing env with
  | nil => exact .nil env
  | cons request others ih =>
    obtain ⟨hfirst, hothers⟩ := List.forall_mem_cons.1 hended
    exact .cons ⟨hfirst, fuel, rfl⟩ (ih hothers)

/-! ### Answers that correspond -/

/-- Values of the same kind with the same text, which is all that a session shows of
them. -/
def Value.SameLook (v w : Value H) : Prop :=
  v.kind = w.kind ∧ v.text = w.text

theorem Value.Like.sameLook {like : Likeness} {v w : Value H} (h : v.Like like w) :
    v.SameLook w :=
  ⟨h.kind_eq, h.text_eq⟩

/-- Halts with related errors. -/
inductive Halt.Corresponds (E : EvalError → EvalError → Prop) : Halt → Halt → Prop where
  | fault {e e' : EvalError} (h : E e e') : Corresponds E (.fault e) (.fault e')

/-- Failures of one kind with related errors. -/
inductive Session.Failure.Corresponds (P : ParseError → ParseError → Prop)
    (E : EvalError → EvalError → Prop) : Session.Failure → Session.Failure → Prop where
  | parse {e e' : ParseError} (h : P e e') : Corresponds P E (.parse e) (.parse e')
  | eval {e e' : EvalError} (h : E e e') : Corresponds P E (.eval e) (.eval e')

/-- Answers of one way to run a text, with related errors and values. -/
inductive Answer.Corresponds (P : ParseError → ParseError → Prop)
    (E : EvalError → EvalError → Prop) (V : Value H → Value H → Prop) :
    Answer H → Answer H → Prop where
  | ran {result result' : Except Session.Failure (Value H)}
      (h : Agree (Session.Failure.Corresponds P E) V result result') :
      Corresponds P E V (.ran result) (.ran result')
  | ranEach {result result' : Except ParseError (List (Except Halt (Value H)))}
      (h : Agree P (List.Forall₂ (Agree (Halt.Corresponds E) V)) result result') :
      Corresponds P E V (.ranEach result) (.ranEach result')

/-- A halt for lack of fuel is still one when it counts as a failure. -/
theorem ne_outOfFuel_of_mapError {α : Type} {result : Except Halt α}
    (h : result.mapError Session.Failure.ofHalt ≠ .error .outOfFuel) :
    result ≠ .error .outOfFuel := by
  rintro rfl
  exact h rfl

/-- Results that agree as halts do so as failures. -/
theorem Agree.mapError_ofHalt {α β : Type} {R : α → β → Prop} {P : ParseError → ParseError → Prop}
    {E : EvalError → EvalError → Prop} {x : Except Halt α} {y : Except Halt β}
    (h : Agree (Halt.Corresponds E) R x y) :
    Agree (Session.Failure.Corresponds P E) R (x.mapError .ofHalt) (y.mapError .ofHalt) := by
  cases h with
  | ok h => exact .ok h
  | error herror =>
    cases herror with
    | fault h => exact .error (.eval h)

namespace Answer.Corresponds

variable {P P' : ParseError → ParseError → Prop} {E E' : EvalError → EvalError → Prop}
  {V V' : Value H → Value H → Prop} {answer answer' : Answer H}

theorem imp (h : answer.Corresponds P E V answer') (hparse : ∀ e e', P e e' → P' e e')
    (heval : ∀ e e', E e e' → E' e e') (hvalue : ∀ v w, V v w → V' v w) :
    answer.Corresponds P' E' V' answer' := by
  cases h with
  | ran h =>
    refine .ran (h.imp ?_ hvalue)
    rintro _ _ (herror | herror)
    · exact .parse (hparse _ _ herror)
    · exact .eval (heval _ _ herror)
  | ranEach h =>
    refine .ranEach (h.imp hparse fun _ _ hresults => hresults.imp fun _ _ hresult => ?_)
    refine hresult.imp ?_ hvalue
    rintro _ _ ⟨herror⟩
    exact .fault (heval _ _ herror)

/-- Only runs are compared. -/
theorem isRun_right (h : answer.Corresponds P E V answer') : answer'.isRun = true := by
  cases h <;> rfl

/-- Answers that correspond have both ended. -/
theorem ended (h : answer.Corresponds P E V answer') : answer.Ended ∧ answer'.Ended := by
  cases h with
  | ran h =>
    cases h with
    | ok _ => exact ⟨nofun, nofun⟩
    | error herror => cases herror <;> exact ⟨nofun, nofun⟩
  | ranEach h =>
    cases h with
    | error _ => exact ⟨trivial, trivial⟩
    | ok hresults =>
      induction hresults with
      | nil => exact ⟨List.forall_mem_nil _, List.forall_mem_nil _⟩
      | cons hfirst _ ih =>
        cases hfirst with
        | ok _ => exact ⟨List.forall_mem_cons.2 ⟨nofun, ih.1⟩, List.forall_mem_cons.2 ⟨nofun, ih.2⟩⟩
        | error herror =>
          cases herror
          exact ⟨List.forall_mem_cons.2 ⟨nofun, ih.1⟩, List.forall_mem_cons.2 ⟨nofun, ih.2⟩⟩

end Answer.Corresponds

/-- A member of one list is related to one of the other. -/
theorem exists_of_forall₂ {α β : Type} {R : α → β → Prop} {as : List α} {bs : List β}
    (h : List.Forall₂ R as bs) {a : α} (ha : a ∈ as) : ∃ b ∈ bs, R a b := by
  induction h with
  | nil => cases ha
  | cons hab _ ih =>
    rcases List.mem_cons.1 ha with rfl | hothers
    · exact ⟨_, List.mem_cons_self .., hab⟩
    · obtain ⟨b, hb, hrelated⟩ := ih hothers
      exact ⟨b, List.mem_cons_of_mem _ hb, hrelated⟩

/-- The error that an evaluation ended with, if it did. -/
def error? {α : Type} : Except Halt α → Option EvalError
  | .error (.fault error) => some error
  | _ => none

/-- The errors of evaluations in an answer. -/
def Answer.errors : Answer H → List EvalError
  | ran (.error (.eval error)) => [error]
  | ranEach (.ok results) => results.filterMap error?
  | _ => []

/-- To every error of an answer corresponds one of the other answer. -/
theorem Answer.Corresponds.exists_of_mem_errors {P : ParseError → ParseError → Prop}
    {E : EvalError → EvalError → Prop} {V : Value H → Value H → Prop} {answer answer' : Answer H}
    (h : answer.Corresponds P E V answer') {error : EvalError} (herror : error ∈ answer.errors) :
    ∃ error', E error error' := by
  cases h with
  | ran h =>
    cases h with
    | ok _ => cases herror
    | error hfailure =>
      cases hfailure with
      | parse _ => cases herror
      | eval hsame => exact ⟨_, List.mem_singleton.1 herror ▸ hsame⟩
  | ranEach h =>
    cases h with
    | error _ => cases herror
    | ok hresults =>
      obtain ⟨result, hresult, hfault⟩ := List.mem_filterMap.1 herror
      -- The result with the error has one beside it that agrees with it.
      obtain ⟨result', -, hagree⟩ := exists_of_forall₂ hresults hresult
      cases hagree with
      | ok _ => cases hfault
      | error hhalt =>
        cases hhalt with
        | fault hsame => exact ⟨_, Option.some.inj hfault ▸ hsame⟩

/-! ### Two sessions that run a text -/

namespace Coupling

variable {κ : Coupling H}

/-- Outcomes agree if the fuel was enough in the first run, or in the second if both have
the same. -/
theorem Outcomes.agree {α β : Type} {R : α → β → Prop} {x : Except Halt α × Environment H}
    {y : Except Halt β × Environment H} (h : κ.Outcomes R x y)
    (hended : x.1 ≠ .error .outOfFuel ∨ κ.lockstep ∧ y.1 ≠ .error .outOfFuel) :
    Agree (Halt.Corresponds κ.like.errors) R x.1 y.1 ∧ κ.env x.2 y.2 := by
  cases h with
  | ok result after => exact ⟨.ok result, after⟩
  | fault error after => exact ⟨.error (.fault error), after⟩
  | outOfFuel hlock =>
    rcases hended with hended | ⟨hκ, hended⟩
    · exact absurd rfl hended
    · exact absurd (hlock hκ) hended

variable [Host H] {code : Element → Element → Prop} {fuel fuel' : Nat}

/-- Forms that are evaluated one by one have results that agree one by one. -/
theorem evalEach (hbridge : Bridge κ code (eval fuel) (eval fuel') .root .root)
    {forms forms' : List Form}
    (hforms : List.Forall₂ (fun form form' => code form.element form'.element) forms forms')
    {env env' : Environment H} (henv : κ.env env env')
    (hended : (∀ result ∈ (Session.evalEach fuel .root forms env).1, result ≠ .error .outOfFuel) ∨
      κ.lockstep ∧
        ∀ result ∈ (Session.evalEach fuel' .root forms' env').1, result ≠ .error .outOfFuel) :
    List.Forall₂ (Agree (Halt.Corresponds κ.like.errors) (Value.Like κ.like))
        (Session.evalEach fuel .root forms env).1 (Session.evalEach fuel' .root forms' env').1 ∧
      κ.env (Session.evalEach fuel .root forms env).2
        (Session.evalEach fuel' .root forms' env').2 := by
  induction hforms generalizing env env' with
  | nil => exact ⟨.nil, henv⟩
  | cons hform _ ih =>
    simp only [Session.evalEach, List.forall_mem_cons] at hended ⊢
    -- Only if the fuel was enough for the first form are the environments related after it.
    have hfirst := (hbridge.element hform henv).agree
      (hended.imp (fun h => h.1) fun h => ⟨h.1, h.2.1⟩)
    have hothers := ih hfirst.2 (hended.imp (fun h => h.2) fun h => ⟨h.1, h.2.2⟩)
    exact ⟨.cons hfirst.1 hothers.1, hothers.2⟩

/-- Two sessions that parse a text alike, and evaluate alike, answer alike. -/
theorem answers {P : ParseError → ParseError → Prop}
    (hbridge : Bridge κ code (eval fuel) (eval fuel') .root .root) (mode : Mode)
    {source source' : String} {text text' : List Char} {env env' : Environment H}
    (hparse : Agree P (List.Forall₂ fun form form' => code form.element form'.element)
      (Session.parse source text env).1 (Session.parse source' text' env').1)
    (henv : κ.env (Session.parse source text env).2 (Session.parse source' text' env').2)
    (hended : (Session.answer fuel (.run mode source text) env).1.Ended ∨
      κ.lockstep ∧ (Session.answer fuel' (.run mode source' text') env').1.Ended) :
    (Session.answer fuel (.run mode source text) env).1.Corresponds P κ.like.errors
        (Value.Like κ.like) (Session.answer fuel' (.run mode source' text') env').1 ∧
      κ.env (Session.answer fuel (.run mode source text) env).2
        (Session.answer fuel' (.run mode source' text') env').2 := by
  cases mode with
  | whole =>
    simp only [Session.answer, Session.run, Session.evalForms_eq_inOrder, Prod.map] at hended ⊢
    generalize Session.parse source text env = parsed at hparse henv hended ⊢
    generalize Session.parse source' text' env' = parsed' at hparse henv hended ⊢
    obtain ⟨result, before⟩ := parsed
    obtain ⟨result', before'⟩ := parsed'
    cases hparse with
    | error herror => exact ⟨.ran (.error (.parse herror)), henv⟩
    | ok hforms =>
      have helements := List.forall₂_map_left_iff.2 (List.forall₂_map_right_iff.2 hforms)
      have hall := hbridge.inOrder helements .nil henv
      obtain ⟨hresult, hafter⟩ := hall.agree (hended.imp ne_outOfFuel_of_mapError fun h =>
        ⟨h.1, ne_outOfFuel_of_mapError h.2⟩)
      exact ⟨.ran hresult.mapError_ofHalt, hafter⟩
  | each =>
    simp only [Session.answer, Session.runEach, Prod.map] at hended ⊢
    generalize Session.parse source text env = parsed at hparse henv hended ⊢
    generalize Session.parse source' text' env' = parsed' at hparse henv hended ⊢
    obtain ⟨result, before⟩ := parsed
    obtain ⟨result', before'⟩ := parsed'
    cases hparse with
    | error herror => exact ⟨.ranEach (.error herror), henv⟩
    | ok hforms =>
      obtain ⟨hresults, hafter⟩ := evalEach hbridge hforms henv hended
      exact ⟨.ranEach (.ok hresults), hafter⟩

end Coupling

/-- Requests with answers that correspond whenever the fuel was enough for one of them are
both answered, so that the answers correspond, or none of them is. -/
theorem Answers.transfer [Host H] {request request' : Request H} {env env' : Environment H}
    {P : ParseError → ParseError → Prop} {E : EvalError → EvalError → Prop}
    {V : Value H → Value H → Prop} {S : Environment H → Environment H → Prop}
    (hsame : ∀ fuel, (Session.answer fuel request env).1.Ended ∨
        (Session.answer fuel request' env').1.Ended →
      (Session.answer fuel request env).1.Corresponds P E V
          (Session.answer fuel request' env').1 ∧
        S (Session.answer fuel request env).2 (Session.answer fuel request' env').2) :
    (∀ answer after, Answers request env answer after → ∃ answer' after',
      Answers request' env' answer' after' ∧ answer.Corresponds P E V answer' ∧ S after after') ∧
    ∀ answer' after', Answers request' env' answer' after' → ∃ answer after,
      Answers request env answer after ∧ answer.Corresponds P E V answer' ∧ S after after' := by
  constructor
  · rintro answer after ⟨hended, fuel, hfuel⟩
    obtain ⟨hanswer, hafter⟩ := hsame fuel (.inl (by rwa [hfuel]))
    rw [hfuel] at hanswer hafter
    exact ⟨_, _, ⟨hanswer.ended.2, fuel, rfl⟩, hanswer, hafter⟩
  · rintro answer' after' ⟨hended, fuel, hfuel⟩
    obtain ⟨hanswer, hafter⟩ := hsame fuel (.inr (by rwa [hfuel]))
    rw [hfuel] at hanswer hafter
    exact ⟨_, _, ⟨hanswer.ended.1, fuel, rfl⟩, hanswer, hafter⟩

/-! ### Answers are determined -/

/-- Parsing binds nothing. -/
theorem Environment.AllBound.parse {P : SymbolId → Value H → Prop} {env : Environment H}
    (h : env.AllBound P) (source : String) (text : List Char) :
    (Session.parse source text env).2.AllBound P :=
  h.of_scope_eq fun scope => by cases scope <;> rfl

theorem Agree.eq {ε α : Type} {R : α → α → Prop} {x y : Except ε α} (h : Agree Eq R x y)
    (hresult : ∀ a b, R a b → a = b) : x = y := by
  cases h with
  | ok h => exact congrArg _ (hresult _ _ h)
  | error h => exact congrArg _ h

/-- Answers that may not differ are the same. -/
theorem Answer.Corresponds.eq {answer answer' : Answer H}
    (h : answer.Corresponds Eq Eq (Value.Like .exact) answer') : answer = answer' := by
  have hvalue (v w : Value H) (h : v.Like .exact w) : v = w := (Value.like_exact_iff.1 h).1
  cases h with
  | ran h =>
    refine congrArg _ (Agree.eq (h.imp ?_ hvalue) fun _ _ => id)
    rintro _ _ (rfl | rfl) <;> rfl
  | ranEach h =>
    refine congrArg _ (Agree.eq h fun results results' hresults => ?_)
    refine List.forall₂_eq_eq_eq ▸ hresults.imp fun _ _ hresult => ?_
    refine Agree.eq (hresult.imp ?_ hvalue) fun _ _ => id
    rintro _ _ ⟨rfl⟩
    rfl

section

variable [Host H] {request : Request H} {before after after' : Environment H}
  {answer answer' : Answer H}

/-- A text that is run beside itself with more fuel gets the same answer. -/
theorem Session.answer_run_of_le {fuel fuel' : Nat} (hle : fuel ≤ fuel') (hfree : before.HostFree)
    {mode : Mode} {source : String} {text : List Char}
    (hended : (Session.answer fuel (.run mode source text) before).1.Ended) :
    Session.answer fuel (.run mode source text) before =
        Session.answer fuel' (.run mode source text) before ∧
      (Session.answer fuel (.run mode source text) before).2.HostFree := by
  have hparse : Agree Eq (List.Forall₂ fun form form' : Form =>
      form.element = form'.element ∧ True) (Session.parse source text before).1
      (Session.parse source text before).1 := by
    cases (Session.parse source text before).1 with
    | ok forms => exact .ok (List.forall₂_same.2 fun _ _ => ⟨rfl, trivial⟩)
    | error error => exact .error rfl
  obtain ⟨hanswer, henv, hafter, -⟩ := Coupling.answers (Bridge.fuel (sim_eval hle) .root) mode
    hparse ⟨rfl, hfree.allBound.parse source text, trivial⟩ (.inl hended)
  exact ⟨Prod.ext hanswer.eq henv, hafter⟩

/-- Without a host, a request has at most one answer. -/
theorem Answers.unique (hfree : before.HostFree) (h : Answers request before answer after)
    (h' : Answers request before answer' after') : answer = answer' ∧ after = after' := by
  obtain ⟨hended, fuel, hfuel⟩ := h
  obtain ⟨hended', fuel', hfuel'⟩ := h'
  suffices heq : Session.answer fuel request before = Session.answer fuel' request before by
    rw [hfuel, hfuel'] at heq
    exact Prod.mk.inj heq
  cases request with
  | parse source text => rfl
  | register name action => rfl
  | run mode source text =>
    rcases Nat.le_total fuel fuel' with hle | hle
    · exact (Session.answer_run_of_le hle hfree (by rwa [hfuel])).1
    · exact (Session.answer_run_of_le hle hfree (by rwa [hfuel'])).1.symm

/-- A request without a host leaves an environment without one. -/
theorem Answers.hostFree (hfree : before.HostFree) (hrequest : request.HostFree)
    (h : Answers request before answer after) : after.HostFree := by
  obtain ⟨hended, fuel, hfuel⟩ := h
  obtain rfl : (Session.answer fuel request before).2 = after := congrArg Prod.snd hfuel
  cases request with
  | parse source text => exact hfree.allBound.parse source text
  | register name action =>
    obtain ⟨entry, rfl⟩ := hrequest
    exact hfree.register name entry
  | run mode source text =>
    exact (Session.answer_run_of_le (Nat.le_refl fuel) hfree (by rwa [hfuel])).2

/-- Requests without a host leave an environment without one. -/
theorem History.hostFree {requests : List (Request H)} {answers : List (Answer H)}
    (hfree : before.HostFree) (hrequests : ∀ request ∈ requests, request.HostFree)
    (h : History before requests answers after) : after.HostFree := by
  induction h with
  | nil env => exact hfree
  | cons first _ ih =>
    obtain ⟨hfirst, hothers⟩ := List.forall_mem_cons.1 hrequests
    exact ih (first.hostFree hfree hfirst) hothers

/-- Without a host, requests have at most one row of answers. -/
theorem History.unique {requests : List (Request H)} {answers answers' : List (Answer H)}
    (hfree : before.HostFree) (hrequests : ∀ request ∈ requests, request.HostFree)
    (h : History before requests answers after) (h' : History before requests answers' after') :
    answers = answers' ∧ after = after' := by
  induction h generalizing answers' with
  | nil env =>
    cases h'
    exact ⟨rfl, rfl⟩
  | cons first _ ih =>
    cases h' with
    | cons first' others' =>
      obtain ⟨hfirst, hothers⟩ := List.forall_mem_cons.1 hrequests
      obtain ⟨rfl, rfl⟩ := first.unique hfree first'
      obtain ⟨rfl, rfl⟩ := ih (first.hostFree hfree hfirst) hothers others'
      exact ⟨rfl, rfl⟩

end

end BracketLisp
