import BracketLisp.Proofs.Session.History
import BracketLisp.Proofs.Simulation.Correspondence
import BracketLisp.Proofs.Token.Offset

/-!
# `BracketLisp.Proofs.Session.Provenance`: where errors come from

An error of an evaluation blames a node of the code. The code is what the session has
parsed itself: the text that it runs now, or an earlier one that made a function which is
called now. So every error leads back to a text that was given to the session.

* `ParsedNode` says that a node is one of a form which the session has parsed, and what
  that means for the node's place and name.
* `Sourced` is the invariant: all functions in the environment consist of such nodes. It is
  a correspondence of the session with itself. `Sourced.step` goes from one request to the
  next, and `Sourced.history_append` through all of them.
-/

set_option autoImplicit false

namespace BracketLisp

variable {H : Type} [Host H]

/-! ### Nodes that were parsed -/

/-- A token stands where its node does. -/
theorem Mark.For.span_eq {table : SymbolTable} {token : Located Token} {node : Element}
    (h : Mark.For table token node.mark) : token.span = node.span := by
  cases node <;> cases h <;> rfl

/-- The items of a text name its source. -/
theorem source_of_mem_scan {source : String} {text : List Char} {item : Item}
    (h : item ∈ scan source text) : item.start.source = source := by
  obtain ⟨_, _, _, _, -, rfl⟩ := exists_of_mem_scan h
  rfl

/-- A node of a form that a session, which started in `start`, has parsed in `env` from a
text that one of the requests was to run. -/
structure ParsedNode (start : Environment H) (requests : List (Request H)) (source : String)
    (text : List Char) (env : Environment H) (node : Element) : Prop where
  given : ∃ earlier mode later answers, requests = earlier ++ .run mode source text :: later ∧
    History start earlier answers env
  parsed : ∃ forms form, (Session.parse source text env).1 = .ok forms ∧ form ∈ forms ∧
    node ∈ form.element.nodes

namespace ParsedNode

variable {start env : Environment H} {requests : List (Request H)} {source : String}
  {text : List Char} {node : Element}

theorem append (h : ParsedNode start requests source text env node)
    (others : List (Request H)) : ParsedNode start (requests ++ others) source text env node where
  given := by
    obtain ⟨earlier, mode, later, answers, rfl, hhistory⟩ := h.given
    exact ⟨earlier, mode, later ++ others, answers, by simp, hhistory⟩
  parsed := h.parsed

/-- Every node comes from a token of the text. -/
theorem token (h : ParsedNode start requests source text env node) :
    ∃ token ∈ significant (scan source text),
      Mark.For (Session.parse source text env).2.symbols token node.mark := by
  obtain ⟨forms, form, hforms, hform, hnode⟩ := h.parsed
  exact token_of_node hforms hform hnode

/-- A node stands in the source of its text. -/
theorem source_eq (h : ParsedNode start requests source text env node) :
    node.span.source = source := by
  obtain ⟨token, htoken, hmark⟩ := h.token
  obtain ⟨item, hitem, hstart, -⟩ := item_of_token htoken
  rw [← hmark.span_eq, ← hstart]
  exact source_of_mem_scan hitem

/-- A symbol is written in the text, and its number has the name that is written there. -/
theorem name {id : SymbolId} {span : Position}
    (h : ParsedNode start requests source text env (.symbol id span)) :
    ∃ name, (Session.parse source text env).2.symbols.nameOf id = .ok name ∧
      ⟨.symbol name, span⟩ ∈ significant (scan source text) := by
  obtain ⟨token, htoken, hmark⟩ := h.token
  cases hmark with
  | symbol _ _ _ hname => exact ⟨_, hname, htoken⟩

end ParsedNode

/-- Relates a node to itself if the session has parsed it and its symbols are still those
of the table. -/
def KnownNode (start : Environment H) (requests : List (Request H)) (table : SymbolTable)
    (node node' : Element) : Prop :=
  node = node' ∧ ∃ source text env, ParsedNode start requests source text env node ∧
    (Session.parse source text env).2.symbols.names <+: table.names

namespace KnownNode

variable {start : Environment H} {requests : List (Request H)} {table later : SymbolTable}

theorem mono (htable : table.names <+: later.names) (others : List (Request H))
    (node node' : Element) (h : KnownNode start requests table node node') :
    KnownNode start (requests ++ others) later node node' := by
  obtain ⟨heq, source, text, env, hparsed, hnames⟩ := h
  exact ⟨heq, source, text, env, hparsed.append others, hnames.trans htable⟩

end KnownNode

/-! ### Sessions whose code was parsed -/

/-- The correspondence of a session with itself by the nodes that it has parsed. -/
abbrev provenance (start : Environment H) (requests : List (Request H))
    (env : Environment H) : Correspondence :=
  .itself (KnownNode start requests env.symbols) env.symbols env.owner env.natives

/-- What corresponds to itself does so with its own symbols, mark and count. -/
theorem corresponds_provenance {start env : Environment H} {requests : List (Request H)}
    {table : SymbolTable} {owner natives : Nat}
    (h : env.Corresponds (.itself (KnownNode start requests table) table owner natives) env) :
    env.Corresponds (provenance start requests env) env := by
  have hside := h.left
  obtain ⟨rfl, rfl, rfl, -⟩ := hside
  exact h

/-- A session after some requests, in which all functions consist of parsed nodes. -/
structure Sourced (start : Environment H) (requests : List (Request H))
    (answers : List (Answer H)) (env : Environment H) : Prop where
  history : History start requests answers env
  corresponds : env.Corresponds (provenance start requests env) env

namespace Sourced

variable {start env : Environment H} {requests : List (Request H)} {answers : List (Answer H)}

/-- A session that binds no function has only parsed nodes in its functions. -/
theorem start_of_data (hfree : start.HostFree)
    (hdata : start.AllBound fun _ value => value.kind ≠ .function) :
    Sourced start [] [] start where
  history := .nil start
  corresponds := Environment.corresponds_itself hfree
    (hdata.imp fun _ _ hkind _ hf => absurd (congrArg Value.kind hf) hkind)

/-- Symbols and natives may be added to a session. -/
theorem grow (h : Sourced start requests answers env) (request : Request H) {later : SymbolTable}
    (hlater : env.symbols.names <+: later.names) (natives : Nat) :
    Environment.Corresponds
      (.itself (KnownNode start (requests ++ [request]) later) later env.owner natives)
      { env with symbols := later, natives := natives }
      { env with symbols := later, natives := natives } :=
  h.corresponds.itself_mono (KnownNode.mono hlater [request]) later natives

/-- The nodes of a text that is run are parsed. -/
theorem parse (h : Sourced start requests answers env) (mode : Mode) (source : String)
    (text : List Char) :
    Agree (fun _ _ => True) (List.Forall₂ fun form form' : Form =>
      (provenance start (requests ++ [.run mode source text])
        (Session.parse source text env).2).Code form.element form'.element)
      (Session.parse source text env).1 (Session.parse source text env).1 := by
  cases hresult : (Session.parse source text env).1 with
  | error error => exact .error trivial
  | ok forms =>
    refine .ok (List.forall₂_same.2 fun form hform => ?_)
    refine Correspondence.code_itself form.element fun node hnode =>
      ⟨rfl, source, text, env, ?_, List.prefix_rfl⟩
    exact ⟨⟨requests, mode, [], answers, rfl, h.history⟩, forms, form, hresult, hform, hnode⟩

/-- A session answers a request from parsed code, and blames nothing else for an error. -/
theorem step (h : Sourced start requests answers env) {request : Request H}
    (hrequest : request.HostFree) {answer : Answer H} {after : Environment H}
    (hanswer : Answers request env answer after) :
    Sourced start (requests ++ [request]) (answers ++ [answer]) after ∧
      ∀ error ∈ answer.errors, ∃ node,
        KnownNode start (requests ++ [request]) after.symbols node node ∧
          node.span = error.span ∧ error.value.Fits after.symbols node := by
  have hhistory := h.history.snoc hanswer
  obtain ⟨hended, fuel, hfuel⟩ := hanswer
  cases request with
  | register name action =>
    obtain ⟨entry, rfl⟩ := hrequest
    obtain ⟨rfl, rfl⟩ := Prod.mk.inj hfuel
    have hgrown := h.grow (.register name (.catalog entry)) (env.symbols.prefix_intern name)
      (env.natives + 1)
    -- The new binding is a native, so there is no new code.
    let native : Native H := ⟨⟨env.owner, env.natives⟩, name, .catalog entry⟩
    have hafter := hgrown.set (@rfl _ (env.symbols.intern name).1) (v := .native native)
      (w := .native native) (.native entry rfl rfl rfl rfl) .root
    exact ⟨⟨hhistory, corresponds_provenance hafter⟩, List.forall_mem_nil _⟩
  | parse source text =>
    obtain ⟨rfl, rfl⟩ := Prod.mk.inj hfuel
    have hafter := h.grow (.parse source text) (prefix_parse source text env.symbols) env.natives
    exact ⟨⟨hhistory, hafter⟩, List.forall_mem_nil _⟩
  | run mode source text =>
    have hparsed := h.grow (.run mode source text) (prefix_parse source text env.symbols)
      env.natives
    obtain ⟨hsame, hafter⟩ := Coupling.answers (bridge_alike _ fuel .root) mode
      (h.parse mode source text) hparsed (.inl (by rwa [hfuel]))
    rw [hfuel] at hsame hafter
    have hsymbols : after.symbols = (Session.parse source text env).2.symbols := hafter.left.symbols
    refine ⟨⟨hhistory, corresponds_provenance hafter⟩, fun error herror => ?_⟩
    obtain ⟨_, -, node, node', ⟨hnode, -⟩, hspan, -, hfits⟩ := hsame.exists_of_mem_errors herror
    rw [hsymbols]
    obtain rfl := hnode.1
    exact ⟨node, hnode, hspan, hfits⟩

/-- Requests without a host keep the code parsed. -/
theorem history_append (h : Sourced start requests answers env) {others : List (Request H)}
    (hothers : ∀ request ∈ others, request.HostFree) {more : List (Answer H)}
    {after : Environment H} (hhistory : History env others more after) :
    Sourced start (requests ++ others) (answers ++ more) after := by
  induction hhistory generalizing requests answers with
  | nil env => simpa using h
  | cons first _ ih =>
    obtain ⟨hrequest, hlater⟩ := List.forall_mem_cons.1 hothers
    have hnext := (h.step hrequest first).1
    simpa using ih hnext hlater

end Sourced

/-- Every error of an evaluation comes from a text. Take a session that starts without a
host and without functions, and is asked to parse and to run texts, or to register entries
of the catalog. If an answer has an error, the error stands where a node of a form stands
which the session has parsed from a text with the name of that source, run by this request
or an earlier one. A symbol without a binding is blamed under its name, which its number
has and which is written in the text at that place, and an empty list is blamed where one
stands. -/
theorem errors_blame_parsed_nodes {start : Environment H} (hfree : start.HostFree)
    (hdata : start.AllBound fun _ value => value.kind ≠ .function)
    {requests : List (Request H)} (hrequests : ∀ request ∈ requests, request.HostFree)
    {answers : List (Answer H)} {before : Environment H}
    (hhistory : History start requests answers before)
    {request : Request H} (hrequest : request.HostFree) {answer : Answer H}
    {after : Environment H} (hanswer : Answers request before answer after)
    {error : EvalError} (herror : error ∈ answer.errors) :
    ∃ (source : String) (text : List Char) (env : Environment H) (node : Element),
      ParsedNode start (requests ++ [request]) source text env node ∧
        node.span = error.span ∧ error.span.source = source ∧
        (∀ name, error.value = .undefinedSymbol name →
          ∃ id, node = .symbol id error.span ∧ after.symbols.nameOf id = .ok name ∧
            ⟨.symbol name, error.span⟩ ∈ significant (scan source text)) ∧
        (error.value = .emptyList → ∃ bracket, node = .list bracket [] error.span) := by
  have hsourced := (Sourced.start_of_data hfree hdata).history_append hrequests hhistory
  obtain ⟨node, ⟨-, source, text, env, hparsed, hnames⟩, hspan, hfits⟩ :=
    (hsourced.step hrequest hanswer).2 error herror
  refine ⟨source, text, env, node, hparsed, hspan, hspan ▸ hparsed.source_eq, ?_, ?_⟩
  · intro name hvalue
    rw [hvalue] at hfits
    obtain ⟨id, span, rfl, hlabel⟩ := hfits
    obtain ⟨written, hwritten, htoken⟩ := hparsed.name
    -- The number has kept the name that is written in the text.
    have hname := SymbolTable.nameOf_of_names hnames hwritten
    obtain rfl : written = name := (SymbolTable.label_of_nameOf hname).symm.trans hlabel
    obtain rfl : span = error.span := hspan
    exact ⟨id, rfl, hname, htoken⟩
  · intro hvalue
    rw [hvalue] at hfits
    obtain ⟨bracket, span, rfl⟩ := hfits
    obtain rfl : span = error.span := hspan
    exact ⟨bracket, rfl⟩

open Environment (full hostFree_full no_function_full) in
/-- The function `f` of the first text calls `g`, which is not bound. The error of the
second text, which calls `f`, stands where the first one names `g`. -/
theorem errors_blame_parsed_nodes_earlier :
    ∃ (requests : List (Request Empty)) (request : Request Empty) (answers : List (Answer Empty))
      (before after : Environment Empty) (answer : Answer Empty) (text : List Char)
      (env : Environment Empty) (id : SymbolId),
      (full 0 : Environment Empty).HostFree ∧
        ((full 0 : Environment Empty).AllBound fun _ value => value.kind ≠ .function) ∧
        (∀ request ∈ requests, request.HostFree) ∧ History (full 0) requests answers before ∧
        request = .run .whole "b" "(f 1)".toList ∧ request.HostFree ∧
        Answers request before answer after ∧
        ⟨.undefinedSymbol "g", ⟨"a", 1, 19⟩⟩ ∈ answer.errors ∧
        ParsedNode (full 0) (requests ++ [request]) "a" text env (.symbol id ⟨"a", 1, 19⟩) ∧
        after.symbols.nameOf id = .ok "g" ∧
        ⟨.symbol "g", ⟨"a", 1, 19⟩⟩ ∈ significant (scan "a" text) := by
  let requests : List (Request Empty) := [.run .whole "a" "(set f (func (x) (g x)))".toList]
  let request : Request Empty := .run .whole "b" "(f 1)".toList
  have hrequests : ∀ request ∈ requests, request.HostFree := List.forall_mem_singleton.2 trivial
  have hrequest : request.HostFree := trivial
  let before : Environment Empty := (Session.answerAll 10 requests (full 0)).2
  have hhistory : History (full 0) requests _ before := .of_answerAll 10 (by decide +kernel)
  have hanswer : Answers request before (Session.answer 10 request before).1 _ :=
    ⟨by decide +kernel, 10, rfl⟩
  have herror : ⟨.undefinedSymbol "g", ⟨"a", 1, 19⟩⟩ ∈
      (Session.answer 10 request before).1.errors := by
    decide +kernel
  obtain ⟨source, text, env, node, hparsed, -, rfl, hname, -⟩ := errors_blame_parsed_nodes
    (hostFree_full 0) (no_function_full 0) hrequests hhistory hrequest hanswer herror
  obtain ⟨id, rfl, hid, htoken⟩ := hname "g" rfl
  exact ⟨requests, request, _, _, _, _, text, env, id, hostFree_full 0, no_function_full 0,
    hrequests, hhistory, rfl, hrequest, hanswer, herror, hparsed, hid, htoken⟩

end BracketLisp
