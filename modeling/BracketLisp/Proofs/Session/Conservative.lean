import BracketLisp.Probe
import BracketLisp.Proofs.Session.History
import BracketLisp.Proofs.Simulation.Correspondence

/-!
# `BracketLisp.Proofs.Session.Conservative`: what a program does not name

A session may know more than its programs name: symbols of texts that were only parsed, or
did not even parse, and natives under names that no program mentions. None of this shows in
what the programs do, although the symbols of a program may get other numbers for it.

Two sessions run the same texts, and the second is asked for more in between.
`Environment.Parallel` relates them: names correspond, as far as they are `known`, which
the names of the additional natives are not. `Parallel.extra` says that a parse and a
registration in the second session keep this, and `Parallel.run` that a run in both does.
`unused_names_unobservable` concludes that all runs are answered alike.
-/

set_option autoImplicit false

namespace BracketLisp

variable {H : Type}

/-! ### Symbols by their names -/

namespace SymbolTable

/-- By their names, numbers of two tables correspond one to one. -/
theorem SameName.distinct {known : String → Prop} {table table' : SymbolTable}
    {a a' b b' : SymbolId} (ha : SameName known table table' a a')
    (hb : SameName known table table' b b') : a = b ↔ a' = b' := by
  obtain ⟨name, -, hname, hname'⟩ := ha
  obtain ⟨other, -, hother, hother'⟩ := hb
  constructor
  · rintro rfl
    cases hname.symm.trans hother
    exact nameOf_inj hname' hother'
  · rintro rfl
    cases hname'.symm.trans hother'
    exact nameOf_inj hname hother

theorem SameName.label {known : String → Prop} {table table' : SymbolTable} {id id' : SymbolId}
    (h : SameName known table table' id id') : table.label id = table'.label id' := by
  obtain ⟨name, -, hname, hname'⟩ := h
  rw [label_of_nameOf hname, label_of_nameOf hname']

end SymbolTable

open SymbolTable (SameName)

/-- Two sessions in which symbols correspond by their names, as far as these are known, and
identities by the time at which they were made. The second session binds a known name only
if the first one has it too. -/
def Correspondence.byName (known : String → Prop) (table table' : SymbolTable)
    (owner owner' natives natives' : Nat) : Correspondence where
  nodes := Element.NodeLike Eq (SameName known table table')
  ids := SameName known table table'
  identities a b := a.owner = owner ∧ b.owner = owner' ∧ a.serial = b.serial
  left := ⟨table, owner, natives, fun id => ∃ name, table.nameOf id = .ok name⟩
  right := ⟨table', owner', natives', fun id =>
    ∃ name, table'.nameOf id = .ok name ∧ (known name → name ∈ table.names)⟩
  symbol h := h.2 _ _ rfl rfl
  distinct := SameName.distinct
  label := SameName.label
  mayBind := by
    rintro id id' ⟨name, _, hname, hname'⟩
    exact ⟨⟨name, hname⟩, name, hname', fun _ => SymbolTable.mem_names_iff.2 ⟨id, hname⟩⟩
  made _ := ⟨rfl, rfl, rfl⟩
  faithful := by
    rintro ⟨_, a⟩ ⟨_, a'⟩ ⟨_, b⟩ ⟨_, b'⟩ ⟨rfl, rfl, ha⟩ ⟨rfl, rfl, hb⟩
    simp only [Identity.mk.injEq, true_and]
    rw [show a = a' from ha, show b = b' from hb]

/-- Values stay alike when the tables grow. -/
theorem Value.Like.byName_mono {known : String → Prop} {table table' later later' : SymbolTable}
    {owner owner' natives natives' count count' : Nat} {v w : Value H}
    (h : v.Like
      (Correspondence.byName known table table' owner owner' natives natives').like w)
    (hleft : table.names <+: later.names) (hright : table'.names <+: later'.names) :
    v.Like (Correspondence.byName known later later' owner owner' count count').like w := by
  refine Correspondence.like_mono h ?_ ?_ ?_
  · exact fun id id' hid => SameName.mono hid hleft hright
  · intro e e' hnode
    exact ⟨hnode.1, fun id id' hid hid' => SameName.mono (hnode.2 id id' hid hid') hleft hright⟩
  · exact fun a b hidentity => hidentity

/-! ### Sessions beside each other -/

namespace Environment

/-- The correspondence by names between two environments. -/
abbrev byName (known : String → Prop) (env env' : Environment H) : Correspondence :=
  .byName known env.symbols env'.symbols env.owner env'.owner env.natives env'.natives

/-- Two sessions that correspond by the names which are known. The second one has all the
names of the first, and the first one has no host. -/
structure Parallel (known : String → Prop) (env env' : Environment H) : Prop where
  corresponds : env.Corresponds (byName known env env') env'
  names : env.symbols.names ⊆ env'.symbols.names
  free : env.HostFree

/-- Sessions correspond by any correspondence of their own symbols, marks and counts. -/
theorem Corresponds.byName {known : String → Prop} {table table' : SymbolTable}
    {owner owner' natives natives' : Nat} {env env' : Environment H}
    (h : env.Corresponds (.byName known table table' owner owner' natives natives') env') :
    env.Corresponds (env.byName known env') env' := by
  have hleft := h.left
  have hright := h.right
  obtain ⟨rfl, rfl, rfl, -⟩ := hleft
  obtain ⟨rfl, rfl, rfl, -⟩ := hright
  exact h

namespace Parallel

variable {known : String → Prop} {env env' : Environment H}

/-- A known name that is new to the first session is bound in neither. -/
theorem unbound_of_new (h : env.Parallel known env') {name : String} (hknown : known name)
    (hnew : name ∉ env.symbols.names) {table table' : SymbolTable}
    (hleft : env.symbols.names <+: table.names) (hright : env'.symbols.names <+: table'.names)
    {id id' : SymbolId} (hname : table.nameOf id = .ok name) (hname' : table'.nameOf id' = .ok name)
    (scope : ScopeId) :
    (env.scope scope).get? id = none ∧ (env'.scope scope).get? id' = none := by
  constructor
  · rw [Option.eq_none_iff_forall_ne_some]
    intro value hget
    obtain ⟨other, hother⟩ := h.corresponds.left.bound scope id value hget
    cases hname.symm.trans (SymbolTable.nameOf_of_names hleft hother)
    exact hnew (SymbolTable.mem_names_iff.2 ⟨id, hother⟩)
  · rw [Option.eq_none_iff_forall_ne_some]
    intro value hget
    obtain ⟨other, hother, hmem⟩ := h.corresponds.right.bound scope id' value hget
    cases hname'.symm.trans (SymbolTable.nameOf_of_names hright hother)
    exact hnew (hmem hknown)

/-- The tables of both sessions may grow, as long as the second one has all names. The
counts of natives do not matter. -/
theorem grow (h : env.Parallel known env') {table table' : SymbolTable}
    (hleft : env.symbols.names <+: table.names) (hright : env'.symbols.names <+: table'.names)
    (hnames : table.names ⊆ table'.names) (natives natives' : Nat) :
    Parallel known { env with symbols := table, natives := natives }
      { env' with symbols := table', natives := natives' } where
  names := hnames
  free := h.free.allBound.of_scope_eq (env.scope_with table natives)
  corresponds := {
    functions := h.corresponds.functions
    size := h.corresponds.size
    left := by
      refine ⟨rfl, rfl, rfl, AllBound.of_scope_eq ?_ (env.scope_with table natives)⟩
      intro scope id value hget
      obtain ⟨name, hname⟩ := h.corresponds.left.bound scope id value hget
      exact ⟨name, SymbolTable.nameOf_of_names hleft hname⟩
    right := by
      refine ⟨rfl, rfl, rfl, AllBound.of_scope_eq ?_ (env'.scope_with table' natives')⟩
      intro scope id value hget
      obtain ⟨name, hname, hmem⟩ := h.corresponds.right.bound scope id value hget
      exact ⟨name, SymbolTable.nameOf_of_names hright hname, fun hknown =>
        hleft.subset (hmem hknown)⟩
    scopes := by
      rintro scope id id' ⟨name, hknown, hname, hname'⟩
      rw [env.scope_with table natives, env'.scope_with table' natives']
      by_cases hold : name ∈ env.symbols.names
      · -- An old name has the numbers that it had.
        obtain ⟨old, hold⟩ := SymbolTable.mem_names_iff.1 hold
        obtain rfl := SymbolTable.nameOf_inj (SymbolTable.nameOf_of_names hleft hold) hname
        obtain ⟨old', hold'⟩ := SymbolTable.mem_names_iff.1
          (h.names (SymbolTable.mem_names_iff.2 ⟨_, hold⟩))
        obtain rfl := SymbolTable.nameOf_inj (SymbolTable.nameOf_of_names hright hold') hname'
        exact optionRel_imp (h.corresponds.scopes scope ⟨name, hknown, hold, hold'⟩)
          fun _ _ _ hvalue => hvalue.byName_mono hleft hright
      · obtain ⟨hnone, hnone'⟩ := h.unbound_of_new hknown hold hleft hright hname hname' scope
        rw [hnone, hnone']
        exact .none }

/-- A name may be bound to like values in both sessions. -/
theorem set (h : env.Parallel known env') {id id' : SymbolId}
    (hid : SameName known env.symbols env'.symbols id id') {v w : Value H} (hfree : v.HostFree)
    (hvalue : v.Like (byName known env env').like w) (target : ScopeId) :
    (env.set target id v).Parallel known (env'.set target id' w) where
  corresponds := (h.corresponds.set hid hvalue target).byName
  names := by
    rw [symbols_set, symbols_set]
    exact h.names
  free := h.free.set hfree target id

/-- The second session may bind a name that is not known. -/
theorem set_right (h : env.Parallel known env') {id' : SymbolId} {name : String}
    (hname : env'.symbols.nameOf id' = .ok name) (hunknown : ¬known name) (w : Value H) :
    env.Parallel known (env'.set .root id' w) where
  names := by
    rw [symbols_set]
    exact h.names
  free := h.free
  corresponds := {
    left := h.corresponds.left
    right := h.corresponds.right.set ⟨name, hname, fun hknown => absurd hknown hunknown⟩ .root w
    functions := by
      rw [functions_set]
      exact h.corresponds.functions
    size := by
      rw [size_locals_set]
      exact h.corresponds.size
    scopes := by
      intro scope id other hid
      have hget := h.corresponds.scopes scope hid
      -- A symbol that corresponds to another one has a known name, so it is not bound here.
      have hne : other ≠ id' := by
        rintro rfl
        obtain ⟨_, hknown, -, hother⟩ := hid
        cases hname.symm.trans hother
        exact hunknown hknown
      rcases env'.scope_set_cases .root scope id' w with hscope | ⟨-, hscope⟩
      · rwa [hscope]
      · rwa [hscope, Dictionary.get?_set, if_neg hne] }

/-- A known name may be defined in both sessions. -/
theorem define (h : env.Parallel known env') {name : String} (hknown : known name)
    {v w : Value H} (hfree : v.HostFree) (hvalue : v.Like (byName known env env').like w) :
    (env.define name v).2.Parallel known (env'.define name w).2 := by
  have hgrown := h.grow (env.symbols.prefix_intern name) (env'.symbols.prefix_intern name)
    (SymbolTable.names_intern_subset h.names) env.natives env'.natives
  exact hgrown.set ⟨name, hknown, SymbolTable.nameOf_intern .., SymbolTable.nameOf_intern ..⟩
    hfree (hvalue.byName_mono (env.symbols.prefix_intern name) (env'.symbols.prefix_intern name))
    .root

/-- The second session may register a native under a name that is not known. -/
theorem register_right (h : env.Parallel known env') {name : String} (hunknown : ¬known name)
    (action : Action H) : env.Parallel known (env'.register name action).2 := by
  have hgrown := h.grow List.prefix_rfl (env'.symbols.prefix_intern name)
    (List.Subset.trans h.names (env'.symbols.prefix_intern name).subset) env.natives
    (env'.natives + 1)
  exact hgrown.set_right (SymbolTable.nameOf_intern ..) hunknown _

/-- The second session may parse any text. -/
theorem parse_right (h : env.Parallel known env') (source : String) (text : List Char) :
    env.Parallel known (Session.parse source text env').2 :=
  h.grow List.prefix_rfl (prefix_parse source text env'.symbols)
    (List.Subset.trans h.names (prefix_parse source text env'.symbols).subset) env.natives
    env'.natives

/-- A text with known names is read alike in both sessions. -/
theorem parse (h : env.Parallel known env') {source : String} {text : List Char}
    (hknown : ∀ item ∈ scan source text, ∀ name, item.reading = .ok (.symbol name) → known name) :
    Agree Eq (List.Forall₂ fun form form' => (byName known (Session.parse source text env).2
        (Session.parse source text env').2).Code form.element form'.element)
        (Session.parse source text env).1 (Session.parse source text env').1 ∧
      (Session.parse source text env).2.Parallel known (Session.parse source text env').2 := by
  have hstart : (Parse.start env.symbols).Beside Eq known
      (fun table table' => table.names ⊆ table'.names) (Parse.start env'.symbols) :=
    ⟨h.names, .nil, .nil⟩
  have hitems : List.Forall₂ (Parse.ItemLike Eq known Eq) (scan source text)
      (scan source text) :=
    List.forall₂_same.2 fun item hitem => ⟨rfl, .of_eq rfl, hknown item hitem⟩
  have hstop : (⟨.unclosedList, endOf source text⟩ : ParseError) =
      ⟨.unclosedList, endOf source text⟩ := rfl
  obtain ⟨hnames, hresult⟩ := hstart.run (fun _ _ _ hspan => congrArg _ hspan)
    (fun _ _ _ _ hsub => SymbolTable.names_intern_subset hsub) hstop hitems
  exact ⟨hresult, h.grow (prefix_parse source text env.symbols)
    (prefix_parse source text env'.symbols) hnames env.natives env'.natives⟩

/-- Runs of a text with known names are answered alike, and end both or none. -/
theorem run [Host H] (h : env.Parallel known env') {source : String} {text : List Char}
    (hknown : ∀ item ∈ scan source text, ∀ name, item.reading = .ok (.symbol name) → known name)
    (mode : Mode) {fuel : Nat}
    (hended : (Session.answer fuel (.run mode source text) env).1.Ended ∨
      (Session.answer fuel (.run mode source text) env').1.Ended) :
    (Session.answer fuel (.run mode source text) env).1.Corresponds Eq Eq Value.SameLook
        (Session.answer fuel (.run mode source text) env').1 ∧
      (Session.answer fuel (.run mode source text) env).2.Parallel known
        (Session.answer fuel (.run mode source text) env').2 := by
  obtain ⟨hparse, hparsed⟩ := h.parse hknown
  obtain ⟨hanswer, hafter⟩ := Coupling.answers (bridge_alike _ fuel .root) mode hparse
    hparsed.corresponds (hended.imp_right fun hright => ⟨trivial, hright⟩)
  refine ⟨hanswer.imp (fun _ _ => id) ?_ fun _ _ => Value.Like.sameLook, hafter.byName, ?_, ?_⟩
  · -- Both blame the same node, so they blame it at the same place.
    rintro ⟨fault, span⟩ ⟨fault', span'⟩ ⟨rfl, node, node', hnode, rfl, rfl, -⟩
    exact congrArg _ hnode.1
  · rw [hafter.left.symbols, hafter.right.symbols]
    exact hparsed.names
  · exact (Session.answer_run_of_le (Nat.le_refl fuel) h.free hanswer.ended.1).2

end Parallel

/-! ### New sessions -/

theorem parallel_bare (known : String → Prop) (owner owner' : Nat) :
    (bare owner : Environment H).Parallel known (bare owner') where
  corresponds := {
    left := ⟨rfl, rfl, rfl, allBound_bare _ owner⟩
    right := ⟨rfl, rfl, rfl, allBound_bare _ owner'⟩
    functions := rfl
    size := rfl
    scopes := by
      intro scope id id' _
      cases scope <;> exact .none }
  names := List.Subset.refl _
  free := hostFree_bare owner

/-- Two sessions beside each other that take up the catalog. All names are known, and
natives are made at the same time in both. -/
structure Started (env env' : Environment H) : Prop where
  parallel : env.Parallel (fun _ => True) env'
  natives : env.natives = env'.natives

theorem Started.define {env env' : Environment H} (h : Started env env') (name : String)
    {value : Value H} (hfree : value.HostFree) (hlike : ∀ like, value.Like like value) :
    Started (env.define name value).2 (env'.define name value).2 where
  parallel := h.parallel.define trivial hfree (hlike _)
  natives := by simpa [Environment.define, intern] using h.natives

theorem Started.register {env env' : Environment H} (h : Started env env') (name : String)
    (entry : Builtin) :
    Started (env.register name (.catalog entry)).2 (env'.register name (.catalog entry)).2 where
  parallel := by
    have hcounted := h.parallel.grow List.prefix_rfl List.prefix_rfl h.parallel.names
      (env.natives + 1) (env'.natives + 1)
    exact hcounted.define trivial ⟨entry, rfl⟩ (.native entry ⟨rfl, rfl, h.natives⟩ rfl rfl rfl)
  natives := by simpa [Environment.register, Environment.define, intern] using h.natives

/-- While sessions bind no function, fewer names may be known. -/
theorem Parallel.weaken {known known' : String → Prop} {env env' : Environment H}
    (h : env.Parallel known env') (hless : ∀ name, known' name → known name)
    (hdata : env.AllBound fun _ value => value.kind ≠ .function) :
    env.Parallel known' env' where
  names := h.names
  free := h.free
  corresponds := {
    functions := h.corresponds.functions
    size := h.corresponds.size
    left := ⟨rfl, rfl, rfl, h.corresponds.left.bound⟩
    right := by
      refine ⟨rfl, rfl, rfl, fun scope id value hget => ?_⟩
      obtain ⟨name, hname, hmem⟩ := h.corresponds.right.bound scope id value hget
      exact ⟨name, hname, fun hknown => hmem (hless name hknown)⟩
    scopes := by
      rintro scope id id' ⟨name, hknown, hname, hname'⟩
      have hget := h.corresponds.scopes scope ⟨name, hless name hknown, hname, hname'⟩
      refine optionRel_imp hget fun value _ hfound hvalue => ?_
      have hkind := hdata scope id value hfound
      -- Only the code of functions is compared by what is known.
      cases hvalue with
      | nil => exact .nil
      | bool value => exact .bool value
      | int value => exact .int value
      | float value => exact .float value
      | string content => exact .string content
      | function => exact absurd rfl hkind
      | native entry identity name left right =>
        exact .native entry identity name left right }

/-- The constants have nothing of a host, and are like themselves. -/
theorem constant_like {pair : String × Value H} (h : pair ∈ constants) :
    pair.2.HostFree ∧ ∀ like, pair.2.Like like pair.2 := by
  simp only [constants, List.mem_cons, List.not_mem_nil, or_false] at h
  rcases h with rfl | rfl | rfl
  · exact ⟨trivial, fun _ => .bool true⟩
  · exact ⟨trivial, fun _ => .bool false⟩
  · exact ⟨trivial, fun _ => .nil⟩

theorem started_full (owner owner' : Nat) :
    Started (full owner : Environment H) (full owner') := by
  unfold full withCatalog
  refine List.foldl_rel (List.foldl_rel ⟨parallel_bare _ owner owner', rfl⟩ ?_) ?_
  · intro pair hpair env env' henv
    obtain ⟨hfree, hlike⟩ := constant_like hpair
    exact henv.define pair.1 hfree hlike
  · intro entry _ env env' henv
    exact henv.register entry.1 entry.2

/-- Two new sessions are beside each other, whatever is known. -/
theorem parallel_full (known : String → Prop) (owner owner' : Nat) :
    (full owner : Environment H).Parallel known (full owner') :=
  (started_full owner owner').parallel.weaken (fun _ _ => trivial) (no_function_full owner)

end Environment

/-! ### Histories beside each other -/

/-- Whether a text has only known names, and a native is registered under one that is not
known. -/
def Request.KeepsTo (known : String → Prop) : Request H → Prop
  | .parse _ _ => True
  | .run _ source text =>
    ∀ item ∈ scan source text, ∀ name, item.reading = .ok (.symbol name) → known name
  | .register name _ => ¬known name

namespace Environment.Parallel

variable [Host H] {known : String → Prop} {env env' : Environment H}

/-- Anything but a run may be asked of the second session alone. -/
theorem extra (h : env.Parallel known env') {request : Request H}
    (hrequest : request.KeepsTo known) (hrun : request.isRun = false) :
    (∃ answer after, Answers request env' answer after) ∧
      ∀ answer after, Answers request env' answer after →
        answer.isRun = false ∧ env.Parallel known after := by
  cases request with
  | run mode source text => cases hrun
  | parse source text =>
    refine ⟨⟨.parsed (Session.parse source text env').1, _, trivial, 0, rfl⟩, ?_⟩
    rintro answer after ⟨-, fuel, hfuel⟩
    obtain ⟨rfl, rfl⟩ := Prod.mk.inj hfuel
    exact ⟨rfl, h.parse_right source text⟩
  | register name action =>
    refine ⟨⟨.registered, _, trivial, 0, rfl⟩, ?_⟩
    rintro answer after ⟨-, fuel, hfuel⟩
    obtain ⟨rfl, rfl⟩ := Prod.mk.inj hfuel
    exact ⟨rfl, h.register_right hrequest action⟩

/-- A run ends in both sessions, with the same answer, or in neither. -/
theorem answers (h : env.Parallel known env') {mode : Mode} {source : String} {text : List Char}
    (hrequest : (Request.run mode source text : Request H).KeepsTo known) :
    (∀ answer after, Answers (.run mode source text) env answer after → ∃ answer' after',
      Answers (.run mode source text) env' answer' after' ∧
        answer.Corresponds Eq Eq Value.SameLook answer' ∧ after.Parallel known after') ∧
    ∀ answer' after', Answers (.run mode source text) env' answer' after' → ∃ answer after,
      Answers (.run mode source text) env answer after ∧
        answer.Corresponds Eq Eq Value.SameLook answer' ∧ after.Parallel known after' :=
  Answers.transfer fun _ hended => h.run hrequest mode hended

/-- What the first session does, the second one does too, whatever it is asked in between. -/
theorem history (h : env.Parallel known env') {requests : List (Request H)}
    (hrequests : ∀ request ∈ requests, request.KeepsTo known) {answers : List (Answer H)}
    {after : Environment H} (hhistory : History env (requests.filter Request.isRun) answers after) :
    ∃ answers' after', History env' requests answers' after' := by
  induction requests generalizing env env' answers after with
  | nil => exact ⟨[], env', .nil env'⟩
  | cons request others ih =>
    obtain ⟨hrequest, hothers⟩ := List.forall_mem_cons.1 hrequests
    cases hrun : request.isRun with
    | false =>
      obtain ⟨⟨answer, middle, hanswer⟩, hkept⟩ := h.extra hrequest hrun
      rw [List.filter_cons_of_neg (by simp [hrun])] at hhistory
      obtain ⟨answers', after', hhistory'⟩ := ih (hkept _ _ hanswer).2 hothers hhistory
      exact ⟨_, _, .cons hanswer hhistory'⟩
    | true =>
      rw [List.filter_cons_of_pos hrun] at hhistory
      cases request with
      | parse source text => cases hrun
      | register name action => cases hrun
      | run mode source text =>
        cases hhistory with
        | cons first rest =>
          obtain ⟨answer', middle', hanswer', -, hmiddle⟩ := (h.answers hrequest).1 _ _ first
          obtain ⟨answers', after', hhistory'⟩ := ih hmiddle hothers rest
          exact ⟨_, _, .cons hanswer' hhistory'⟩

/-- What the second session does, the first one does too, as far as it is asked. -/
theorem history_left (h : env.Parallel known env') {requests : List (Request H)}
    (hrequests : ∀ request ∈ requests, request.KeepsTo known) {answers' : List (Answer H)}
    {after' : Environment H} (hhistory : History env' requests answers' after') :
    ∃ answers after, History env (requests.filter Request.isRun) answers after ∧
      List.Forall₂ (Answer.Corresponds Eq Eq Value.SameLook) answers
        (answers'.filter Answer.isRun) := by
  induction hhistory generalizing env with
  | nil env' => exact ⟨[], env, .nil env, .nil⟩
  | @cons request answer' requests answers' env' middle' after' first _ ih =>
    obtain ⟨hrequest, hothers⟩ := List.forall_mem_cons.1 hrequests
    cases hrun : request.isRun with
    | false =>
      obtain ⟨hanswer, hmiddle⟩ := (h.extra hrequest hrun).2 _ _ first
      obtain ⟨answers, after, hhistory, hsame⟩ := ih hmiddle hothers
      rw [List.filter_cons_of_neg (by simp [hrun]), List.filter_cons_of_neg (by simp [hanswer])]
      exact ⟨answers, after, hhistory, hsame⟩
    | true =>
      cases request with
      | parse source text => cases hrun
      | register name action => cases hrun
      | run mode source text =>
        obtain ⟨answer, middle, hanswer, hcorresponds, hmiddle⟩ := (h.answers hrequest).2 _ _ first
        obtain ⟨answers, after, hhistory, hsame⟩ := ih hmiddle hothers
        rw [List.filter_cons_of_pos hrun, List.filter_cons_of_pos hcorresponds.isRun_right]
        exact ⟨_, _, .cons hanswer hhistory, .cons hcorresponds hsame⟩

end Environment.Parallel

/-- Numbers and unused names cannot be observed. One new session runs texts, and another one
is asked the same and between its runs anything else: to parse texts, whether they are forms
or not, and to register natives under names that are no token of a text that is run. Then
up to any request, the runs end in both sessions or in neither, and if all of them end, they
have the same answers: values of the same kind with the same text, or the same error at the
same place. -/
theorem unused_names_unobservable [Host H] (owner owner' : Nat) {requests : List (Request H)}
    (hunused : ∀ name action mode source text, .register name action ∈ requests →
      .run mode source text ∈ requests →
      ∀ item ∈ scan source text, item.reading ≠ .ok (.symbol name)) :
    (∀ earlier, earlier <+: requests →
      ((∃ answers after, History (.full owner) (earlier.filter Request.isRun) answers after) ↔
        ∃ answers after, History (.full owner') earlier answers after)) ∧
    ∀ answers after answers' after',
      History (.full owner) (requests.filter Request.isRun) answers after →
      History (.full owner') requests answers' after' →
      List.Forall₂ (Answer.Corresponds Eq Eq Value.SameLook) answers
        (answers'.filter Answer.isRun) := by
  let known (name : String) : Prop := ∀ action, .register name action ∉ requests
  have hrequests : ∀ request ∈ requests, request.KeepsTo known := by
    intro request hrequest
    cases request with
    | parse source text => trivial
    | run mode source text =>
      intro item hitem name hreading action hregister
      exact hunused name action mode source text hregister hrequest item hitem hreading
    | register name action => exact fun hknown => hknown action hrequest
  have hparallel := Environment.parallel_full (H := H) known owner owner'
  refine ⟨fun earlier hearlier => ⟨?_, ?_⟩, ?_⟩
  · rintro ⟨answers, after, hhistory⟩
    exact hparallel.history (fun request hmem => hrequests request (hearlier.subset hmem)) hhistory
  · rintro ⟨answers', after', hhistory'⟩
    obtain ⟨answers, after, hhistory, -⟩ := hparallel.history_left
      (fun request hmem => hrequests request (hearlier.subset hmem)) hhistory'
    exact ⟨answers, after, hhistory⟩
  · intro answers after answers' after' hhistory hhistory'
    obtain ⟨others, final, hothers, hsame⟩ := hparallel.history_left hrequests hhistory'
    -- The first session has no host, so it has no other answers.
    have hfree : ∀ request ∈ requests.filter Request.isRun, request.HostFree := by
      intro request hrequest
      have hrun := (List.mem_filter.1 hrequest).2
      cases request with
      | register name action => cases hrun
      | parse source text => cases hrun
      | run mode source text => trivial
    obtain ⟨rfl, rfl⟩ := History.unique hparallel.free hfree hothers hhistory
    exact hsame

/-- A text with an unclosed list and a native that no program mentions leave no trace,
although `x` has another number after them. -/
theorem unused_names_unobservable_bar :
    ∃ (requests : List (Request Probe)) (answers answers' : List (Answer Probe))
      (after after' : Environment Probe),
      (∀ name action mode source text, .register name action ∈ requests →
        .run mode source text ∈ requests →
        ∀ item ∈ scan source text, item.reading ≠ .ok (.symbol name)) ∧
      History (.full 0) (requests.filter Request.isRun) answers after ∧
      History (.full 1) requests answers' after' ∧
      after.symbols.lookup "x" = some ⟨29⟩ ∧ after'.symbols.lookup "x" = some ⟨30⟩ ∧
      List.Forall₂ (Answer.Corresponds Eq Eq Value.SameLook) answers
        (answers'.filter Answer.isRun) := by
  let setting := "(set x (func (y) (+ y 2)))".toList
  let calling := "(x 1) (foo)".toList
  let requests : List (Request Probe) :=
    [.parse "a" "(foo [".toList, .run .whole "b" setting, .register "bar" (.host (.constant 5)),
      .run .each "c" calling]
  have hunused : ∀ name action mode source text, .register name action ∈ requests →
      .run mode source text ∈ requests →
      ∀ item ∈ scan source text, item.reading ≠ .ok (.symbol name) := by
    intro name action mode source text hregister hrun
    simp only [requests, List.mem_cons, List.not_mem_nil, reduceCtorEq, or_false, false_or,
      Request.register.injEq, Request.run.injEq] at hregister hrun
    obtain ⟨rfl, rfl⟩ := hregister
    rcases hrun with ⟨rfl, rfl, rfl⟩ | ⟨rfl, rfl, rfl⟩
    · decide +kernel
    · decide +kernel
  have h : History (.full 0) (requests.filter Request.isRun) _ _ :=
    .of_answerAll 10 (by decide +kernel)
  have h' : History (.full 1) requests _ _ := .of_answerAll 10 (by decide +kernel)
  exact ⟨requests, _, _, _, _, hunused, h, h', by decide +kernel, by decide +kernel,
    (unused_names_unobservable 0 1 hunused).2 _ _ _ _ h h'⟩

end BracketLisp
