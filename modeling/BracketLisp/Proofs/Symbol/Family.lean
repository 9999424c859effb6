import BracketLisp.Proofs.Symbol.Table
import Mathlib.Data.List.Induction

/-!
# `BracketLisp.Proofs.Symbol.Family`: tables and their copies

A `Family` is a row of tables that grows: a table is created empty or as a copy of another
one, and from then on each is asked by itself. A table is an `Interner` here, of which nothing
is taken for granted. That its two sides are inverse to each other is preserved by each request
(`agrees_answer`), and so it holds at every moment (`agrees_run`).

What the tables have to know is said without them. `Interned` reads off the requests alone
which names have been interned in a table, or in the one that it was copied from before that.
`mem_names_after_iff` finds just these names in the table, by induction on the requests, and
`getElem?_run` and `answersOf_run` find that a table changes and answers as if it were the
only one. `names_correspond` puts this together with what holds of any one table.

Numbers have no bound here.
-/

set_option autoImplicit false

namespace BracketLisp

/-! ### One table -/

/-- What a table can be asked. -/
inductive TableRequest where
  | intern (name : String)
  | lookup (name : String)
  | nameOf (id : SymbolId)

/-- What a table answers. -/
inductive TableAnswer where
  | interned (id : SymbolId)
  | found (id? : Option SymbolId)
  | named (result : Except UnknownSymbol String)

namespace Interner

/-- Answers what is asked. -/
def answer (table : Interner) : TableRequest → TableAnswer × Interner
  | .intern name => (.interned (table.intern name).1, (table.intern name).2)
  | .lookup name => (.found (table.lookup name), table)
  | .nameOf id => (.named (table.nameOf id), table)

/-- Answers what is asked, one request after the other. -/
def answerAll (table : Interner) : List TableRequest → List TableAnswer × Interner
  | [] => ([], table)
  | request :: others =>
    let (answer, table) := table.answer request
    let (answers, table) := table.answerAll others
    (answer :: answers, table)

/-- Whatever a table is asked, its two sides go on agreeing. -/
theorem Agrees.answer {table : Interner} (h : table.Agrees) (request : TableRequest) :
    (table.answer request).2.Agrees := by
  cases request with
  | intern name => exact h.intern name
  | lookup name => exact h
  | nameOf id => exact h

/-- Whatever a table is asked, its names stay, and others may follow. -/
theorem prefix_answer (table : Interner) (request : TableRequest) :
    table.names <+: (table.answer request).2.names := by
  cases request with
  | intern name => exact table.prefix_intern name
  | lookup name => exact List.prefix_rfl
  | nameOf id => exact List.prefix_rfl

theorem prefix_answerAll (table : Interner) (requests : List TableRequest) :
    table.names <+: (table.answerAll requests).2.names := by
  induction requests generalizing table with
  | nil => exact List.prefix_rfl
  | cons request others ih => exact (table.prefix_answer request).trans (ih _)

end Interner

/-! ### Several tables -/

/-- Tables in the order in which they came up. -/
abbrev Family := List Interner

namespace Family

/-- What a family can be asked. -/
inductive Request where
  /-- A new table without names. -/
  | create
  /-- A new table, as a copy of the one at an index. -/
  | clone (index : Nat)
  /-- An answer of the table at an index. -/
  | ask (index : Nat) (request : TableRequest)

/-- What the table at an index is asked, if the request is for it. -/
def Request.asked? (index : Nat) : Request → Option TableRequest
  | ask other request => if other = index then some request else none
  | _ => none

/-- Answers what is asked. There is no answer about a new table, nor from one that is not
there. -/
def answer (family : Family) : Request → Option TableAnswer × Family
  | .create => (none, family ++ [.empty])
  | .clone index => (none, family ++ family[index]?.toList)
  | .ask index request =>
    match family[index]? with
    | some table => (some (table.answer request).1, family.set index (table.answer request).2)
    | none => (none, family)

/-- The tables after more requests. -/
def run (family : Family) (requests : List Request) : Family :=
  requests.foldl (fun family request => (family.answer request).2) family

/-- The tables after requests, the first of which finds no table. -/
abbrev after (requests : List Request) : Family :=
  run [] requests

/-- What the table at an index answers in the course of requests. -/
def answersOf (index : Nat) (family : Family) : List Request → List TableAnswer
  | [] => []
  | request :: others =>
    let (answer?, family) := family.answer request
    let answers := family.answersOf index others
    if (request.asked? index).isSome then answer?.toList ++ answers else answers

/-- Whether a name has been interned in the table at an index, or in the one that it was
copied from before that. -/
inductive Interned (name : String) : List Request → Nat → Prop where
  | here (requests : List Request) {index : Nat} (h : index < (after requests).length) :
      Interned name (requests ++ [.ask index (.intern name)]) index
  | copied {requests : List Request} {index : Nat} (h : Interned name requests index) :
      Interned name (requests ++ [.clone index]) (after requests).length
  | still {requests : List Request} {index : Nat} (h : Interned name requests index)
      (request : Request) : Interned name (requests ++ [request]) index

variable {family : Family} {requests : List Request} {request : Request} {index : Nat}
  {table : Interner} {name : String}

theorem after_concat (requests : List Request) (request : Request) :
    after (requests ++ [request]) = ((after requests).answer request).2 := by
  rw [after, run, List.foldl_append]
  rfl

theorem after_append (requests later : List Request) :
    after (requests ++ later) = run (after requests) later :=
  List.foldl_append

/-! ### Each table by itself -/

/-- A request changes a table that is there only if it is for that table, which then answers
it. -/
theorem getElem?_answer (h : family[index]? = some table) (request : Request) :
    (family.answer request).2[index]? =
        some ((request.asked? index).elim table fun own => (table.answer own).2) ∧
      ∀ own, request.asked? index = some own →
        (family.answer request).1 = some (table.answer own).1 := by
  have hlt : index < family.length := (List.getElem?_eq_some_iff.1 h).1
  cases request with
  | create => exact ⟨(List.getElem?_append_left hlt).trans h, nofun⟩
  | clone source => exact ⟨(List.getElem?_append_left hlt).trans h, nofun⟩
  | ask other own =>
    simp only [Request.asked?, answer]
    by_cases hother : other = index
    · subst hother
      simp [h, List.getElem?_set_self hlt]
    · rw [if_neg hother]
      refine ⟨?_, nofun⟩
      cases family[other]? with
      | none => exact h
      | some _ => exact (List.getElem?_set_ne hother).trans h

/-- A table changes in the course of requests as if it got only its own. -/
theorem getElem?_run (h : family[index]? = some table) (requests : List Request) :
    (family.run requests)[index]? =
      some (table.answerAll (requests.filterMap (Request.asked? index))).2 := by
  induction requests generalizing family table with
  | nil => exact h
  | cons request others ih =>
    have hnext := ih (getElem?_answer h request).1
    cases hasked : request.asked? index with
    | none => simpa [run, hasked] using hnext
    | some own => simpa [run, hasked, Interner.answerAll] using hnext

/-- A table answers in the course of requests as if it got only its own. -/
theorem answersOf_run (h : family[index]? = some table) (requests : List Request) :
    family.answersOf index requests =
      (table.answerAll (requests.filterMap (Request.asked? index))).1 := by
  induction requests generalizing family table with
  | nil => rfl
  | cons request others ih =>
    obtain ⟨hnext, hanswer⟩ := getElem?_answer h request
    have hothers := ih hnext
    cases hasked : request.asked? index with
    | none => simpa [answersOf, hasked] using hothers
    | some own =>
      simpa [answersOf, hasked, Interner.answerAll, hanswer own hasked] using hothers

/-! ### The two sides of a table -/

/-- A request leaves the two sides of every table in agreement. -/
theorem agrees_answer (h : ∀ table ∈ family, table.Agrees) (request : Request) :
    ∀ table ∈ (family.answer request).2, table.Agrees := by
  intro table htable
  cases request with
  | create =>
    rcases List.mem_append.1 htable with hold | hnew
    · exact h table hold
    · rw [List.mem_singleton.1 hnew]
      exact Interner.agrees_empty
  | clone source =>
    rcases List.mem_append.1 htable with hold | hcopy
    · exact h table hold
    · exact h table (List.mem_of_getElem? (Option.mem_toList.1 hcopy))
  | ask index own =>
    simp only [answer] at htable
    split at htable
    next asked hasked =>
      rcases List.mem_or_eq_of_mem_set htable with hold | rfl
      · exact h table hold
      · exact (h asked (List.mem_of_getElem? hasked)).answer own
    next => exact h table htable

/-- At every moment the two sides of every table agree. -/
theorem agrees_run (h : ∀ table ∈ family, table.Agrees) (requests : List Request) :
    ∀ table ∈ family.run requests, table.Agrees := by
  induction requests generalizing family with
  | nil => exact h
  | cons request others ih => exact ih (agrees_answer h request)

theorem agrees_after (h : (after requests)[index]? = some table) : table.Agrees :=
  agrees_run (List.forall_mem_nil _) requests table (List.mem_of_getElem? h)

/-! ### The names of a table -/

theorem Interned.lt (h : Interned name requests index) : index < (after requests).length := by
  have hgrows (requests : List Request) (request : Request) :
      (after requests).length ≤ (after (requests ++ [request])).length := by
    rw [after_concat]
    cases request with
    | create => simp [answer]
    | clone source => simp [answer]
    | ask other own =>
      simp only [answer]
      split <;> simp
  induction h with
  | here requests h => exact Nat.lt_of_lt_of_le h (hgrows requests _)
  | @copied requests source _ ih => simp [answer, after_concat, List.getElem?_eq_getElem ih]
  | @still requests _ _ request ih => exact Nat.lt_of_lt_of_le ih (hgrows requests request)

/-- What the last of some requests adds to the names of a table. -/
theorem interned_concat_iff :
    Interned name (requests ++ [request]) index ↔ Interned name requests index ∨
      (request = .ask index (.intern name) ∧ index < (after requests).length) ∨
      ∃ source, request = .clone source ∧ index = (after requests).length ∧
        Interned name requests source := by
  constructor
  · intro h
    generalize hrow : requests ++ [request] = row at h
    cases h with
    | here earlier h =>
      obtain ⟨rfl, hlast⟩ := List.append_inj' hrow rfl
      exact .inr (.inl ⟨List.singleton_inj.1 hlast, h⟩)
    | copied h =>
      obtain ⟨rfl, hlast⟩ := List.append_inj' hrow rfl
      exact .inr (.inr ⟨_, List.singleton_inj.1 hlast, rfl, h⟩)
    | still h last =>
      obtain ⟨rfl, -⟩ := List.append_inj' hrow rfl
      exact .inl h
  · rintro (h | ⟨rfl, h⟩ | ⟨source, rfl, rfl, h⟩)
    · exact .still h request
    · exact .here requests h
    · exact .copied h

/-- A table has just the names that were interned in it, or in the one that it was copied from
before that. -/
theorem mem_names_after_iff (h : (after requests)[index]? = some table) :
    name ∈ table.names ↔ Interned name requests index := by
  induction requests using List.reverseRecOn generalizing index table with
  | nil => cases h
  | append_singleton requests request ih =>
    rw [interned_concat_iff]
    rw [after_concat] at h
    have hnew : ¬ Interned name requests (after requests).length :=
      fun hinterned => Nat.lt_irrefl _ hinterned.lt
    cases hold : (after requests)[index]? with
    | none =>
      -- The table is the one that the last request made.
      have hle : (after requests).length ≤ index := List.getElem?_eq_none_iff.1 hold
      cases request with
      | create =>
        simp only [answer, List.getElem?_append_right hle, List.getElem?_singleton] at h
        split at h
        next hzero =>
          obtain rfl : (after requests).length = index := by omega
          obtain rfl := Option.some.inj h
          simp [Interner.empty, hnew]
        next => cases h
      | clone source =>
        simp only [answer, List.getElem?_append_right hle] at h
        cases hsource : (after requests)[source]? with
        | none => simp [hsource] at h
        | some original =>
          simp only [hsource, Option.toList_some, List.getElem?_singleton] at h
          split at h
          next hzero =>
            obtain rfl : (after requests).length = index := by omega
            obtain rfl := Option.some.inj h
            simp [ih hsource, hnew]
          next => cases h
      | ask other own =>
        simp only [answer] at h
        split at h
        · rw [List.getElem?_eq_none (by simpa using hle)] at h
          cases h
        · rw [hold] at h
          cases h
    | some old =>
      have hlt : index < (after requests).length := (List.getElem?_eq_some_iff.1 hold).1
      obtain rfl := Option.some.inj ((getElem?_answer hold request).1.symm.trans h)
      cases request with
      | create => simp [Request.asked?, ih hold]
      | clone source => simp [Request.asked?, ih hold, Nat.ne_of_lt hlt]
      | ask other own =>
        by_cases hother : other = index
        · subst hother
          cases own with
          | intern new =>
            obtain ⟨old, rfl⟩ := (agrees_after hold).exists_table
            have hadded : name ∈ (old.toInterner.intern new).2.names ↔
                name ∈ old.names ∨ name = new := SymbolTable.mem_names_intern
            simp [Request.asked?, Interner.answer, hadded, ih hold, hlt, eq_comm]
          | lookup _ | nameOf _ => simp [Request.asked?, Interner.answer, ih hold]
        · simp [Request.asked?, ih hold, hother]

/-! ### All together -/

/-- What holds of the table at an index after requests. -/
structure Sound (requests : List Request) (index : Nat) (table : Interner) : Prop where
  /-- The numbers of the names and the names of the numbers are inverse to each other. -/
  inverse : ∀ name id, table.ids.get? name = some id ↔ table.names[id.index]? = some name
  /-- So are the answers. -/
  answers : ∀ name id, table.lookup name = some id ↔ table.nameOf id = .ok name
  /-- The numbers without a name are those beyond the table, and they are reported. -/
  unknown : ∀ id unknown, table.nameOf id = .error unknown ↔
    table.size ≤ id.index ∧ unknown = ⟨id.index⟩
  /-- A new name gets as its number how many there were before. -/
  fresh : ∀ name, table.lookup name = none → (table.intern name).1 = ⟨table.size⟩ ∧
    (table.intern name).2.names = table.names ++ [name]
  /-- A name that has a number keeps it, and the table stays as it is. -/
  known : ∀ name id, table.lookup name = some id → table.intern name = (id, table)
  /-- Two names interned at whatever moments get the same number if and only if they are the
  same. -/
  distinct : ∀ name other later table',
    (after (requests ++ .ask index (.intern name) :: later))[index]? = some table' →
    ((table'.intern other).1 = (table.intern name).1 ↔ other = name)
  /-- The names are those that were interned here, or in the table that this one was copied from
  before that. -/
  interned : ∀ name, (∃ id, table.lookup name = some id) ↔ Interned name requests index
  /-- A number and its name belong together for ever after. -/
  kept : ∀ name id, table.lookup name = some id → ∀ later, ∃ table',
    (after (requests ++ later))[index]? = some table' ∧ table'.lookup name = some id ∧
      table'.nameOf id = .ok name
  /-- A copy begins as its original. -/
  cloned : (after (requests ++ [.clone index]))[(after requests).length]? = some table
  /-- The table answers, and changes, as if there were no other. So whatever becomes of its
  copies, or of the table that it is a copy of, changes no answer. -/
  alone : ∀ later,
    (after requests).answersOf index later =
        (table.answerAll (later.filterMap (Request.asked? index))).1 ∧
      (after (requests ++ later))[index]? =
        some (table.answerAll (later.filterMap (Request.asked? index))).2

/-- In a family of tables that are created empty or as copies and are asked in any order, names
and numbers correspond one to one in every table at every moment. They are those of the names
that were interned in that table or in the one that it was copied from before, they stay for
ever, and no other table has a part in it. -/
theorem names_correspond (h : (after requests)[index]? = some table) :
    Sound requests index table := by
  obtain ⟨table, rfl⟩ := (agrees_after h).exists_table
  exact
    { inverse := table.agrees
      answers := fun _ _ => SymbolTable.lookup_eq_some_iff
      unknown := fun _ _ => Interner.nameOf_eq_error_iff
      fresh := fun _ => Interner.intern_of_lookup_eq_none
      known := fun _ _ => Interner.intern_of_lookup_eq_some
      distinct := fun name other later table' htable' => by
        obtain ⟨table', rfl⟩ := (agrees_after htable').exists_table
        rw [after_append] at htable'
        -- Later names only follow those that the table has right after the first name is interned.
        have hlater := Option.some.inj ((getElem?_run h _).symm.trans htable')
        have hgrown : (table.toInterner.intern name).2.names <+: table'.names := by
          rw [← hlater]
          simpa [Request.asked?, Interner.answerAll, Interner.answer] using
            Interner.prefix_answerAll _ _
        exact SymbolTable.intern_fst_eq_iff hgrown
      interned := fun _ => SymbolTable.exists_lookup_iff.trans (mem_names_after_iff h)
      kept := fun name id hid later => by
        rw [after_append]
        have hrun := getElem?_run h later
        have hprefix := table.prefix_answerAll (later.filterMap (Request.asked? index))
        obtain ⟨last, hlast⟩ := (agrees_after ((congrArg (·[index]?) (after_append ..)).trans
          hrun)).exists_table
        rw [hlast] at hrun hprefix
        have hlater := SymbolTable.lookup_of_names hprefix hid
        exact ⟨_, hrun, hlater, SymbolTable.nameOf_of_lookup hlater⟩
      cloned := by simp [after_concat, answer, h]
      alone := fun later => ⟨answersOf_run h later, by rw [after_append, getElem?_run h later]⟩ }

/-- A table is copied after `x`. The copy then gets `y` and its original `z`, under the same
number. -/
theorem names_correspond_clone :
    ∃ (requests : List Request) (original copy : Interner),
      (after requests)[0]? = some original ∧ (after requests)[1]? = some copy ∧
        original.names = ["x", "z"] ∧ copy.names = ["x", "y"] ∧
        original.lookup "z" = some ⟨1⟩ ∧ copy.lookup "y" = some ⟨1⟩ ∧
        Sound requests 0 original ∧ Sound requests 1 copy ∧
        Interned "x" requests 1 ∧ ¬ Interned "z" requests 1 := by
  let requests : List Request :=
    [.create, .ask 0 (.intern "x"), .clone 0, .ask 1 (.intern "y"), .ask 0 (.intern "z")]
  let original : Interner := ⟨⟨[("x", ⟨0⟩), ("z", ⟨1⟩)]⟩, ["x", "z"]⟩
  let copy : Interner := ⟨⟨[("x", ⟨0⟩), ("y", ⟨1⟩)]⟩, ["x", "y"]⟩
  have horiginal : (after requests)[0]? = some original := rfl
  have hcopy : (after requests)[1]? = some copy := rfl
  have hsound := names_correspond hcopy
  refine ⟨requests, original, copy, horiginal, hcopy, rfl, rfl, rfl, rfl,
    names_correspond horiginal, hsound, (hsound.interned "x").1 ⟨⟨0⟩, rfl⟩, fun hz => ?_⟩
  obtain ⟨id, hid⟩ := (hsound.interned "z").2 hz
  cases hid

end Family

end BracketLisp
