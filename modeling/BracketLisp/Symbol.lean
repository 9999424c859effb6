import BracketLisp.Dictionary

/-!
# `BracketLisp.Symbol`: names and their numbers

An `Interner` gives every name that it meets the next number. It keeps the numbers twice, from
names to numbers and from numbers to names, and `intern` has to change both of them alike: that
they are inverse to each other is `Interner.Agrees`, which holds at first (`agrees_empty`) and
is preserved (`Agrees.intern`).

A `SymbolTable` is an interner whose two sides agree. It only grows, and names and the numbers
given out correspond one to one: `lookup_intern`, `nameOf_intern` and `nameOf_of_lookup` say so.
-/

set_option autoImplicit false

namespace BracketLisp

/-- The number of a name. It means something only beside the table that gave it. -/
structure SymbolId where
  index : Nat
deriving DecidableEq, Repr

namespace SymbolId

/-- The written form of a number whose name is not at hand. -/
def text (id : SymbolId) : String :=
  "#" ++ toString id.index

/-- Numbers compare as they were given out. -/
def compare (a b : SymbolId) : Ordering :=
  Ord.compare a.index b.index

end SymbolId

/-- A number that a table has not given out. -/
structure UnknownSymbol where
  index : Nat
deriving DecidableEq, Repr

/-- The wording for a number that the table has not given out. -/
def UnknownSymbol.message (unknown : UnknownSymbol) : String :=
  "Undefined symbol id " ++ toString unknown.index

/-- The numbers of names, and the names in the order in which they got them. -/
structure Interner where
  ids : Dictionary String SymbolId
  names : List String
deriving Repr

namespace Interner

/-- No names yet. -/
def empty : Interner :=
  ⟨.empty, []⟩

/-- How many names have a number. -/
def size (interner : Interner) : Nat :=
  interner.names.length

/-- The number of a name, if it has one. -/
def lookup (interner : Interner) (name : String) : Option SymbolId :=
  interner.ids.get? name

/-- The name of a number. -/
def nameOf (interner : Interner) (id : SymbolId) : Except UnknownSymbol String :=
  match interner.names[id.index]? with
  | some name => .ok name
  | none => .error ⟨id.index⟩

/-- The number of a name, and the interner in which it has that number. A name that has one
keeps it. -/
def intern (interner : Interner) (name : String) : SymbolId × Interner :=
  match interner.ids.get? name with
  | some id => (id, interner)
  | none =>
    let id : SymbolId := ⟨interner.names.length⟩
    (id, { names := interner.names ++ [name], ids := interner.ids.set name id })

/-- Whether the numbers of the names and the names of the numbers are inverse to each other. -/
def Agrees (interner : Interner) : Prop :=
  ∀ name id, interner.ids.get? name = some id ↔ interner.names[id.index]? = some name

theorem agrees_empty : empty.Agrees :=
  fun _ _ => ⟨nofun, nofun⟩

/-- A new name goes to both sides, and its number is that of no other name. -/
theorem Agrees.intern {interner : Interner} (h : interner.Agrees) (name : String) :
    (interner.intern name).2.Agrees := by
  unfold Interner.intern
  split
  next => exact h
  next hnew =>
    intro other id
    rw [Dictionary.get?_set]
    by_cases hother : other = name
    · subst hother
      -- The name has no place among the earlier ones, where it would have had a number.
      have hold : interner.names[id.index]? ≠ some other := fun hname => by
        rw [(h other id).2 hname] at hnew
        cases hnew
      rw [if_pos rfl, Option.some.injEq]
      constructor
      · rintro rfl
        simp
      · intro hname
        rcases Nat.lt_or_ge id.index interner.names.length with hlt | hge
        · exact absurd ((List.getElem?_append_left hlt).symm.trans hname) hold
        · have hlt := (List.getElem?_eq_some_iff.1 hname).1
          rw [List.length_append, List.length_singleton] at hlt
          exact congrArg SymbolId.mk (Nat.le_antisymm hge (Nat.le_of_lt_succ hlt))
    · rw [if_neg hother, h other id]
      rcases Nat.lt_or_ge id.index interner.names.length with hlt | hge
      · rw [List.getElem?_append_left hlt]
      · rw [List.getElem?_eq_none hge, List.getElem?_append_right hge]
        refine ⟨nofun, fun hname => absurd ?_ hother⟩
        exact (List.mem_singleton.1 (List.mem_of_getElem? hname))

end Interner

/-- Names and numbers that correspond one to one. -/
structure SymbolTable extends Interner where
  agrees : toInterner.Agrees
deriving Repr

namespace SymbolTable

/-- The table before any name. -/
def empty : SymbolTable :=
  ⟨.empty, Interner.agrees_empty⟩

instance : Inhabited SymbolTable := ⟨empty⟩

/-- The number of a name, and the table in which it has that number. A name that has
one keeps it. -/
def intern (table : SymbolTable) (name : String) : SymbolId × SymbolTable :=
  ((table.toInterner.intern name).1, ⟨(table.toInterner.intern name).2, table.agrees.intern name⟩)

/-- The table of some names, which get their numbers one after the other. -/
def ofNames (names : List String) : SymbolTable :=
  names.foldl (fun table name => (table.intern name).2) empty

/-- The name of a number, or its written form if it has none. -/
def label (table : SymbolTable) (id : SymbolId) : String :=
  match table.nameOf id with
  | .ok name => name
  | .error _ => id.text

/-- A number found for a name is one whose name it is. -/
theorem nameOf_of_lookup {table : SymbolTable} {name : String} {id : SymbolId}
    (h : table.lookup name = some id) : table.nameOf id = .ok name := by
  have hname : table.names[id.index]? = some name := (table.agrees name id).1 h
  rw [Interner.nameOf, hname]

/-- After interning a name, it is found under the number given. -/
theorem lookup_intern (table : SymbolTable) (name : String) :
    (table.intern name).2.lookup name = some (table.intern name).1 := by
  show (table.toInterner.intern name).2.ids.get? name = some (table.toInterner.intern name).1
  unfold Interner.intern
  split
  next id h => exact h
  next => rw [Dictionary.get?_set, if_pos rfl]

/-- After interning a name, the number given has that name. -/
theorem nameOf_intern (table : SymbolTable) (name : String) :
    (table.intern name).2.nameOf (table.intern name).1 = .ok name :=
  nameOf_of_lookup (lookup_intern table name)

end SymbolTable

end BracketLisp
