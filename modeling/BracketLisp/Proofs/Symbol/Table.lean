import BracketLisp.Symbol
import Mathlib.Data.List.Basic

/-!
# `BracketLisp.Proofs.Symbol.Table`: names and numbers of one table

What interning does is said of any `Interner`, whether its two sides agree or not. In a
`SymbolTable` they do, so that it answers alike in both directions, from names to numbers by
`lookup` and from numbers to names by `nameOf` (`lookup_eq_some_iff`). Interning only adds
names at the end (`prefix_intern`), so whatever has a number keeps it.
-/

set_option autoImplicit false

namespace BracketLisp

namespace Interner

variable {interner : Interner} {name : String} {id : SymbolId}

theorem nameOf_eq_ok_iff :
    interner.nameOf id = .ok name ↔ interner.names[id.index]? = some name := by
  unfold nameOf
  cases interner.names[id.index]? <;> simp

/-- A number without a name is one that the interner has not reached yet, and it is reported. -/
theorem nameOf_eq_error_iff {unknown : UnknownSymbol} :
    interner.nameOf id = .error unknown ↔ interner.size ≤ id.index ∧ unknown = ⟨id.index⟩ := by
  unfold nameOf size
  rw [← List.getElem?_eq_none_iff]
  cases interner.names[id.index]? <;> simp [eq_comm]

/-- A name that has a number keeps it, and nothing changes. -/
theorem intern_of_lookup_eq_some (h : interner.lookup name = some id) :
    interner.intern name = (id, interner) := by
  have hget : interner.ids.get? name = some id := h
  rw [intern, hget]

/-- A new name gets as its number how many there were before, and goes to the end. -/
theorem intern_of_lookup_eq_none (h : interner.lookup name = none) :
    (interner.intern name).1 = ⟨interner.size⟩ ∧
      (interner.intern name).2.names = interner.names ++ [name] := by
  have hget : interner.ids.get? name = none := h
  rw [intern, hget]
  exact ⟨rfl, rfl⟩

/-- Interning only adds names, at the end. -/
theorem prefix_intern (interner : Interner) (name : String) :
    interner.names <+: (interner.intern name).2.names := by
  cases h : interner.lookup name with
  | some id => simp [intern_of_lookup_eq_some h]
  | none => simp [(intern_of_lookup_eq_none h).2]

/-- Where the two sides agree there is a table. -/
theorem Agrees.exists_table (h : interner.Agrees) :
    ∃ table : SymbolTable, interner = table.toInterner :=
  ⟨⟨interner, h⟩, rfl⟩

end Interner

namespace SymbolTable

variable {table later table' : SymbolTable} {name : String} {id id' : SymbolId}

/-! ### Numbers and names -/

/-- A number that has a name is written as this name. -/
theorem label_of_nameOf (h : table.nameOf id = .ok name) : table.label id = name := by
  rw [label, h]

theorem mem_names_iff : name ∈ table.names ↔ ∃ id, table.nameOf id = .ok name := by
  constructor
  · intro h
    obtain ⟨index, hindex⟩ := List.mem_iff_getElem?.1 h
    exact ⟨⟨index⟩, Interner.nameOf_eq_ok_iff.2 hindex⟩
  · rintro ⟨id, hid⟩
    exact List.mem_of_getElem? (Interner.nameOf_eq_ok_iff.1 hid)

/-- The number of a name is the one whose name it is. -/
theorem lookup_eq_some_iff : table.lookup name = some id ↔ table.nameOf id = .ok name :=
  (table.agrees name id).trans Interner.nameOf_eq_ok_iff.symm

/-- A name has one number. -/
theorem nameOf_inj (h : table.nameOf id = .ok name) (h' : table.nameOf id' = .ok name) :
    id = id' :=
  Option.some.inj ((lookup_eq_some_iff.2 h).symm.trans (lookup_eq_some_iff.2 h'))

/-- The names that have a number are those of the table. -/
theorem exists_lookup_iff : (∃ id, table.lookup name = some id) ↔ name ∈ table.names := by
  simp only [lookup_eq_some_iff, mem_names_iff]

/-- A name that has no number does not occur in the table. -/
theorem not_mem_of_lookup_eq_none (h : table.lookup name = none) : name ∉ table.names := by
  intro hname
  obtain ⟨id, hid⟩ := exists_lookup_iff.2 hname
  cases h.symm.trans hid

/-! ### Interning -/

/-- A name that has a number keeps it, and the table stays as it is. -/
theorem intern_of_lookup_eq_some (h : table.lookup name = some id) :
    table.intern name = (id, table) := by
  have hintern : table.toInterner.intern name = (id, table.toInterner) :=
    Interner.intern_of_lookup_eq_some h
  simp only [intern, hintern]

/-- A new name gets as its number how many there were before, and goes to the end. -/
theorem intern_of_lookup_eq_none (h : table.lookup name = none) :
    (table.intern name).1 = ⟨table.size⟩ ∧
      (table.intern name).2.names = table.names ++ [name] :=
  Interner.intern_of_lookup_eq_none h

/-- Interning a name puts it behind the others, unless it is there. -/
theorem names_intern (table : SymbolTable) (name : String) :
    (table.intern name).2.names =
      if name ∈ table.names then table.names else table.names ++ [name] := by
  cases h : table.lookup name with
  | none => rw [if_neg (not_mem_of_lookup_eq_none h), (intern_of_lookup_eq_none h).2]
  | some id =>
    rw [if_pos (exists_lookup_iff.1 ⟨id, h⟩), intern_of_lookup_eq_some h]

/-- Interning only adds names, at the end. -/
theorem prefix_intern (table : SymbolTable) (name : String) :
    table.names <+: (table.intern name).2.names :=
  table.toInterner.prefix_intern name

/-- Interning a name adds it, unless it is there. -/
theorem mem_names_intern {other : String} :
    other ∈ (table.intern name).2.names ↔ other ∈ table.names ∨ other = name := by
  rw [names_intern]
  split
  next hmem => exact ⟨.inl, fun hother => hother.elim id fun heq => heq ▸ hmem⟩
  next => simp

/-- Interning a name in both tables keeps the second one the larger. -/
theorem names_intern_subset (h : table.names ⊆ table'.names) :
    (table.intern name).2.names ⊆ (table'.intern name).2.names := by
  intro other hother
  rw [mem_names_intern] at hother ⊢
  exact hother.imp_left fun hmem => h hmem

/-- Names that are new, and all different, go to the end in their order. -/
theorem names_foldl_intern {names : List String} (h : (table.names ++ names).Nodup) :
    (names.foldl (fun table name => (table.intern name).2) table).names = table.names ++ names := by
  induction names generalizing table with
  | nil => exact (List.append_nil _).symm
  | cons name others ih =>
    have hnew : name ∉ table.names := fun hname =>
      (List.nodup_append.1 h).2.2 name hname name (List.mem_cons_self ..) rfl
    have hnames : (table.intern name).2.names = table.names ++ [name] := by
      rw [names_intern, if_neg hnew]
    rw [List.foldl_cons, ih, hnames, List.append_assoc, List.singleton_append]
    rwa [hnames, List.append_assoc]

/-- A table of names that are all different has them in their order. -/
theorem names_ofNames {names : List String} (h : names.Nodup) : (ofNames names).names = names :=
  names_foldl_intern h

/-- Names that are all different have their places as numbers. -/
theorem lookup_ofNames {names : List String} (h : names.Nodup) (hname : name ∈ names) :
    (ofNames names).lookup name = some ⟨names.idxOf name⟩ := by
  rw [lookup_eq_some_iff, Interner.nameOf_eq_ok_iff, names_ofNames h]
  exact List.getElem?_idxOf hname

/-! ### Tables that grow -/

/-- A number keeps its name in a table that goes on from another. -/
theorem nameOf_of_names (h : table.names <+: later.names) (hname : table.nameOf id = .ok name) :
    later.nameOf id = .ok name := by
  rw [Interner.nameOf_eq_ok_iff] at hname ⊢
  obtain ⟨added, hadded⟩ := h
  rw [← hadded, List.getElem?_append_left (List.getElem?_eq_some_iff.1 hname).1, hname]

/-- A name keeps its number in a table that goes on from another. -/
theorem lookup_of_names (h : table.names <+: later.names) (hid : table.lookup name = some id) :
    later.lookup name = some id :=
  lookup_eq_some_iff.2 (nameOf_of_names h (nameOf_of_lookup hid))

/-- Once a name is interned, a name that is interned later gets the same number only if it is
the same name. -/
theorem intern_fst_eq_iff {other : String} (h : (table.intern name).2.names <+: later.names) :
    (later.intern other).1 = (table.intern name).1 ↔ other = name := by
  have hname : (later.intern other).2.nameOf (table.intern name).1 = .ok name :=
    nameOf_of_names (h.trans (later.prefix_intern other)) (table.nameOf_intern name)
  have hother := later.nameOf_intern other
  constructor
  · intro heq
    rw [heq, hname] at hother
    exact (Except.ok.inj hother).symm
  · rintro rfl
    exact nameOf_inj hother hname

end SymbolTable

end BracketLisp
