/-!
# `BracketLisp.Dictionary`: keys and what they are bound to

A `Dictionary` binds each key to at most one thing. Its view is `get?`, and `get?_empty` and
`get?_set` say what the operations do to it.
-/

set_option autoImplicit false

namespace BracketLisp

/-- Keys and what they are bound to, in the order in which they were first bound. -/
structure Dictionary (κ α : Type) where
  entries : List (κ × α)
deriving Repr

namespace Dictionary

variable {κ α : Type}

/-- The dictionary that binds nothing. -/
def empty : Dictionary κ α :=
  ⟨[]⟩

instance : Inhabited (Dictionary κ α) := ⟨empty⟩

variable [DecidableEq κ]

/-- What a list of bindings binds a key to. -/
def findEntry (key : κ) : List (κ × α) → Option α
  | [] => none
  | (other, a) :: rest => if other = key then some a else findEntry key rest

/-- What a key is bound to, if it is bound. -/
def get? (dictionary : Dictionary κ α) (key : κ) : Option α :=
  findEntry key dictionary.entries

/-- Replaces the binding of a key, or puts a new one at the end. -/
def setEntry (key : κ) (a : α) : List (κ × α) → List (κ × α)
  | [] => [(key, a)]
  | (other, b) :: rest =>
    if other = key then (key, a) :: rest else (other, b) :: setEntry key a rest

/-- Binds a key, whether it was bound or not. -/
def set (dictionary : Dictionary κ α) (key : κ) (a : α) : Dictionary κ α :=
  ⟨setEntry key a dictionary.entries⟩

/-- Binds the keys of a list, one after the other, so that of two bindings of one key the
later counts. -/
def setAll (dictionary : Dictionary κ α) (bindings : List (κ × α)) : Dictionary κ α :=
  bindings.foldl (fun dictionary (key, a) => dictionary.set key a) dictionary

@[simp]
theorem get?_empty (key : κ) : (empty : Dictionary κ α).get? key = none :=
  rfl

/-- Binding a key changes what it is bound to, and nothing else. -/
theorem get?_set (dictionary : Dictionary κ α) (key other : κ) (a : α) :
    (dictionary.set key a).get? other = if other = key then some a else dictionary.get? other := by
  obtain ⟨entries⟩ := dictionary
  simp only [set, get?]
  induction entries with
  | nil => simp [setEntry, findEntry, eq_comm]
  | cons entry rest ih =>
    obtain ⟨first, b⟩ := entry
    by_cases hfirst : first = key
    · subst hfirst
      by_cases h : first = other
      · simp [setEntry, findEntry, h]
      · simp [setEntry, findEntry, h, Ne.symm h]
    · by_cases h : first = other
      · subst h
        simp [setEntry, findEntry, hfirst]
      · simp [setEntry, findEntry, hfirst, h, ih]

end Dictionary

end BracketLisp
