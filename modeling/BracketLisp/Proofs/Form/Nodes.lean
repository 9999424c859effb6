import BracketLisp.Proofs.Simulation.Step

/-!
# `BracketLisp.Proofs.Form.Nodes`: what occurs in an element

An element is a tree, and `Element.nodes` lists its nodes in the order of the text. What
occurs in an element is read off them: `Element.symbols` are the symbols that stand
anywhere in it, and `Element.targets` those that stand directly after the head of a list,
which is where a binding has its symbol.
-/

set_option autoImplicit false

namespace BracketLisp

mutual

/-- The nodes of an element, itself first. -/
def Element.nodes : Element → List Element
  | .list bracket elements span => .list bracket elements span :: nodesAll elements
  | .int value span => [.int value span]
  | .float value span => [.float value span]
  | .string content span => [.string content span]
  | .symbol id span => [.symbol id span]

/-- The nodes of several elements, one after the other. -/
def nodesAll : List Element → List Element
  | [] => []
  | element :: others => element.nodes ++ nodesAll others

end

theorem nodesAll_eq_flatMap (elements : List Element) :
    nodesAll elements = elements.flatMap Element.nodes := by
  induction elements with
  | nil => rfl
  | cons element others ih => rw [nodesAll, ih, List.flatMap_cons]

namespace Element

/-- The symbols that occur in an element. -/
def symbols (element : Element) : List SymbolId :=
  element.nodes.filterMap symbol?

/-- The symbols that stand directly after the head of a list in an element. -/
def targets (element : Element) : List SymbolId :=
  element.nodes.filterMap target?

/-- An element is one of its nodes. -/
theorem self_mem_nodes (element : Element) : element ∈ element.nodes := by
  cases element <;> exact List.mem_cons_self ..

/-- The nodes of a part are nodes of the list. -/
theorem nodes_subset_of_mem {bracket : Bracket} {elements : List Element} {span : Position}
    {part : Element} (h : part ∈ elements) :
    part.nodes ⊆ (list bracket elements span).nodes := by
  have hall : part.nodes ⊆ nodesAll elements := by
    induction elements with
    | nil => cases h
    | cons first others ih =>
      rcases List.mem_cons.1 h with rfl | hmem
      · exact List.subset_append_left ..
      · exact List.Subset.trans (ih hmem) (List.subset_append_right ..)
  exact List.Subset.trans hall (List.subset_cons_self ..)

theorem symbols_subset_of_mem {bracket : Bracket} {elements : List Element} {span : Position}
    {part : Element} (h : part ∈ elements) :
    part.symbols ⊆ (list bracket elements span).symbols :=
  List.filterMap_subset _ (nodes_subset_of_mem h)

theorem targets_subset_of_mem {bracket : Bracket} {elements : List Element} {span : Position}
    {part : Element} (h : part ∈ elements) :
    part.targets ⊆ (list bracket elements span).targets :=
  List.filterMap_subset _ (nodes_subset_of_mem h)

/-- The target of a list is a target in it. -/
theorem mem_targets_of_target? {element : Element} {id : SymbolId}
    (h : element.target? = some id) : id ∈ element.targets :=
  List.mem_filterMap.2 ⟨element, element.self_mem_nodes, h⟩

/-- A symbol occurs in itself. -/
theorem mem_symbols_symbol (id : SymbolId) (span : Position) : id ∈ (symbol id span).symbols :=
  List.mem_filterMap.2 ⟨_, self_mem_nodes _, rfl⟩

end Element

end BracketLisp
