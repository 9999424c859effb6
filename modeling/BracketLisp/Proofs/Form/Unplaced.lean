import BracketLisp.Proofs.Form.Alike

/-!
# `BracketLisp.Proofs.Form.Unplaced`: forms without their places

Forms are the same up to places if nothing is left to tell them apart once all places are
forgotten. The tokens that they were read from decide this.

* `Element.unplaced` and `Form.unplaced` forget the places.
* `Element.eq_of_marks`: the marks of an element show where it ends, so no two elements are
  written out as the same marks.
* `Mark.For.unplaced_eq`: in one table a token reads as the same mark wherever it stands.
* `unplaced_eq_of_tokens` concludes that forms behind the same tokens are the same up to
  places.
-/

set_option autoImplicit false

namespace BracketLisp

/-! ### Forgetting places -/

/-- Stands for any place. -/
def Position.nowhere : Position :=
  ⟨"", 0, 0⟩

mutual

/-- The element without its places. -/
def Element.unplaced : Element → Element
  | .list bracket elements _ => .list bracket (unplacedAll elements) .nowhere
  | .int value _ => .int value .nowhere
  | .float value _ => .float value .nowhere
  | .string content _ => .string content .nowhere
  | .symbol id _ => .symbol id .nowhere

/-- The elements without their places. -/
def unplacedAll : List Element → List Element
  | [] => []
  | element :: others => element.unplaced :: unplacedAll others

end

/-- The form without its places. -/
def Form.unplaced (form : Form) : Form :=
  ⟨form.bracket, unplacedAll form.elements, .nowhere⟩

/-- The mark without its place. -/
def Mark.unplaced : Mark → Mark
  | .opening bracket _ => .opening bracket .nowhere
  | .closing bracket => .closing bracket
  | .atom element => .atom element.unplaced

mutual

/-- Forgetting places keeps the marks of an element, their places apart. -/
theorem Element.marks_unplaced (element : Element) :
    element.unplaced.marks = element.marks.map Mark.unplaced := by
  cases element with
  | list bracket elements span =>
    show .opening bracket .nowhere :: (marksAll (unplacedAll elements) ++ [.closing bracket]) =
      (Mark.opening bracket span :: (marksAll elements ++ [.closing bracket])).map Mark.unplaced
    rw [marksAll_unplaced elements, List.map_cons, List.map_append]
    rfl
  | int value span => rfl
  | float value span => rfl
  | string content span => rfl
  | symbol id span => rfl

/-- Forgetting places keeps the marks of several elements, their places apart. -/
theorem marksAll_unplaced (elements : List Element) :
    marksAll (unplacedAll elements) = (marksAll elements).map Mark.unplaced := by
  cases elements with
  | nil => rfl
  | cons element others =>
    rw [unplacedAll, marksAll, marksAll, List.map_append, Element.marks_unplaced element,
      marksAll_unplaced others]

end

/-! ### Marks determine elements -/

/-- No element starts with a closing bracket. -/
theorem Element.marks_ne_closing (element : Element) (bracket : Bracket)
    (rest others : List Mark) : element.marks ++ rest ≠ .closing bracket :: others := by
  intro h
  cases element <;> simp [marks] at h

mutual

/-- The marks of an element, whatever follows them, determine it. -/
theorem Element.eq_of_marks (e e' : Element) {rest rest' : List Mark}
    (h : e.marks ++ rest = e'.marks ++ rest') : e = e' ∧ rest = rest' := by
  cases e with
  | list bracket elements span =>
    cases e' with
    | list bracket' elements' span' =>
      simp only [Element.marks, List.cons_append, List.append_assoc, List.nil_append,
        List.cons.injEq, Mark.opening.injEq] at h
      obtain ⟨⟨rfl, rfl⟩, hinner⟩ := h
      obtain ⟨rfl, hrest⟩ := eq_of_marksAll elements elements' hinner
      exact ⟨rfl, (List.cons.inj hrest).2⟩
    | _ => simp [Element.marks] at h
  | _ => cases e' <;> simp_all [Element.marks]

/-- The marks of several elements, up to the bracket that closes their list, determine
them. -/
theorem eq_of_marksAll (es es' : List Element) {bracket bracket' : Bracket}
    {rest rest' : List Mark} (h : marksAll es ++ .closing bracket :: rest =
      marksAll es' ++ .closing bracket' :: rest') :
    es = es' ∧ Mark.closing bracket :: rest = .closing bracket' :: rest' := by
  cases es with
  | nil =>
    cases es' with
    | nil => exact ⟨rfl, h⟩
    | cons e' others' =>
      rw [marksAll, marksAll, List.append_assoc] at h
      exact absurd h.symm (e'.marks_ne_closing bracket _ rest)
  | cons e others =>
    cases es' with
    | nil =>
      rw [marksAll, marksAll, List.append_assoc] at h
      exact absurd h (e.marks_ne_closing bracket' _ rest')
    | cons e' others' =>
      rw [marksAll, marksAll, List.append_assoc, List.append_assoc] at h
      obtain ⟨rfl, hothers⟩ := Element.eq_of_marks e e' h
      obtain ⟨rfl, hrest⟩ := eq_of_marksAll others others' hothers
      exact ⟨rfl, hrest⟩

end

/-- The marks of forms determine them. -/
theorem forms_eq_of_marks {forms forms' : List Form}
    (h : (forms.flatMap fun form => form.element.marks) =
      forms'.flatMap fun form => form.element.marks) : forms = forms' := by
  induction forms generalizing forms' with
  | nil =>
    cases forms' with
    | nil => rfl
    | cons form' others' => simp [Form.element, Element.marks] at h
  | cons form others ih =>
    cases forms' with
    | nil => simp [Form.element, Element.marks] at h
    | cons form' others' =>
      rw [List.flatMap_cons, List.flatMap_cons] at h
      obtain ⟨helement, hothers⟩ := Element.eq_of_marks form.element form'.element h
      obtain ⟨bracket, elements, span⟩ := form
      obtain ⟨bracket', elements', span'⟩ := form'
      simp only [Form.element, Element.list.injEq] at helement
      obtain ⟨rfl, rfl, rfl⟩ := helement
      rw [ih hothers]

/-! ### Tokens determine forms -/

/-- A token stands for the same mark at another place. -/
theorem Mark.For.unplaced_eq {table : SymbolTable} {token token' : Located Token}
    {mark mark' : Mark} (hvalue : token.value = token'.value) (h : Mark.For table token mark)
    (h' : Mark.For table token' mark') : mark.unplaced = mark'.unplaced := by
  obtain ⟨token, p⟩ := token
  obtain ⟨_, q⟩ := token'
  obtain rfl : token = _ := hvalue
  cases h with
  | opening bracket p =>
    cases h' with
    | opening _ q => rfl
  | closing bracket p =>
    cases h' with
    | closing _ q => rfl
  | string content p =>
    cases h' with
    | string _ q => rfl
  -- A bare token is an integer or else a float or else a symbol, for both marks alike.
  | @int name value p hint =>
    cases h' with
    | int q hint' =>
      obtain rfl := Option.some.inj (hint.symm.trans hint')
      rfl
    | float q hnone _ | symbol q hnone _ _ => simp [hint] at hnone
  | @float name value p hint hfloat =>
    cases h' with
    | int q hsome => simp [hint] at hsome
    | float q _ hfloat' =>
      obtain rfl := Option.some.inj (hfloat.symm.trans hfloat')
      rfl
    | symbol q _ hnone _ => simp [hfloat] at hnone
  | @symbol name id p hint hfloat hname =>
    cases h' with
    | int q hsome => simp [hint] at hsome
    | float q _ hsome => simp [hfloat] at hsome
    | symbol q _ _ hname' =>
      obtain rfl := SymbolTable.nameOf_inj hname hname'
      rfl

/-- Rows of marks behind the same tokens are the same up to places. -/
theorem Mark.For.map_unplaced_eq {table : SymbolTable} {tokens tokens' : List (Located Token)}
    {marks marks' : List Mark} (htokens : tokens.map Located.value = tokens'.map Located.value)
    (h : List.Forall₂ (Mark.For table) tokens marks)
    (h' : List.Forall₂ (Mark.For table) tokens' marks') :
    marks.map Mark.unplaced = marks'.map Mark.unplaced := by
  induction h generalizing tokens' marks' with
  | nil =>
    obtain rfl : tokens' = [] := List.map_eq_nil_iff.1 htokens.symm
    obtain rfl := List.forall₂_nil_left_iff.1 h'
    rfl
  | cons hmark _ ih =>
    cases h' with
    | nil => cases htokens
    | cons hmark' hothers' =>
      rw [List.map_cons, List.map_cons, List.cons.injEq] at htokens
      rw [List.map_cons, List.map_cons, hmark.unplaced_eq htokens.1 hmark',
        ih htokens.2 hothers']

/-- Forms behind the same tokens are the same up to places. -/
theorem unplaced_eq_of_tokens {table : SymbolTable} {tokens tokens' : List (Located Token)}
    {forms forms' : List Form} (htokens : tokens.map Located.value = tokens'.map Located.value)
    (h : List.Forall₂ (Mark.For table) tokens (forms.flatMap fun form => form.element.marks))
    (h' : List.Forall₂ (Mark.For table) tokens' (forms'.flatMap fun form => form.element.marks)) :
    forms.map Form.unplaced = forms'.map Form.unplaced := by
  have hforms (forms : List Form) :
      ((forms.map Form.unplaced).flatMap fun form => form.element.marks) =
        (forms.flatMap fun form => form.element.marks).map Mark.unplaced := by
    rw [List.flatMap_map, List.map_flatMap]
    exact List.flatMap_congr fun form _ => Element.marks_unplaced form.element
  refine forms_eq_of_marks ?_
  rw [hforms, hforms]
  exact Mark.For.map_unplaced_eq htokens h h'

end BracketLisp
