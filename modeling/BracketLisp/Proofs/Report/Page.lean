import BracketLisp.Report.Plain
import BracketLisp.Proofs.Position.Offset
import BracketLisp.Proofs.Text.Blank

/-!
# `BracketLisp.Proofs.Report.Page`: the lines of a page and the lines of a text

A report and the scanner cut one text by two rules. The lines of a page end at more
characters than the pieces of a text, but at every character that ends a piece, so the two
can only disagree behind a line break that is no line feed.

* `cut` cuts by any rule, and both ways to cut are cases of it (`pageLines_eq_cut`,
  `pieces_eq_cut`).
* `placeIn` counts rows and columns without cutting, and `locate_cut` finds the same place
  among the rows.
* `placeIn_eq_of_agree` and `agree_of_row_eq` compare two rules: they give one place exactly
  if they agree on everything before it.
* `take_cut_eq` finds the same rows under two rules that agree up to the end of the rows.
* `locate_pageLines` puts this together for a place on a line of a text. What matters are the
  line breaks that are no line feeds (`Stray`).
-/

set_option autoImplicit false

namespace BracketLisp.Report

open Text

/-! ### Rules to cut by -/

/-- Characters as rows, each of which ends with the first character where `ends` holds of it
and what comes after it. The last row may lack such a character, and no row is empty. -/
def cut (ends : Char → List Char → Bool) : List Char → List (List Char)
  | [] => []
  | c :: rest =>
    if ends c rest then
      [c] :: cut ends rest
    else
      match cut ends rest with
      | [] => [[c]]
      | row :: others => (c :: row) :: others

/-- Whether a line of a page ends behind a character that stands before `rest`. -/
def endsLine (c : Char) (rest : List Char) : Bool :=
  isBreak c && !(c == '\r' && rest.head? == some '\n')

/-- Whether a piece of a text ends behind a character. -/
def endsPiece (c : Char) (_rest : List Char) : Bool :=
  c == '\n'

theorem pageLines_eq_cut (text : List Char) : pageLines text = cut endsLine text := by
  induction text with
  | nil => rfl
  | cons c rest ih =>
    have hends : (isBreak c = true ∧ ¬(c = '\r' ∧ rest.head? = some '\n')) ↔
        endsLine c rest = true := by
      simp [endsLine, imp_iff_not_or]
    cases hrows : cut endsLine rest <;> simp only [pageLines, cut, hends, ih, hrows]

theorem pieces_eq_cut (text : List Char) : pieces text = cut endsPiece text := by
  induction text with
  | nil => rfl
  | cons c rest ih =>
    cases hrows : cut endsPiece rest <;> simp only [pieces, cut, endsPiece, beq_iff_eq, ih, hrows]

/-- A line feed ends the lines of a page, too. -/
theorem endsLine_of_endsPiece {c : Char} {rest : List Char} (h : endsPiece c rest = true) :
    endsLine c rest = true := by
  obtain rfl : c = '\n' := by simpa [endsPiece] using h
  rfl

/-- Whether a row ends behind the character at an index of a text. -/
def EndsAt (ends : Char → List Char → Bool) (text : List Char) (index : Nat) : Prop :=
  ∃ c rest, text.drop index = c :: rest ∧ ends c rest = true

/-- Whether two rules end the same rows before an offset. -/
def AgreeBefore (ends ends' : Char → List Char → Bool) (text : List Char) (offset : Nat) : Prop :=
  ∀ index < offset, EndsAt ends text index ↔ EndsAt ends' text index

section Rules

variable {ends ends' : Char → List Char → Bool} {c : Char} {rest : List Char} {offset : Nat}

/-- A first character that ends a row is that row. -/
theorem cut_of_ends (h : ends c rest = true) : cut ends (c :: rest) = [c] :: cut ends rest := by
  rw [cut, if_pos h]

/-- A first character that ends no row begins the row after it. -/
theorem cut_of_not_ends (h : ends c rest = false) :
    cut ends (c :: rest) = (c :: (cut ends rest).headD []) :: (cut ends rest).tail := by
  rw [cut, if_neg (by simp [h])]
  cases cut ends rest <;> rfl

/-- Some characters are cut into some rows. -/
theorem cut_ne_nil (ends : Char → List Char → Bool) {text : List Char} (h : text ≠ []) :
    cut ends text ≠ [] := by
  obtain ⟨c, rest, rfl⟩ := List.exists_cons_of_ne_nil h
  cases hends : ends c rest with
  | true => simp [cut_of_ends hends]
  | false => simp [cut_of_not_ends hends]

@[simp] theorem endsAt_zero : EndsAt ends (c :: rest) 0 ↔ ends c rest = true := by
  simp [EndsAt]

@[simp] theorem endsAt_succ (index : Nat) :
    EndsAt ends (c :: rest) (index + 1) ↔ EndsAt ends rest index :=
  Iff.rfl

/-- Rules agree if they do so on the first character and on what comes after it. -/
theorem agreeBefore_succ : AgreeBefore ends ends' (c :: rest) (offset + 1) ↔
    ends c rest = ends' c rest ∧ AgreeBefore ends ends' rest offset := by
  rw [Bool.eq_iff_iff]
  constructor
  · exact fun h => ⟨by simpa using h 0 (Nat.zero_lt_succ _),
      fun index hindex => by simpa using h (index + 1) (Nat.succ_lt_succ hindex)⟩
  · rintro ⟨hfirst, hothers⟩ (_ | index) hindex
    · simpa using hfirst
    · simpa using hothers index (Nat.lt_of_succ_lt_succ hindex)

end Rules

/-! ### Places on a page -/

/-- The row and the column of the character at an offset, both counted from zero. -/
def placeIn (ends : Char → List Char → Bool) : List Char → Nat → Nat × Nat
  | [], offset => (0, offset)
  | _ :: _, 0 => (0, 0)
  | c :: rest, offset + 1 =>
    let place := placeIn ends rest offset
    if ends c rest then (place.1 + 1, place.2)
    else if place.1 = 0 then (0, place.2 + 1)
    else place

/-- A character in a row takes its number from the rows before it. -/
theorem number_le_locate (number offset : Nat) (rows : List (List Char)) :
    number ≤ (locate number offset rows).number := by
  induction rows generalizing number offset with
  | nil => exact Nat.le_refl _
  | cons row others ih =>
    rw [locate]
    split
    · exact Nat.le_refl _
    · exact Nat.le_of_succ_le (ih (number + 1) (offset - row.length))

/-- The place of a character that is counted is that where it is found among the rows. -/
theorem locate_cut (ends : Char → List Char → Bool) (number : Nat) {offset : Nat}
    {text : List Char} (h : offset < text.length) :
    (locate number offset (cut ends text)).number = number + (placeIn ends text offset).1 ∧
      (locate number offset (cut ends text)).column = (placeIn ends text offset).2 := by
  induction text generalizing number offset with
  | nil => cases h
  | cons c rest ih =>
    cases offset with
    | zero =>
      cases hends : ends c rest with
      | true => exact cut_of_ends hends ▸ ⟨rfl, rfl⟩
      | false => exact cut_of_not_ends hends ▸ ⟨rfl, rfl⟩
    | succ offset =>
      have hlt : offset < rest.length := Nat.lt_of_succ_lt_succ h
      rw [placeIn]
      cases hends : ends c rest with
      | true =>
        obtain ⟨hnumber, hcolumn⟩ := ih (number + 1) hlt
        rw [cut_of_ends hends, locate, if_neg (by simp), if_pos rfl]
        exact ⟨hnumber.trans (by omega), hcolumn⟩
      | false =>
        obtain ⟨hnumber, hcolumn⟩ := ih number hlt
        obtain ⟨row, others, hcut⟩ := List.exists_cons_of_ne_nil
          (cut_ne_nil ends (List.ne_nil_of_length_pos (Nat.zero_lt_of_lt hlt)))
        rw [hcut, locate] at hnumber hcolumn
        rw [cut_of_not_ends hends, hcut, List.headD_cons, List.tail_cons, locate,
          List.length_cons, Nat.add_sub_add_right, if_neg Bool.false_ne_true]
        simp only [Nat.succ_lt_succ_iff]
        -- The first character moves those of its row by one column.
        by_cases hrow : offset < row.length
        · rw [if_pos hrow] at hnumber hcolumn ⊢
          rw [if_pos (by simpa using hnumber.symm)]
          exact ⟨rfl, congrArg (· + 1) hcolumn⟩
        · rw [if_neg hrow] at hnumber hcolumn ⊢
          have hlater := number_le_locate (number + 1) (offset - row.length) others
          rw [if_neg (by omega)]
          exact ⟨hnumber, hcolumn⟩

/-- Rules that agree before an offset give it the same place. -/
theorem placeIn_eq_of_agree {ends ends' : Char → List Char → Bool} {text : List Char}
    {offset : Nat} (h : AgreeBefore ends ends' text offset) :
    placeIn ends text offset = placeIn ends' text offset := by
  induction text generalizing offset with
  | nil => rfl
  | cons c rest ih =>
    cases offset with
    | zero => rfl
    | succ offset =>
      obtain ⟨hfirst, hothers⟩ := agreeBefore_succ.1 h
      simp only [placeIn, hfirst, ih hothers]

/-- A rule that ends more rows gives greater numbers. Only where it ends no more rows before
an offset does it give the same number. -/
theorem agree_of_row_eq {ends ends' : Char → List Char → Bool}
    (hfiner : ∀ c rest, ends c rest = true → ends' c rest = true) {text : List Char}
    {offset : Nat} (hlt : offset < text.length) :
    (placeIn ends text offset).1 ≤ (placeIn ends' text offset).1 ∧
      ((placeIn ends text offset).1 = (placeIn ends' text offset).1 →
        AgreeBefore ends ends' text offset) := by
  have hrow (ends : Char → List Char → Bool) (c : Char) (rest : List Char) (offset : Nat) :
      (placeIn ends (c :: rest) (offset + 1)).1 =
        (placeIn ends rest offset).1 + if ends c rest then 1 else 0 := by
    rw [placeIn]
    split
    · rfl
    · simp only [apply_ite Prod.fst]
      split <;> simp_all
  induction text generalizing offset with
  | nil => cases hlt
  | cons c rest ih =>
    cases offset with
    | zero => exact ⟨Nat.le_refl _, fun _ _ hindex => nomatch hindex⟩
    | succ offset =>
      obtain ⟨hle, hagree⟩ := ih (Nat.lt_of_succ_lt_succ hlt)
      rw [hrow, hrow, agreeBefore_succ]
      cases hends : ends c rest with
      | true =>
        rw [hfiner c rest hends]
        exact ⟨Nat.succ_le_succ hle, fun heq => ⟨rfl, hagree (Nat.succ.inj heq)⟩⟩
      | false =>
        cases hends' : ends' c rest with
        | true => exact ⟨Nat.le_succ_of_le hle, fun heq => absurd heq (by simp; omega)⟩
        | false => exact ⟨hle, fun heq => ⟨rfl, hagree heq⟩⟩

/-! ### Rows of a page -/

/-- The rows put together are the characters that were cut. -/
theorem flatten_cut (ends : Char → List Char → Bool) (text : List Char) :
    (cut ends text).flatten = text := by
  induction text with
  | nil => rfl
  | cons c rest ih =>
    cases hends : ends c rest with
    | true => simp [cut_of_ends hends, ih]
    | false =>
      rw [cut_of_not_ends hends, List.flatten_cons, List.cons_append]
      conv => rhs; rw [← ih]
      cases cut ends rest <;> rfl

/-- The first rows are the first of them and the others. -/
theorem flatten_take_succ (rows : List (List Char)) (count : Nat) :
    (rows.take (count + 1)).flatten = rows.headD [] ++ (rows.tail.take count).flatten := by
  cases rows <;> simp

/-- Where the first rows are the same, the first of them and the others are. -/
theorem of_take_succ_eq {rows rows' : List (List Char)} {count : Nat}
    (h : rows.take (count + 1) = rows'.take (count + 1)) :
    rows.headD [] = rows'.headD [] ∧ rows.tail.take count = rows'.tail.take count := by
  cases rows <;> cases rows' <;> simp_all

/-- Rules that agree up to the end of a row cut the same rows up to it. -/
theorem take_cut_eq {ends ends' : Char → List Char → Bool} {text : List Char} {count : Nat}
    (h : AgreeBefore ends ends' text ((cut ends text).take count).flatten.length) :
    (cut ends' text).take count = (cut ends text).take count := by
  induction text generalizing count with
  | nil => rfl
  | cons c rest ih =>
    cases count with
    | zero => rfl
    | succ count =>
      cases hends : ends c rest with
      | true =>
        rw [cut_of_ends hends, List.take_succ_cons, List.flatten_cons, List.singleton_append,
          List.length_cons, agreeBefore_succ, hends] at h
        rw [cut_of_ends hends, cut_of_ends h.1.symm, List.take_succ_cons, List.take_succ_cons,
          ih h.2]
      | false =>
        rw [cut_of_not_ends hends, List.take_succ_cons, List.flatten_cons, List.cons_append,
          List.length_cons, agreeBefore_succ, hends, ← flatten_take_succ] at h
        obtain ⟨hfirst, hothers⟩ := of_take_succ_eq (ih h.2)
        rw [cut_of_not_ends hends, cut_of_not_ends h.1.symm, List.take_succ_cons,
          List.take_succ_cons, hfirst, hothers]

/-- A character of a row is found there, behind all earlier rows. -/
theorem locate_of_getElem? (number : Nat) {rows : List (List Char)} {index column : Nat}
    {row : List Char} (hrow : rows[index]? = some row) (hcolumn : column < row.length) :
    locate number ((rows.take index).flatten.length + column) rows =
      ⟨number + index, column, row⟩ := by
  induction rows generalizing number index with
  | nil => cases hrow
  | cons first others ih =>
    cases index with
    | zero =>
      obtain rfl : first = row := Option.some.inj hrow
      simp [locate, hcolumn]
    | succ index =>
      have hbehind := ih (number + 1) hrow
      have hnot : ¬ first.length + (others.take index).flatten.length + column < first.length := by
        omega
      rw [List.take_succ_cons, List.flatten_cons, List.length_append, locate, if_neg hnot,
        Nat.add_assoc, Nat.add_sub_cancel_left, hbehind, Nat.add_right_comm, Nat.add_assoc]

/-- Every character has a row. -/
theorem exists_row {rows : List (List Char)} {offset : Nat} (h : offset < rows.flatten.length) :
    ∃ index column row, rows[index]? = some row ∧ column < row.length ∧
      offset = (rows.take index).flatten.length + column := by
  induction rows generalizing offset with
  | nil => cases h
  | cons first others ih =>
    rw [List.flatten_cons, List.length_append] at h
    rcases Nat.lt_or_ge offset first.length with hlt | hge
    · exact ⟨0, offset, first, rfl, hlt, by simp⟩
    · obtain ⟨index, column, row, hrow, hcolumn, hoffset⟩ :=
        ih (show offset - first.length < others.flatten.length by omega)
      refine ⟨index + 1, column, row, hrow, hcolumn, ?_⟩
      rw [List.take_succ_cons, List.flatten_cons, List.length_append]
      omega

/-- The character at an offset stands in its row, at its column. -/
theorem getElem?_locate (number : Nat) {offset : Nat} {rows : List (List Char)}
    (h : offset < rows.flatten.length) :
    (locate number offset rows).line[(locate number offset rows).column]? =
      rows.flatten[offset]? := by
  induction rows generalizing number offset with
  | nil => cases h
  | cons row others ih =>
    rw [locate, List.flatten_cons]
    by_cases hrow : offset < row.length
    · rw [if_pos hrow, List.getElem?_append_left hrow]
    · rw [List.flatten_cons, List.length_append] at h
      rw [if_neg hrow, ih _ (by omega), List.getElem?_append_right (Nat.not_lt.1 hrow)]

/-! ### Lines of a text on a page -/

/-- Whether a line of a page ends at an index of a text where no line of the text does: at a
line break that is neither a line feed nor in front of one. -/
def Stray (text : List Char) (index : Nat) : Prop :=
  ∃ c ∈ text[index]?, isBreak c = true ∧ c ≠ '\n' ∧
    ¬(c = '\r' ∧ text[index + 1]? = some '\n')

instance (text : List Char) (index : Nat) : Decidable (Stray text index) :=
  Option.decidableExistsMem text[index]?

/-- Pages and texts are cut alike where there is no stray line break. -/
theorem agreeBefore_iff {text : List Char} {offset : Nat} :
    AgreeBefore endsPiece endsLine text offset ↔ ∀ index < offset, ¬ Stray text index := by
  refine forall₂_congr fun index _ => ?_
  cases hdrop : text.drop index with
  | nil =>
    have hnone : text[index]? = none := List.getElem?_eq_none (List.drop_eq_nil_iff.1 hdrop)
    simp [EndsAt, Stray, hdrop, hnone]
  | cons c rest =>
    have hsome : text[index]? = some c := by
      rw [← Nat.add_zero index, ← List.getElem?_drop, hdrop]
      rfl
    have hnext : text[index + 1]? = rest.head? := by
      rw [← List.getElem?_drop, hdrop, List.head?_eq_getElem?]
      rfl
    by_cases hfeed : c = '\n'
    · subst hfeed
      simp [EndsAt, Stray, hdrop, hsome, endsPiece, endsLine, isBreak]
    · simp [EndsAt, Stray, hdrop, hsome, hnext, endsPiece, endsLine, hfeed, imp_iff_not_or]

/-- The first rows of a page are the first pieces of its text if no line break of them is
stray. -/
theorem take_pageLines {text : List Char} {count : Nat}
    (h : ∀ index < ((pieces text).take count).flatten.length, ¬ Stray text index) :
    (pageLines text).take count = (pieces text).take count := by
  rw [pieces_eq_cut] at h ⊢
  rw [pageLines_eq_cut]
  exact take_cut_eq (agreeBefore_iff.2 h)

/-- The characters that end a line are white space. -/
theorem blank_of_isEnding {ending : List Char} (h : IsEnding ending) :
    ∀ c ∈ ending, isBlank c = true := by
  refine List.all_eq_true.1 ?_
  rcases h with rfl | rfl | rfl <;> decide

/-- The end of a line holds no stray line break. -/
theorem not_stray_of_ending {text before ending after : List Char} (h : IsEnding ending)
    (htext : text = before ++ ending ++ after) {index : Nat} (hle : before.length ≤ index)
    (hlt : index < before.length + ending.length) : ¬ Stray text index := by
  obtain ⟨count, rfl⟩ := Nat.exists_eq_add_of_le hle
  have hcount : count < ending.length := Nat.lt_of_add_lt_add_left hlt
  have hget (more : Nat) (hmore : count + more < ending.length) :
      text[before.length + count + more]? = ending[count + more]? := by
    rw [htext, List.append_assoc, Nat.add_assoc, List.getElem?_append_right (Nat.le_add_right ..),
      Nat.add_sub_cancel_left, List.getElem?_append_left hmore]
  rintro ⟨c, hc, -, hfeed, hreturn⟩
  rw [← Nat.add_zero (before.length + count), hget 0 hcount] at hc
  rcases h with rfl | rfl | rfl
  · cases hcount
  · obtain rfl : count = 0 := Nat.lt_one_iff.1 hcount
    exact hfeed (Option.some.inj hc).symm
  · obtain rfl | rfl : count = 0 ∨ count = 1 := by
      have : count < 2 := hcount
      omega
    · exact hreturn ⟨(Option.some.inj hc).symm, hget 1 (by decide)⟩
    · exact hfeed (Option.some.inj hc).symm

/-- A character of a line on the page of its text. Its row has the number of the line exactly
if no line break before it is stray, and then it stands at the same column. If none up to the
end of the line is, the row shows the line. -/
theorem locate_pageLines {text chars : List Char} {index column offset : Nat} {spot : Spot}
    (hline : (lines text)[index]? = some chars) (hcolumn : column < chars.length)
    (hoffset : offset = lineStart text index + column)
    (hspot : spot = locate 1 offset (pageLines text)) :
    (spot.number = index + 1 ↔ ∀ before < offset, ¬ Stray text before) ∧
      ((∀ before < offset, ¬ Stray text before) → spot.column = column) ∧
      ((∀ before < lineStart text index + chars.length, ¬ Stray text before) →
        trimEnd spot.line = trimEnd chars) ∧
      spot.line[spot.column]? = chars[column]? := by
  rw [lines, List.getElem?_map] at hline
  obtain ⟨piece, hpiece, hbody⟩ := Option.map_eq_some_iff.1 hline
  obtain ⟨ending, hending, rfl⟩ : ∃ ending, IsEnding ending ∧ piece = chars ++ ending :=
    hbody ▸ exists_ending piece
  have hupto : (pieces text).take (index + 1) =
      (pieces text).take index ++ [chars ++ ending] := by
    rw [List.take_add_one, hpiece, Option.toList_some]
  have htext : text = ((pieces text).take index).flatten ++ (chars ++ ending) ++
      ((pieces text).drop (index + 1)).flatten := by
    rw [← List.flatten_concat, ← hupto, ← List.flatten_append, List.take_append_drop,
      flatten_pieces]
  have hinside : column < (chars ++ ending).length := by
    rw [List.length_append]
    exact Nat.lt_add_right _ hcolumn
  have hlt : offset < text.length := by
    rw [htext, List.length_append, List.length_append, hoffset]
    exact Nat.lt_add_right _ (Nat.add_lt_add_left hinside _)
  -- Among the pieces, the character stands at the place that its line gives it.
  have hpieces : locate 1 offset (pieces text) = ⟨1 + index, column, chars ++ ending⟩ :=
    hoffset ▸ locate_of_getElem? 1 hpiece hinside
  obtain ⟨hrow, hplace⟩ : 1 + index = 1 + (placeIn endsPiece text offset).1 ∧
      column = (placeIn endsPiece text offset).2 := by
    have hcut := locate_cut endsPiece 1 hlt
    rwa [← pieces_eq_cut, hpieces] at hcut
  obtain ⟨hnumber, hat⟩ := locate_cut endsLine 1 hlt
  rw [← pageLines_eq_cut, ← hspot] at hnumber hat
  refine ⟨?_, fun hstray => ?_, fun hstray => ?_, ?_⟩
  · rw [← agreeBefore_iff]
    constructor
    · intro heq
      have hsame : (placeIn endsPiece text offset).1 = (placeIn endsLine text offset).1 := by
        omega
      exact (agree_of_row_eq (fun _ _ => endsLine_of_endsPiece) hlt).2 hsame
    · intro hagree
      rw [← placeIn_eq_of_agree hagree] at hnumber
      omega
  · rw [← agreeBefore_iff] at hstray
    rw [← placeIn_eq_of_agree hstray] at hat
    exact hat.trans hplace.symm
  · have hrows : (pageLines text).take (index + 1) = (pieces text).take (index + 1) := by
      refine take_pageLines fun before hbefore => ?_
      rw [hupto, List.flatten_concat] at hbefore
      rcases Nat.lt_or_ge before (lineStart text index + chars.length) with hlt | hge
      · exact hstray before hlt
      · rw [← List.append_assoc] at htext
        refine not_stray_of_ending hending htext ?_ ?_
        · rwa [List.length_append]
        · rwa [← List.append_assoc, List.length_append] at hbefore
    -- So the row is a piece, of which the line is all but the white space at its end.
    have hpage : (pageLines text)[index]? = some (chars ++ ending) := by
      rw [← List.getElem?_take_of_lt (Nat.lt_succ_self index), hrows,
        List.getElem?_take_of_lt (Nat.lt_succ_self index), hpiece]
    have hbefore : (pageLines text).take index = (pieces text).take index := by
      simpa [List.take_take] using congrArg (List.take index) hrows
    have hfound := locate_of_getElem? 1 hpage hinside
    rw [hbefore] at hfound
    rw [hspot, hoffset, lineStart, hfound]
    exact trimEnd_append (blank_of_isEnding hending) _
  · have hflat : (pageLines text).flatten = text := by rw [pageLines_eq_cut, flatten_cut]
    rw [hspot, getElem?_locate 1 (by rwa [hflat]), hflat, ← flatten_pieces text,
      ← getElem?_locate 1 (by rwa [flatten_pieces]), hpieces,
      List.getElem?_append_left hcolumn]

end BracketLisp.Report
