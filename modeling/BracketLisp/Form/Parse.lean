import BracketLisp.Form
import BracketLisp.Numeral.Float
import BracketLisp.Token.Scan

/-!
# `BracketLisp.Form.Parse`: from items to forms

The parser takes the items of a text one by one. It keeps the lists that are still
open, innermost first, each with the elements it has got so far, and the forms that
are complete. Symbols get their numbers as they come, so a text that turns out not to
parse leaves the numbers of the symbols before its fault.

* `classify` turns the text of a bare token into a number or a symbol.
* `Progress.take` says what one item does, and `Progress.finish` what the end of the
  text does.
* `parse` does both for a whole text.
-/

set_option autoImplicit false

namespace BracketLisp

namespace Parse

/-- A list whose closing bracket has not come. Its latest element stands first. -/
structure OpenList where
  bracket : Bracket
  latest : List Element
  span : Position

/-- The list as a form with the elements in their order. -/
def OpenList.form (pending : OpenList) : Form :=
  ⟨pending.bracket, pending.latest.reverse, pending.span⟩

/-- How far a text has been read: the open lists with the innermost first, the forms
with the latest first, and the symbols. -/
structure Progress where
  pending : List OpenList
  latest : List Form
  symbols : SymbolTable

/-- What is known before the first item. -/
def start (symbols : SymbolTable) : Progress :=
  ⟨[], [], symbols⟩

/-- Adds an element to the innermost open list. Outside of all lists only lists may
stand. -/
def Progress.add (progress : Progress) (element : Element) : Except ParseError Progress :=
  match progress.pending with
  | [] => .error ⟨.atomAtTopLevel, element.span⟩
  | innermost :: outer =>
    .ok { progress with
      pending := { innermost with latest := element :: innermost.latest } :: outer }

/-- Adds a complete list to the innermost open list, or to the forms. -/
def Progress.complete (progress : Progress) (form : Form) : Progress :=
  match progress.pending with
  | [] => { progress with latest := form :: progress.latest }
  | innermost :: outer =>
    { progress with
      pending := { innermost with latest := form.element :: innermost.latest } :: outer }

/-- Closes the innermost open list, which has to be of the same kind. -/
def Progress.close (progress : Progress) (bracket : Bracket) (span : Position) :
    Except ParseError Progress :=
  match progress.pending with
  | [] => .error ⟨.unexpectedChar bracket.closing, span⟩
  | innermost :: outer =>
    if innermost.bracket = bracket then
      .ok (Progress.complete { progress with pending := outer } innermost.form)
    else
      .error ⟨.unexpectedChar bracket.closing, span⟩

/-- The element that a bare token reads as: an integer if it can be one, else a float
if it can be one, else a symbol, which gets a number. -/
def classify (symbols : SymbolTable) (name : String) (span : Position) :
    Element × SymbolTable :=
  match Numeral.integer? name.toList with
  | some value => (.int value span, symbols)
  | none =>
    match Numeral.float? name.toList with
    | some value => (.float value span, symbols)
    | none =>
      let (id, symbols) := symbols.intern name
      (.symbol id span, symbols)

/-- What a token does. -/
def Progress.takeToken (progress : Progress) (token : Token) (span : Position) :
    Except ParseError Progress :=
  match token with
  | .space | .tab | .comment _ => .ok progress
  | .opening bracket =>
    .ok { progress with pending := ⟨bracket, [], span⟩ :: progress.pending }
  | .closing bracket => progress.close bracket span
  | .literal content => progress.add (.string content span)
  | .symbol name =>
    if progress.pending.isEmpty then
      .error ⟨.atomAtTopLevel, span⟩
    else
      let (element, symbols) := classify progress.symbols name span
      Progress.add { progress with symbols } element

/-- What an item does. -/
def Progress.take (progress : Progress) (item : Item) : Except ParseError Progress :=
  match item.reading with
  | .ok token => progress.takeToken token item.start
  | .error error => .error error

/-- What the end of the text, at `stop`, makes of the progress: the forms, unless a
list is still open. -/
def Progress.finish (progress : Progress) (stop : Position) : Except ParseError (List Form) :=
  if progress.pending.isEmpty then
    .ok progress.latest.reverse
  else
    .error ⟨.unclosedList, stop⟩

/-- Takes items up to the first that offends, and gives the forms or the error, and in
both cases the symbols known by then. -/
def Progress.run (progress : Progress) (stop : Position) :
    List Item → Except ParseError (List Form) × SymbolTable
  | [] => (progress.finish stop, progress.symbols)
  | item :: others =>
    match progress.take item with
    | .ok progress => progress.run stop others
    | .error error => (.error error, progress.symbols)

end Parse

/-- The forms of a text, or its first error, and the symbols known afterwards. -/
def parse (source : String) (text : List Char) (symbols : SymbolTable) :
    Except ParseError (List Form) × SymbolTable :=
  (Parse.start symbols).run (endOf source text) (scan source text)

end BracketLisp
