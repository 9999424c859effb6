import BracketLisp.Probe
import BracketLisp.Report
import BracketLisp.Session
import BracketLisp.Proofs.Simulation.Basic
import BracketLisp.Proofs.Simulation.Operation
import BracketLisp.Proofs.Simulation.Step
import BracketLisp.Proofs.Eval.HostFree
import BracketLisp.Proofs.Eval.Fuel
import BracketLisp.Proofs.Eval.Frame
import BracketLisp.Proofs.Eval.Locality
import BracketLisp.Proofs.Form.Grammar
import BracketLisp.Proofs.Form.Reading
import BracketLisp.Proofs.Text.Line
import BracketLisp.Proofs.Text.Digit
import BracketLisp.Proofs.Text.Unit
import BracketLisp.Proofs.Token.Tiling
import BracketLisp.Proofs.Form.Origin
import BracketLisp.Proofs.Position.Offset
import BracketLisp.Proofs.Position.Counting
import BracketLisp.Proofs.Token.Offset
import BracketLisp.Proofs.Form.Alike
import BracketLisp.Proofs.Simulation.Correspondence
import BracketLisp.Proofs.Session.History
import BracketLisp.Proofs.Session.Conservative
import BracketLisp.Proofs.Session.Provenance
import BracketLisp.Proofs.Form.Unplaced
import BracketLisp.Proofs.Session.Layout
import BracketLisp.Proofs.Form.Offence
import BracketLisp.Proofs.Form.Joined
import BracketLisp.Proofs.Text.Literal
import BracketLisp.Proofs.Numeral.Decimal
import BracketLisp.Proofs.Token.Spelling
import BracketLisp.Proofs.Form.Source
import BracketLisp.Proofs.Eval.Arguments
import BracketLisp.Proofs.Environment.Namespaces
import BracketLisp.Proofs.Symbol.Family
import BracketLisp.Proofs.Eval.Blame
import BracketLisp.Proofs.Session.Sequencing
import BracketLisp.Proofs.Token.Literal
import BracketLisp.Proofs.Numeral.Separator
import BracketLisp.Proofs.Numeral.Integer
import BracketLisp.Proofs.Numeral.Float
import BracketLisp.Proofs.Form.Names
import BracketLisp.Proofs.Eval.Operands
import BracketLisp.Proofs.Eval.IntegerArithmetic
import BracketLisp.Proofs.Eval.ArithmeticKinds
import BracketLisp.Proofs.Text.Encoding
import BracketLisp.Proofs.Eval.Order
import BracketLisp.Proofs.Eval.Equality
import BracketLisp.Proofs.Eval.Bits
import BracketLisp.Proofs.Eval.Duality
import BracketLisp.Proofs.Eval.Monotone
import BracketLisp.Proofs.Eval.Loop
import BracketLisp.Proofs.Form.Outline
import BracketLisp.Proofs.Text.Blank
import BracketLisp.Proofs.Report.Page
import BracketLisp.Proofs.Report.Place
import BracketLisp.Proofs.Environment.Catalog
import BracketLisp.Proofs.Form.Call
import BracketLisp.Proofs.Session.Conversion
