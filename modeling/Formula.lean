import Formula.Calculation
import Formula.Main
import Formula.Proofs.Grammar.Acceptance
import Formula.Proofs.Grammar.Reading
import Formula.Proofs.Postfix.Enclosure
import Formula.Proofs.Grammar.Composition
import Formula.Proofs.Postfix.Pointwise
import Formula.Proofs.Root.Sweep
import Formula.Proofs.Double.Packing
import Formula.Proofs.Double.Sign
import Formula.Proofs.Postfix.Dependence
import Formula.Proofs.Postfix.Written
import Formula.Proofs.Lexer.Scanner
import Formula.Proofs.Root.Bracketing
import Formula.Proofs.Decimal.Worth
import Formula.Proofs.Decimal.Notation
import Formula.Proofs.CommandLine.Agreement
import Formula.Proofs.Lexer.Failure
import Formula.Proofs.Sampling
import Formula.Proofs.Double.Nearest
import Formula.Proofs.Double.Value
import Formula.Proofs.Double.Order
import Formula.Proofs.Root.Nesting
import Formula.Proofs.Root.Chord
import Formula.Proofs.Postfix.Balance
import Formula.Proofs.Decimal.Rounding
import Formula.Proofs.Double.Alike
import Formula.Proofs.Root.Reversal
import Formula.Proofs.Root.Union
import Formula.Proofs.Root.Origin
import Formula.Proofs.Postfix.Occurrence
import Formula.Proofs.Decimal.Ties
import Formula.Proofs.Grammar.Parentheses
import Formula.Proofs.Decimal.Literal
import Formula.Proofs.Double.Interval
import Formula.Proofs.Sampling.Grid
import Formula.Proofs.Double.Difference
import Formula.Proofs.Root.Divisor
import Formula.Proofs.Decimal.Stability
import Formula.Proofs.Root.Stability
import Formula.Proofs.Settings.Override
import Formula.Proofs.Settings.Validation
import Formula.Proofs.Calculation
