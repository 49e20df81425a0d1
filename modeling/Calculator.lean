import Calculator.Binary64
import Calculator.CommandLine
import Calculator.Decimal
import Calculator.Decimal.Shortest
import Calculator.Evaluator
import Calculator.Main
import Calculator.Nesting
import Calculator.Number
import Calculator.Number.Arithmetic
import Calculator.Number.Text
import Calculator.Operator
import Calculator.Phrase
import Calculator.Phrase.Lossless
import Calculator.Phrase.Parser
import Calculator.Proofs.ArithmeticOnly
import Calculator.Proofs.Balance
import Calculator.Proofs.Composition
import Calculator.Proofs.Culprits
import Calculator.Proofs.DecimalValues
import Calculator.Proofs.Derivation
import Calculator.Proofs.DoubleValues
import Calculator.Proofs.Enclosed
import Calculator.Proofs.Evaluation
import Calculator.Proofs.ExactCounts
import Calculator.Proofs.ExactDoubles
import Calculator.Proofs.ExactIntegers
import Calculator.Proofs.Grammar
import Calculator.Proofs.IntegerRange
import Calculator.Proofs.Levels
import Calculator.Proofs.Lexemes
import Calculator.Proofs.NumberTexts
import Calculator.Proofs.NumberValues
import Calculator.Proofs.Numerals
import Calculator.Proofs.OneLine
import Calculator.Proofs.OpenBrackets
import Calculator.Proofs.OwnLevel
import Calculator.Proofs.Packing
import Calculator.Proofs.Parts
import Calculator.Proofs.Pieces
import Calculator.Proofs.Powers
import Calculator.Proofs.Primaries
import Calculator.Proofs.Reading
import Calculator.Proofs.ReadingBack
import Calculator.Proofs.RealNesting
import Calculator.Proofs.Refusals
import Calculator.Proofs.Rejoining
import Calculator.Proofs.Repetitions
import Calculator.Proofs.Results
import Calculator.Proofs.Rounding
import Calculator.Proofs.RunningOn
import Calculator.Proofs.Shift
import Calculator.Proofs.Slices
import Calculator.Proofs.Surroundings
import Calculator.Proofs.Transcripts
import Calculator.Proofs.TreeNesting
import Calculator.Proofs.ViablePrefixes
import Calculator.Proofs.WellFormed
import Calculator.Proofs.Whitelist
import Calculator.Proofs.WholeDivision
import Calculator.Rejection
import Calculator.Session
import Calculator.Text.Alphabetic
import Calculator.Text.Blank
import Calculator.Text.Numeric
import Calculator.Text.Ranges
import Calculator.Text.Span
import Calculator.Token
import Calculator.Token.Lexer
import Calculator.Tree
import Calculator.Tree.Evaluation
import Calculator.Tree.OfPhrase
