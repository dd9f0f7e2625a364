import Formula.Main
import Formula.Proofs.Tree
import Formula.Proofs.TreeDepth
import Formula.Proofs.Evaluation
import Formula.Proofs.Uniform
import Formula.Proofs.DepthLimit
import Formula.Proofs.Rules
import Formula.Proofs.Computations
import Formula.Proofs.Guards
import Formula.Proofs.Fallbacks
import Formula.Proofs.Bound
import Formula.Proofs.PathGrammar
import Formula.Proofs.PathScan
import Formula.Proofs.Scopes
import Formula.Proofs.ReturnTypes
import Formula.Proofs.FirstError
import Formula.Proofs.Environment
import Formula.Proofs.Messages
import Formula.Proofs.Shapes
import Formula.Proofs.Substitution
import Formula.Proofs.Extension
import Formula.Proofs.Levels
import Formula.Proofs.Folding
import Formula.Proofs.Dates
import Formula.Proofs.Gregorian
import Formula.Proofs.StrictCalls
import Formula.Proofs.TimestampText
import Formula.Proofs.Timestamps
import Formula.Proofs.Ticks
import Formula.Proofs.Offsets
import Formula.Proofs.TickArithmetic
import Formula.Proofs.DoubleOrder
import Formula.Proofs.Doubles
import Formula.Proofs.DoubleProducts
import Formula.Proofs.Shifts
import Formula.Proofs.CalendarFields
import Formula.Proofs.JsonValues
import Formula.Proofs.PathJoin
import Formula.Proofs.Iteration
import Formula.Proofs.IntegerArithmetic
import Formula.Proofs.Lookups
import Formula.Proofs.Powers
import Formula.Proofs.Equality
import Formula.Proofs.Comparisons
import Formula.Proofs.Extremes
import Formula.Proofs.Connectives
import Formula.Proofs.Nesting
import Formula.Proofs.Filters
import Formula.Proofs.Checks
import Formula.Proofs.Binding
import Formula.Proofs.TreeDecoding
import Formula.Proofs.Cultures
import Formula.Proofs.DecimalRounding
import Formula.Proofs.ShortestDigits
import Formula.Proofs.Numerals
import Formula.Proofs.Conversions
import Formula.Proofs.Registration
import Formula.Proofs.Substrings
