import RegisterCalc.CommandLine
import RegisterCalc.Evaluation.Basic
import RegisterCalc.Evaluation.Fault
import RegisterCalc.Evaluation.Folding
import RegisterCalc.Evaluation.Operation
import RegisterCalc.Main
import RegisterCalc.Number.Binary64
import RegisterCalc.Number.Decimal
import RegisterCalc.Number.Nearest
import RegisterCalc.Number.Shortest
import RegisterCalc.Number.Word
import RegisterCalc.Program
import RegisterCalc.Proofs.Descent.AnyTokens
import RegisterCalc.Proofs.Descent.Calls
import RegisterCalc.Proofs.Descent.Machine
import RegisterCalc.Proofs.Descent.Safety
import RegisterCalc.Proofs.Descent.Scans
import RegisterCalc.Proofs.Descent.Simulation
import RegisterCalc.Proofs.Evaluation.BitOperators
import RegisterCalc.Proofs.Evaluation.Constants
import RegisterCalc.Proofs.Evaluation.ExactBits
import RegisterCalc.Proofs.Evaluation.Faults
import RegisterCalc.Proofs.Evaluation.Folding
import RegisterCalc.Proofs.Evaluation.Frame
import RegisterCalc.Proofs.Evaluation.Functions
import RegisterCalc.Proofs.Evaluation.Postorder
import RegisterCalc.Proofs.Grammar.Beginning
import RegisterCalc.Proofs.Grammar.Completeness
import RegisterCalc.Proofs.Grammar.Course
import RegisterCalc.Proofs.Grammar.Derivation
import RegisterCalc.Proofs.Grammar.EarliestFault
import RegisterCalc.Proofs.Grammar.Exactness
import RegisterCalc.Proofs.Grammar.Following
import RegisterCalc.Proofs.Grammar.Lookahead
import RegisterCalc.Proofs.Grammar.NestingLimit
import RegisterCalc.Proofs.Grammar.Precedence
import RegisterCalc.Proofs.Grammar.Provenance
import RegisterCalc.Proofs.Grammar.Reading
import RegisterCalc.Proofs.Grammar.Refusing
import RegisterCalc.Proofs.Grammar.Relocation
import RegisterCalc.Proofs.Grammar.Soundness
import RegisterCalc.Proofs.Grammar.Unambiguous
import RegisterCalc.Proofs.Number.Bits
import RegisterCalc.Proofs.Number.NearestEven
import RegisterCalc.Proofs.Number.Numeral
import RegisterCalc.Proofs.Number.Points
import RegisterCalc.Proofs.Number.Rounding
import RegisterCalc.Proofs.Number.WholeNumbers
import RegisterCalc.Proofs.Registers.Entries
import RegisterCalc.Proofs.Registers.Histories
import RegisterCalc.Proofs.Session.Assignments
import RegisterCalc.Proofs.Session.Capacity
import RegisterCalc.Proofs.Session.Colours
import RegisterCalc.Proofs.Session.Deletion
import RegisterCalc.Proofs.Session.Diagnostics
import RegisterCalc.Proofs.Session.LineEnds
import RegisterCalc.Proofs.Session.RegisterNumerals
import RegisterCalc.Proofs.Session.Retyping
import RegisterCalc.Proofs.Session.Runs
import RegisterCalc.Proofs.Session.Spacing
import RegisterCalc.Proofs.Session.Transcript
import RegisterCalc.Proofs.Terminal.Decoration
import RegisterCalc.Proofs.Terminal.Labels
import RegisterCalc.Proofs.Terminal.Outlines
import RegisterCalc.Proofs.Text.Deletion
import RegisterCalc.Proofs.Text.Lines
import RegisterCalc.Proofs.Token.Lexing
import RegisterCalc.Proofs.Token.Numerals
import RegisterCalc.Proofs.Token.Scanning
import RegisterCalc.Proofs.Token.Separation
import RegisterCalc.Proofs.Token.Tiling
import RegisterCalc.Proofs.Tree.Addresses
import RegisterCalc.Proofs.Tree.Anchors
import RegisterCalc.Proofs.Tree.Height
import RegisterCalc.Proofs.Tree.Literals
import RegisterCalc.Proofs.Tree.Paths
import RegisterCalc.Proofs.Tree.Positions
import RegisterCalc.Proofs.Tree.Refolding
import RegisterCalc.Proofs.Tree.RoundTrip
import RegisterCalc.Proofs.Tree.Spelling
import RegisterCalc.Registers
import RegisterCalc.Session.Basic
import RegisterCalc.Session.Config
import RegisterCalc.Session.Log
import RegisterCalc.Session.Run
import RegisterCalc.Statement
import RegisterCalc.Terminal.Caret
import RegisterCalc.Terminal.Outline
import RegisterCalc.Terminal.Palette
import RegisterCalc.Text.Blank
import RegisterCalc.Text.Lines
import RegisterCalc.Text.Position
import RegisterCalc.Text.Printable
import RegisterCalc.Text.Quoted
import RegisterCalc.Token.Basic
import RegisterCalc.Token.Lexer
import RegisterCalc.Token.Symbol
import RegisterCalc.Tree.Basic
import RegisterCalc.Tree.Fault
import RegisterCalc.Tree.Function
import RegisterCalc.Tree.Nesting
import RegisterCalc.Tree.Operator
import RegisterCalc.Tree.Reader
import RegisterCalc.Tree.SourceText
