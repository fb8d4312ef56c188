import CSubset.Main
import CSubset.Proofs.Faults.SingleFault
import CSubset.Proofs.Scoping.Resolution
import CSubset.Proofs.Typing.Exactness
import CSubset.Proofs.Token.Lexeme
import CSubset.Proofs.Token.Partition
import CSubset.Proofs.Grammar.Positions
import CSubset.Proofs.Reports.Expr
import CSubset.Proofs.Reports.Unit
import CSubset.Proofs.Printing.Render
import CSubset.Proofs.Printing.RoundTrip
import CSubset.Proofs.Printing.Grouping
import CSubset.Proofs.Errors.ExprViability
import CSubset.Proofs.Errors.Lookahead
import CSubset.Proofs.Errors.UnitViability
import CSubset.Proofs.Errors.Acceptance
import CSubset.Proofs.Errors.FirstError
import CSubset.Proofs.Token.LineEnds
import CSubset.Proofs.Relabeling.Parse
import CSubset.Proofs.Relabeling.Check
import CSubset.Proofs.Relabeling.Layout
import CSubset.Proofs.Scoping.Growth
import CSubset.Proofs.Scoping.BlockNodes
import CSubset.Proofs.Scoping.BlockStructure
import CSubset.Proofs.Scoping.Declarations
import CSubset.Proofs.Scoping.Redeclaration
import CSubset.Proofs.Parse.Concatenation
import CSubset.Proofs.Typing.Annotations
import CSubset.Proofs.Reports.Jumps
import CSubset.Proofs.Reports.Returns
import CSubset.Proofs.Renaming.Report
import CSubset.Proofs.Reports.Extension
import CSubset.Proofs.Reports.Reordering
import CSubset.Proofs.CommandLine.Lines
import CSubset.Proofs.Reports.MissingReturns
import CSubset.Proofs.Errors.EndOfInput
import CSubset.Proofs.Parse.Readings
import CSubset.Proofs.Parse.OwnTokens
import CSubset.Proofs.Typing.CompoundAssignment
import CSubset.Proofs.Scoping.BindingHistory
import CSubset.Proofs.Token.Blanking
import CSubset.Proofs.Token.Display
import CSubset.Proofs.Token.Numbers
import CSubset.Proofs.Token.OnDemand
import CSubset.Proofs.Parse.Reuse
import CSubset.Proofs.Events.Nesting
import CSubset.Proofs.Parse.Traversal
import CSubset.Proofs.Printing.PrefixForm
import CSubset.Proofs.Typing.OperatorLaws
import CSubset.Proofs.Typing.Constants
import CSubset.Proofs.Parse.Advance
