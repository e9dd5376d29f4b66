import MiddleEnd.Check
import MiddleEnd.Code.Basic
import MiddleEnd.Code.Editor
import MiddleEnd.Code.Leaf
import MiddleEnd.Code.Literal
import MiddleEnd.Code.Text
import MiddleEnd.Code.Visitor
import MiddleEnd.CodeTree.Attributes
import MiddleEnd.CodeTree.Basic
import MiddleEnd.CodeTree.Reader
import MiddleEnd.CodeTree.Writer
import MiddleEnd.Compile
import MiddleEnd.Diagnostic
import MiddleEnd.Exchange.Code
import MiddleEnd.Exchange.CodeReader
import MiddleEnd.Exchange.Fields
import MiddleEnd.Exchange.Report
import MiddleEnd.Exchange.Universe
import MiddleEnd.Exchange.UniverseReader
import MiddleEnd.Json.Decode
import MiddleEnd.Json.Draft
import MiddleEnd.Json.Value
import MiddleEnd.Lowering.Basic
import MiddleEnd.Lowering.Code
import MiddleEnd.Lowering.Declaration
import MiddleEnd.Lowering.Name
import MiddleEnd.Number.Binary
import MiddleEnd.Number.Decimal
import MiddleEnd.Number.FloatRead
import MiddleEnd.Number.FloatText
import MiddleEnd.Number.Overflow
import MiddleEnd.Number.Search
import MiddleEnd.Number.Shortest
import MiddleEnd.Pass.Basic
import MiddleEnd.Pass.Binding
import MiddleEnd.Pass.Checked
import MiddleEnd.Pass.Conditional
import MiddleEnd.Pass.Contract
import MiddleEnd.Pass.Guard
import MiddleEnd.Pass.Pipeline
import MiddleEnd.Pass.Precondition
import MiddleEnd.Pass.WellKnown
import MiddleEnd.Proofs.Code.Editing
import MiddleEnd.Proofs.Code.Occurrence
import MiddleEnd.Proofs.Code.Rewriting
import MiddleEnd.Proofs.Guard.Step
import MiddleEnd.Sample
import MiddleEnd.Source.Document
import MiddleEnd.Text.Escape
import MiddleEnd.Text.Split
import MiddleEnd.Trace
import MiddleEnd.Universe.Arena
import MiddleEnd.Universe.Basic
import MiddleEnd.Universe.Fault
import MiddleEnd.Universe.Flags
import MiddleEnd.Universe.Id
import MiddleEnd.Universe.Member
import MiddleEnd.Universe.Module
import MiddleEnd.Universe.ModuleText
import MiddleEnd.Universe.Name
import MiddleEnd.Universe.Unit
import MiddleEnd.Proofs.Guard.Erasure
import MiddleEnd.Proofs.Code.Access
import MiddleEnd.Proofs.Guard.Coverage
import MiddleEnd.Proofs.Except
import MiddleEnd.Proofs.Universe.Lookup
import MiddleEnd.Proofs.Code.Read
import MiddleEnd.Proofs.Conditional.Survival
import MiddleEnd.Proofs.Pipeline.Temporaries
import MiddleEnd.Proofs.Universe.Closed
import MiddleEnd.Proofs.Pass.Run
import MiddleEnd.Proofs.Code.Names
import MiddleEnd.Proofs.Binding.Names
import MiddleEnd.Proofs.Guard.Names
import MiddleEnd.Proofs.Conditional.Names
import MiddleEnd.Proofs.Code.Visiting
import MiddleEnd.Proofs.Precondition.Collection
import MiddleEnd.Proofs.Pipeline.Run
import MiddleEnd.Proofs.Lowering.Code
import MiddleEnd.Proofs.Universe.Fresh
import MiddleEnd.Proofs.Lowering.Declaration
import MiddleEnd.Proofs.Compilation.Closed
import MiddleEnd.Proofs.CodeTree.Unknown
import MiddleEnd.Proofs.Lowering.Accounting
import MiddleEnd.Proofs.CodeTree.Mending
import MiddleEnd.Proofs.Lowering.Containment
import MiddleEnd.Proofs.Universe.Nesting
import MiddleEnd.Proofs.Lowering.Nesting
import MiddleEnd.Proofs.Conditional.Deletion
import MiddleEnd.Proofs.Conditional.DeadCalls
import MiddleEnd.Proofs.Json.Scanning
import MiddleEnd.Proofs.Json.Decoding
import MiddleEnd.Proofs.CodeTree.Recasting
import MiddleEnd.Proofs.CodeTree.Leaves
import MiddleEnd.Proofs.CodeTree.Rereading
import MiddleEnd.Proofs.CodeTree.Writing
import MiddleEnd.Proofs.CodeTree.Nested
import MiddleEnd.Proofs.CodeTree.Reading
import MiddleEnd.Proofs.CodeTree.RoundTrip
import MiddleEnd.Proofs.Universe.View
import MiddleEnd.Proofs.Universe.Outline
import MiddleEnd.Proofs.Pass.Revision
import MiddleEnd.Proofs.Pipeline.Order
import MiddleEnd.Proofs.Code.Sourceless
import MiddleEnd.Proofs.Code.Commuting
import MiddleEnd.Proofs.Universe.Sourceless
import MiddleEnd.Proofs.Pass.Sourceless
import MiddleEnd.Proofs.Pipeline.Sourceless
import MiddleEnd.Proofs.Lowering.Sourceless
import MiddleEnd.Proofs.Compilation.Sourceless
import MiddleEnd.Proofs.Universe.Bodies
import MiddleEnd.Proofs.Pass.Frame
import MiddleEnd.Proofs.Pass.Likeness
import MiddleEnd.Proofs.Pipeline.Reuse
import MiddleEnd.Proofs.Conditional.Settled
import MiddleEnd.Proofs.Pipeline.Idempotence
import MiddleEnd.Proofs.Guard.Unguarded
import MiddleEnd.Proofs.Precondition.Spills
import MiddleEnd.Proofs.Precondition.Facts
import MiddleEnd.Proofs.Precondition.Tracking
import MiddleEnd.Proofs.Precondition.Guards
import MiddleEnd.Proofs.Code.Usage
import MiddleEnd.Proofs.Guard.Counting
import MiddleEnd.Proofs.Guard.Freshness
import MiddleEnd.Proofs.Code.Wrapping
import MiddleEnd.Proofs.Conditional.Remains
import MiddleEnd.Proofs.Pass.Wrapping
import MiddleEnd.Proofs.Universe.Reach
import MiddleEnd.Proofs.Pass.Contracts
import MiddleEnd.Proofs.Lowering.Chain
import MiddleEnd.Proofs.Pipeline.Shielding
import MiddleEnd.Proofs.Binding.Opening
import MiddleEnd.Proofs.Pipeline.Opening
import MiddleEnd.Proofs.Compilation.Opening
import MiddleEnd.Proofs.CodeTree.Required
import MiddleEnd.Proofs.Lowering.Holes
import MiddleEnd.Proofs.Lowering.Entering
import MiddleEnd.Proofs.Lowering.Constructors
import MiddleEnd.Proofs.Lowering.Properties
import MiddleEnd.Proofs.Lowering.Kinds
import MiddleEnd.Proofs.Universe.Enclosing
import MiddleEnd.Proofs.Precondition.Distinct
import MiddleEnd.Proofs.Precondition.Attachment
import MiddleEnd.Proofs.Precondition.Cleared
import MiddleEnd.Proofs.Code.Bare
import MiddleEnd.Proofs.Code.Paths
import MiddleEnd.Proofs.Guard.Places
import MiddleEnd.Proofs.Text.Split
import MiddleEnd.Proofs.Binding.DottedName
import MiddleEnd.Proofs.Guard.Dangling
import MiddleEnd.Proofs.Universe.Preorder
import MiddleEnd.Proofs.Compilation.Enumeration
import MiddleEnd.Proofs.Lowering.References
import MiddleEnd.Proofs.Code.Everywhere
import MiddleEnd.Proofs.Pass.Reached
import MiddleEnd.Proofs.Binding.FixedPoint
import MiddleEnd.Proofs.Number.Search
import MiddleEnd.Proofs.Source.Cuts
import MiddleEnd.Proofs.Source.Table
import MiddleEnd.Proofs.Source.Position
import MiddleEnd.Proofs.Source.Lines
import MiddleEnd.Proofs.Source.Underline
import MiddleEnd.Proofs.Source.Partition
import MiddleEnd.Proofs.Code.Recording
import MiddleEnd.Proofs.Number.Numeral
import MiddleEnd.Proofs.Pass.Checked
