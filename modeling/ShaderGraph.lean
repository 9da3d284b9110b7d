import ShaderGraph.Build
import ShaderGraph.BuildError
import ShaderGraph.Command.Arguments
import ShaderGraph.Command.Run
import ShaderGraph.Decimal.Double
import ShaderGraph.Decimal.Shortest
import ShaderGraph.Diagnostic
import ShaderGraph.Dict
import ShaderGraph.Digest.Sha256
import ShaderGraph.Files
import ShaderGraph.Graph
import ShaderGraph.Graph.Certificate
import ShaderGraph.Graph.Dot
import ShaderGraph.Graph.Order
import ShaderGraph.Identifier
import ShaderGraph.Json.Failure
import ShaderGraph.Json.Numeral
import ShaderGraph.Json.Reader
import ShaderGraph.Json.Record
import ShaderGraph.Json.Skip
import ShaderGraph.Json.Value
import ShaderGraph.Json.Writer
import ShaderGraph.Library
import ShaderGraph.Library.NodeType
import ShaderGraph.Library.Update
import ShaderGraph.Main
import ShaderGraph.Node
import ShaderGraph.Program
import ShaderGraph.Program.Code
import ShaderGraph.Program.StorageName
import ShaderGraph.Program.Words
import ShaderGraph.Provenance
import ShaderGraph.Template.Render
import ShaderGraph.Template.Segment
import ShaderGraph.Template.Token
import ShaderGraph.Text
import ShaderGraph.Text.Printable
import ShaderGraph.Text.WordChar
import ShaderGraph.Proofs.Feeds
import ShaderGraph.Proofs.Search
import ShaderGraph.Proofs.Certificate
import ShaderGraph.Proofs.Order
import ShaderGraph.Proofs.Check
import ShaderGraph.Proofs.Storage
import ShaderGraph.Proofs.Copies
import ShaderGraph.Proofs.Build
import ShaderGraph.Proofs.Source
import ShaderGraph.Proofs.Dataflow
import ShaderGraph.Proofs.Library
import ShaderGraph.Proofs.Assembly
import ShaderGraph.Proofs.Faults
import ShaderGraph.Proofs.Verdict
import ShaderGraph.Proofs.Words
import ShaderGraph.Proofs.Declarations
import ShaderGraph.Proofs.Scope
import ShaderGraph.Proofs.Permutation
import ShaderGraph.Proofs.Tokens
import ShaderGraph.Proofs.Grammar
import ShaderGraph.Proofs.Descent
import ShaderGraph.Proofs.Printing
import ShaderGraph.Proofs.Loading
import ShaderGraph.Proofs.Json.Scalar
import ShaderGraph.Proofs.Json.Value
import ShaderGraph.Proofs.Json.Record
import ShaderGraph.Proofs.GraphFiles
import ShaderGraph.Proofs.Agreement
import ShaderGraph.Proofs.Splits
import ShaderGraph.Proofs.Canonical
import ShaderGraph.Proofs.Core
import ShaderGraph.Proofs.Inert
import ShaderGraph.Proofs.Runs
import ShaderGraph.Proofs.Warnings
import ShaderGraph.Proofs.Scan
import ShaderGraph.Proofs.Stages
import ShaderGraph.Proofs.Recursion
import ShaderGraph.Proofs.Registration
import ShaderGraph.Proofs.LongestMatch
import ShaderGraph.Proofs.Spans
import ShaderGraph.Proofs.Viable
import ShaderGraph.Proofs.Tagless
import ShaderGraph.Proofs.References
import ShaderGraph.Proofs.Layout
import ShaderGraph.Proofs.Seams
import ShaderGraph.Proofs.Drawing
import ShaderGraph.Proofs.Labels
import ShaderGraph.Proofs.Delivery
import ShaderGraph.Proofs.Identifiers
import ShaderGraph.Proofs.Listing
import ShaderGraph.Proofs.Sweep
