import SchemaTree.FileTree
import SchemaTree.Main
import SchemaTree.Proofs.FirstFailure
import SchemaTree.Proofs.Graph
import SchemaTree.Proofs.Traversal
import SchemaTree.Proofs.Schema.Occurrences
import SchemaTree.Proofs.Schema.Deferrals
import SchemaTree.Proofs.Walk.Builds
import SchemaTree.Proofs.Walk.Stops
import SchemaTree.Proofs.Walk.Flat
import SchemaTree.Proofs.Walk.Growth
import SchemaTree.Proofs.Walk.Calls
import SchemaTree.Proofs.Walk.Sound
import SchemaTree.Proofs.Walk.Restored
import SchemaTree.Proofs.Walk.Tasks
import SchemaTree.Proofs.Walk.Ended
import SchemaTree.Proofs.Walk.Pending
import SchemaTree.Proofs.Walk.Completed
import SchemaTree.Proofs.Catalog.Accepted
import SchemaTree.Proofs.Catalog.Closed
import SchemaTree.Proofs.Handlers.Standard
import SchemaTree.Proofs.Compiler.Unfolding
import SchemaTree.Proofs.Json.Members
import SchemaTree.Proofs.Schema.Document
import SchemaTree.Proofs.Compiler.Legible
import SchemaTree.Proofs.Compiler.Cycles
import SchemaTree.Proofs.Compiler.Depth
import SchemaTree.Proofs.Compiler.References
import SchemaTree.Proofs.Compiler.Introspection
import SchemaTree.Proofs.Compiler.Sessions
import SchemaTree.Proofs.Resolution.Leads
import SchemaTree.Proofs.Compiler.Failure
import SchemaTree.Proofs.Catalog.Loaded
import SchemaTree.Proofs.Catalog.Language
import SchemaTree.Proofs.Catalog.Exact
import SchemaTree.Proofs.Catalog.Written
import SchemaTree.Proofs.Catalog.Lossless
import SchemaTree.Proofs.Json.Local
import SchemaTree.Proofs.Json.Prefix
import SchemaTree.Proofs.Json.Intact
import SchemaTree.Proofs.Catalog.Whole
import SchemaTree.Proofs.Number.Magnitude
import SchemaTree.Proofs.Json.Regular
import SchemaTree.Proofs.Compiler.Identity
import SchemaTree.Proofs.Catalog.Bounds
import SchemaTree.Proofs.Json.Pointer
import SchemaTree.Proofs.Schema.Places
import SchemaTree.Proofs.Schema.Checked
import SchemaTree.Proofs.Compiler.Checked
import SchemaTree.Proofs.Catalog.Order
import SchemaTree.Proofs.Schema.Replacing
import SchemaTree.Proofs.Resolution.Rewriting
import SchemaTree.Proofs.Compiler.Resolution
import SchemaTree.Proofs.Compiler.Flattening
import SchemaTree.Proofs.Compiler.Standalone
import SchemaTree.Proofs.Compiler.Locality
import SchemaTree.Proofs.Json.Distinct
import SchemaTree.Proofs.Json.Evaluation
import SchemaTree.Proofs.Check.Exact
import SchemaTree.Proofs.Catalog.Agreement
import SchemaTree.Proofs.CommandLine.Jobs
import SchemaTree.Proofs.Compiler.Patterns
import SchemaTree.Proofs.CommandLine.Check
import SchemaTree.Proofs.Catalog.Unambiguous
import SchemaTree.Proofs.Compiler.Declared
import SchemaTree.Proofs.Compiler.Annotations
import SchemaTree.Proofs.Compiler.Bounds
import SchemaTree.Proofs.Pipeline.History
import SchemaTree.Proofs.Handlers.Repeated
import SchemaTree.Proofs.Format.Guess
import SchemaTree.Proofs.CommandLine.Schemas
