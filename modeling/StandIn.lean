import StandIn.Code.Decl
import StandIn.Code.File
import StandIn.Code.Imports
import StandIn.Code.Writer
import StandIn.CommandLine.Arguments
import StandIn.CommandLine.Report
import StandIn.CommandLine.Run
import StandIn.Config.Basic
import StandIn.Config.Document
import StandIn.Config.Fault
import StandIn.Config.Formatter
import StandIn.Config.Load
import StandIn.Decoration.Layer
import StandIn.Decoration.Listening
import StandIn.Decoration.Proxy
import StandIn.Decoration.Rewiring
import StandIn.Decoration.Role
import StandIn.Doubles.Builder
import StandIn.Doubles.Factory
import StandIn.Doubles.Fields
import StandIn.Doubles.Listening
import StandIn.Doubles.Mock
import StandIn.Doubles.Mocking
import StandIn.Effect
import StandIn.Emission.Emit
import StandIn.Emission.Generator
import StandIn.Emission.Listener
import StandIn.Failure
import StandIn.Files.Path
import StandIn.Files.Tree
import StandIn.Files.Workspace
import StandIn.Main
import StandIn.Modules.Directive
import StandIn.Modules.Discovery
import StandIn.Modules.Load
import StandIn.Modules.Package
import StandIn.Name.Casing
import StandIn.Name.Reserved
import StandIn.Name.Scope
import StandIn.Name.Set
import StandIn.Operation
import StandIn.Proofs.Alike
import StandIn.Proofs.Code.Decl
import StandIn.Proofs.Code.File
import StandIn.Proofs.Code.Header
import StandIn.Proofs.Code.Resolution
import StandIn.Proofs.Code.Line
import StandIn.Proofs.Code.Rendering
import StandIn.Proofs.Decoration.Blanking
import StandIn.Proofs.Decoration.Capture
import StandIn.Proofs.Decoration.Counterpart
import StandIn.Proofs.Decoration.Entities
import StandIn.Proofs.Decoration.Exactness
import StandIn.Proofs.Decoration.Forwarding
import StandIn.Proofs.Decoration.Hygiene
import StandIn.Proofs.Decoration.Interleaving
import StandIn.Proofs.Decoration.Layer
import StandIn.Proofs.Decoration.Listening
import StandIn.Proofs.Decoration.Pairing
import StandIn.Proofs.Decoration.Qualifier
import StandIn.Proofs.Decoration.Redirection
import StandIn.Proofs.Decoration.Rewiring
import StandIn.Proofs.Decoration.Signature
import StandIn.Proofs.Decoration.Target
import StandIn.Proofs.Decoration.Written
import StandIn.Proofs.Doubles.BuilderNames
import StandIn.Proofs.Doubles.Capture
import StandIn.Proofs.Doubles.Listening
import StandIn.Proofs.Doubles.Names
import StandIn.Proofs.Doubles.Plan
import StandIn.Proofs.Doubles.Written
import StandIn.Proofs.Draft
import StandIn.Proofs.Draft.Binders
import StandIn.Proofs.Draft.Binding
import StandIn.Proofs.Draft.Exported
import StandIn.Proofs.Draft.Namesake
import StandIn.Proofs.Draft.Resolved
import StandIn.Proofs.Draft.Written
import StandIn.Proofs.Effect
import StandIn.Proofs.Emission.Deed
import StandIn.Proofs.Emission.Generator
import StandIn.Proofs.Emission.Listener
import StandIn.Proofs.Emission.Run
import StandIn.Proofs.Emission.Script
import StandIn.Proofs.Emission.Works
import StandIn.Proofs.Fails
import StandIn.Proofs.Files.Confined
import StandIn.Proofs.Files.Parent
import StandIn.Proofs.Files.Path
import StandIn.Proofs.Files.Sight
import StandIn.Proofs.Files.Store
import StandIn.Proofs.Files.Tree
import StandIn.Proofs.Files.Way
import StandIn.Proofs.Files.Workspace
import StandIn.Proofs.Modules.Discovery
import StandIn.Proofs.Modules.Frame
import StandIn.Proofs.Modules.Load
import StandIn.Proofs.Modules.Places
import StandIn.Proofs.Modules.Unread
import StandIn.Proofs.Name.Fresh
import StandIn.Proofs.Name.Scope
import StandIn.Proofs.Operation
import StandIn.Proofs.Operation.Commute
import StandIn.Proofs.Operation.Gap
import StandIn.Proofs.Operation.Harmless
import StandIn.Proofs.Operation.Isolation
import StandIn.Proofs.Operation.Nameless
import StandIn.Proofs.Operation.Prefix
import StandIn.Proofs.Operation.Works
import StandIn.Proofs.Operation.Separate
import StandIn.Proofs.Operation.Unread
import StandIn.Proofs.Source.Clause
import StandIn.Proofs.Source.File
import StandIn.Proofs.Source.Grammar
import StandIn.Proofs.Source.Import
import StandIn.Proofs.Source.Lexeme
import StandIn.Proofs.Source.Names
import StandIn.Proofs.Source.Occurrence
import StandIn.Proofs.Source.Phrase
import StandIn.Proofs.Source.Place
import StandIn.Proofs.Source.Scope
import StandIn.Proofs.Source.Tree
import StandIn.Proofs.Text.Decimal
import StandIn.Proofs.Text.Splice
import StandIn.Proofs.Text.Weave
import StandIn.Proofs.Text.Words
import StandIn.Proofs.Traversal.Dispatch
import StandIn.Proofs.Traversal.Part
import StandIn.Proofs.Traversal.Reached
import StandIn.Proofs.Traversal.Reference
import StandIn.Proofs.Traversal.Simulation
import StandIn.Proofs.Traversal.TopName
import StandIn.Proofs.Traversal.Turn
import StandIn.Proofs.TypeExpr.Names
import StandIn.Proofs.TypeExpr.Naming
import StandIn.Proofs.TypeExpr.Parameters
import StandIn.Proofs.TypeExpr.Qualifying
import StandIn.Proofs.TypeExpr.Reread
import StandIn.Proofs.TypeExpr.Written
import StandIn.Proofs.Value.Expansion
import StandIn.Proofs.Value.Instance
import StandIn.Proofs.Value.Orderly
import StandIn.Proofs.Value.Support
import StandIn.Proofs.Value.Temporary
import StandIn.Proofs.Value.Term
import StandIn.Proofs.Value.Typing
import StandIn.Proofs.Value.Words
import StandIn.Source.File
import StandIn.Source.Grammar
import StandIn.Source.Import
import StandIn.Source.Lexeme
import StandIn.Source.Phrase
import StandIn.Source.Tree
import StandIn.Text.Alphanumeric
import StandIn.Text.Blank
import StandIn.Text.Capital
import StandIn.Text.Decimal
import StandIn.Text.Edit
import StandIn.Text.Pieces
import StandIn.Text.Position
import StandIn.Text.Quoted
import StandIn.Text.Table
import StandIn.Text.Visible
import StandIn.Text.Word
import StandIn.Traversal.Dispatch
import StandIn.Traversal.Observer
import StandIn.TypeExpr.Basic
import StandIn.TypeExpr.Parameters
import StandIn.TypeExpr.Qualify
import StandIn.TypeExpr.Render
import StandIn.Value.Factory
import StandIn.Value.Local
import StandIn.Value.Primitive
import StandIn.Value.Synthesis
import StandIn.Yaml.Cursor
import StandIn.Yaml.Node
import StandIn.Yaml.Scalar
import StandIn.Yaml.Token
import StandIn.Proofs.Doubles.Implementation
import StandIn.Proofs.Value.Numbering
import StandIn.Proofs.Doubles.Filling
import StandIn.Proofs.Text.Mentions
import StandIn.Proofs.TypeExpr.Verbatim
import StandIn.Proofs.Source.Labels
import StandIn.Proofs.TypeExpr.Lowered
import StandIn.Proofs.Name.Casing
import StandIn.Proofs.Name.Usage
import StandIn.Proofs.Operation.Uncovered
import StandIn.Proofs.TypeExpr.Keeping
import StandIn.Proofs.Text.Position
import StandIn.Proofs.Source.Number
import StandIn.Proofs.Value.Length
import StandIn.Proofs.Source.Delimited
import StandIn.Proofs.Source.Range
import StandIn.Proofs.Decoration.Counting
