import Exemplar.Collection.Configuration
import Exemplar.Collection.Item
import Exemplar.CommandLine.Arguments
import Exemplar.CommandLine.Execution
import Exemplar.CommandLine.Help
import Exemplar.CommandLine.Suggestion
import Exemplar.CommandLine.Target
import Exemplar.Engine.Basic
import Exemplar.Engine.Drive
import Exemplar.Example.Forest
import Exemplar.Example.Outline
import Exemplar.Example.Statement
import Exemplar.Failure
import Exemplar.Failure.Located
import Exemplar.Failure.Message
import Exemplar.Main
import Exemplar.Number.Binary64
import Exemplar.Number.Complex
import Exemplar.Number.Decimal
import Exemplar.Number.Fraction
import Exemplar.Number.Reading
import Exemplar.Number.Shortest
import Exemplar.Program.Data
import Exemplar.Program.Member
import Exemplar.Program.Outcome
import Exemplar.Program.Read
import Exemplar.Program.Run
import Exemplar.Program.Syntax
import Exemplar.Program.Term
import Exemplar.Registry.Basic
import Exemplar.Registry.Loader
import Exemplar.Samples
import Exemplar.Schema.Check
import Exemplar.Schema.Issue
import Exemplar.Schema.Model
import Exemplar.Scope.Bindings
import Exemplar.Scope.Body
import Exemplar.Scope.Experiment
import Exemplar.Scope.Host
import Exemplar.Scope.Layers
import Exemplar.Scope.Modules
import Exemplar.Scope.Shape
import Exemplar.Scope.Signature
import Exemplar.Scope.Variables
import Exemplar.Session.Basic
import Exemplar.Session.Blocks
import Exemplar.Session.Handles
import Exemplar.Settings
import Exemplar.Specification.Run
import Exemplar.Text.Lines
import Exemplar.Text.Printable
import Exemplar.Text.Quoted
import Exemplar.Value.Argument
import Exemplar.Value.Arithmetic
import Exemplar.Value.Basic
import Exemplar.Value.DeepEqual
import Exemplar.Value.Equality
import Exemplar.Value.Kind
import Exemplar.Value.Plain
import Exemplar.Value.Text
import Exemplar.Verb.Builtin
import Exemplar.Verb.Group
import Exemplar.Yaml.Document
import Exemplar.Yaml.Implicit
import Exemplar.Yaml.Node
import Exemplar.Yaml.Style
import Exemplar.Yaml.Writer
import Exemplar.Proofs.Store
import Exemplar.Proofs.Depth
import Exemplar.Proofs.Traversal
import Exemplar.Proofs.Scripts
import Exemplar.Proofs.Elements
import Exemplar.Proofs.Wording
import Exemplar.Proofs.Definitions
import Exemplar.Proofs.Evaluation
import Exemplar.Proofs.Accord
import Exemplar.Proofs.Program
import Exemplar.Proofs.Registration
import Exemplar.Proofs.History
import Exemplar.Proofs.Handlers
import Exemplar.Proofs.Reachable
import Exemplar.Proofs.Compilation
import Exemplar.Proofs.Trial
import Exemplar.Proofs.Testing
import Exemplar.Proofs.SyncRun
import Exemplar.Proofs.Listing
import Exemplar.Proofs.Unseen
import Exemplar.Proofs.Items
import Exemplar.Proofs.Collected
import Exemplar.Proofs.Isolation
import Exemplar.Proofs.Bisimilar
import Exemplar.Proofs.Lookups
import Exemplar.Proofs.Exploring
import Exemplar.Proofs.DeepEqual
import Exemplar.Proofs.Nesting
import Exemplar.Proofs.Equality
import Exemplar.Proofs.Graph
import Exemplar.Proofs.Symmetry
import Exemplar.Proofs.PlainData
import Exemplar.Proofs.Content
import Exemplar.Proofs.Verbs
import Exemplar.Proofs.Course
import Exemplar.Proofs.Nested
import Exemplar.Proofs.Surroundings
import Exemplar.Proofs.Shifted
import Exemplar.Proofs.Reuse
import Exemplar.Proofs.Naming
import Exemplar.Proofs.Rescoped
import Exemplar.Proofs.Modes
import Exemplar.Proofs.Refusal
import Exemplar.Proofs.Absent
import Exemplar.Proofs.Outlined
import Exemplar.Proofs.Staged
import Exemplar.Proofs.Views
import Exemplar.Proofs.Waiting
import Exemplar.Proofs.Loading
import Exemplar.Proofs.Teardown
import Exemplar.Proofs.Declaring
import Exemplar.Proofs.Expansion
import Exemplar.Proofs.Clauses
import Exemplar.Proofs.Effects
import Exemplar.Proofs.Unwritten
import Exemplar.Proofs.Rollups
import Exemplar.Proofs.Ledgers
import Exemplar.Proofs.Reports
import Exemplar.Proofs.Refused
import Exemplar.Proofs.Shadowing
import Exemplar.Proofs.Catalogue
import Exemplar.Proofs.Surveyed
import Exemplar.Proofs.Displayed
import Exemplar.Proofs.Placed
import Exemplar.Proofs.SearchPath
import Exemplar.Proofs.Leaves
import Exemplar.Proofs.Handover
import Exemplar.Proofs.Invoked
