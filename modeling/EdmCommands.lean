import EdmCommands.Cli
import EdmCommands.Cli.Arguments
import EdmCommands.Command.Basic
import EdmCommands.Command.Codec
import EdmCommands.Config
import EdmCommands.Decimal
import EdmCommands.Disk
import EdmCommands.Doc
import EdmCommands.Doc.Decode
import EdmCommands.Doc.Plain
import EdmCommands.Document
import EdmCommands.Edm.Primitive
import EdmCommands.Edm.TypeName
import EdmCommands.Emission
import EdmCommands.Emission.Page
import EdmCommands.Fault
import EdmCommands.Generation
import EdmCommands.Host
import EdmCommands.Host.InMemory
import EdmCommands.Json
import EdmCommands.Json.Reader
import EdmCommands.Loading
import EdmCommands.Main
import EdmCommands.NameSet
import EdmCommands.Naming
import EdmCommands.Route.Codec
import EdmCommands.Route.Rendered
import EdmCommands.Route.Step
import EdmCommands.Route.Tree
import EdmCommands.Route.Work
import EdmCommands.Schema.Basic
import EdmCommands.Schema.Build
import EdmCommands.Schema.Hierarchy
import EdmCommands.Schema.OfDocument
import EdmCommands.Schema.ParameterType
import EdmCommands.Selection
import EdmCommands.Synthesis
import EdmCommands.Synthesis.Body
import EdmCommands.Synthesis.Methods
import EdmCommands.Synthesis.Options
import EdmCommands.Synthesis.Policy
import EdmCommands.Synthesis.Resource
import EdmCommands.Text.CaseTable
import EdmCommands.Text.Casing
import EdmCommands.Text.EscapeTable
import EdmCommands.Text.Quoted
import EdmCommands.Text.Trim
import EdmCommands.Yaml.Cursor
import EdmCommands.Yaml.Reader
import EdmCommands.Yaml.Scalar
import EdmCommands.Yaml.Token
import EdmCommands.Yaml.TokenStream
import EdmCommands.Proofs.Addressing
import EdmCommands.Proofs.Clashes
import EdmCommands.Proofs.Command.Codec
import EdmCommands.Proofs.Command.Joins
import EdmCommands.Proofs.Command.Parameter
import EdmCommands.Proofs.Command.Reported
import EdmCommands.Proofs.Command.Valid
import EdmCommands.Proofs.Config
import EdmCommands.Proofs.Disk
import EdmCommands.Proofs.Distinct
import EdmCommands.Proofs.Doc.Record
import EdmCommands.Proofs.Document.Construction
import EdmCommands.Proofs.Document.Depicted
import EdmCommands.Proofs.Document.Drawn
import EdmCommands.Proofs.Document.Inheritance
import EdmCommands.Proofs.Document.Reordered
import EdmCommands.Proofs.Document.WellFormed
import EdmCommands.Proofs.Documentation
import EdmCommands.Proofs.Emission
import EdmCommands.Proofs.Fallible
import EdmCommands.Proofs.Faults
import EdmCommands.Proofs.Generation
import EdmCommands.Proofs.Json.Pretty
import EdmCommands.Proofs.Linking
import EdmCommands.Proofs.Listing
import EdmCommands.Proofs.Naming
import EdmCommands.Proofs.NullChecks
import EdmCommands.Proofs.Renaming
import EdmCommands.Proofs.Reordering
import EdmCommands.Proofs.RoundTrip
import EdmCommands.Proofs.Route.Candidates
import EdmCommands.Proofs.Route.Exploration
import EdmCommands.Proofs.Route.Parents
import EdmCommands.Proofs.Route.Parts
import EdmCommands.Proofs.Route.Rendered
import EdmCommands.Proofs.Route.Renumbering
import EdmCommands.Proofs.Route.Restriction
import EdmCommands.Proofs.Route.Routes
import EdmCommands.Proofs.Route.Siblings
import EdmCommands.Proofs.Route.Template
import EdmCommands.Proofs.Route.Turns
import EdmCommands.Proofs.Route.Typed
import EdmCommands.Proofs.Rows
import EdmCommands.Proofs.Schema.Accepted
import EdmCommands.Proofs.Schema.BreadthFirst
import EdmCommands.Proofs.Schema.Built
import EdmCommands.Proofs.Schema.Declaring
import EdmCommands.Proofs.Schema.Links
import EdmCommands.Proofs.Schema.Operations
import EdmCommands.Proofs.Schema.Ownership
import EdmCommands.Proofs.Schema.Renumbering
import EdmCommands.Proofs.Schema.Reordering
import EdmCommands.Proofs.Schema.Resolution
import EdmCommands.Proofs.Schema.Runs
import EdmCommands.Proofs.Schema.TypeNames
import EdmCommands.Proofs.Schema.Types
import EdmCommands.Proofs.Selection
import EdmCommands.Proofs.Stability
import EdmCommands.Proofs.Synthesis.Address
import EdmCommands.Proofs.Synthesis.Body
import EdmCommands.Proofs.Synthesis.Commands
import EdmCommands.Proofs.Synthesis.Declared
import EdmCommands.Proofs.Synthesis.Defaults
import EdmCommands.Proofs.Synthesis.Defects
import EdmCommands.Proofs.Synthesis.Discriminators
import EdmCommands.Proofs.Synthesis.FieldClasses
import EdmCommands.Proofs.Synthesis.Fields
import EdmCommands.Proofs.Synthesis.Heads
import EdmCommands.Proofs.Synthesis.Hierarchy
import EdmCommands.Proofs.Synthesis.Invocations
import EdmCommands.Proofs.Synthesis.KeyFields
import EdmCommands.Proofs.Synthesis.Linkable
import EdmCommands.Proofs.Synthesis.Methods
import EdmCommands.Proofs.Synthesis.Overloads
import EdmCommands.Proofs.Synthesis.Renumbering
import EdmCommands.Proofs.Synthesis.Resolved
import EdmCommands.Proofs.Synthesis.Settled
import EdmCommands.Proofs.Tables
import EdmCommands.Proofs.Text.Braces
import EdmCommands.Proofs.Text.Spelling
import EdmCommands.Proofs.Text.Trim
import EdmCommands.Proofs.Naming.FreshName
import EdmCommands.Proofs.Naming.SnakeCase
import EdmCommands.Proofs.Naming.Singular
