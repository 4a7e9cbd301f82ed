import RouteAtlas.Checked
import RouteAtlas.Sorting
import RouteAtlas.Text.Blank
import RouteAtlas.Text.Capital
import RouteAtlas.Text.Invisible
import RouteAtlas.Text.Pieces
import RouteAtlas.Text.Quoted
import RouteAtlas.Json.Value
import RouteAtlas.Json.Decimal
import RouteAtlas.Json.Writer
import RouteAtlas.Json.Reader
import RouteAtlas.Span
import RouteAtlas.Comment
import RouteAtlas.Http
import RouteAtlas.Diagnostic.Basic
import RouteAtlas.Directive.Kind
import RouteAtlas.Directive.Arguments
import RouteAtlas.Directive.Options
import RouteAtlas.Directive.Basic
import RouteAtlas.Directive.Parser
import RouteAtlas.Json.Decode
import RouteAtlas.Source.TypeExpr
import RouteAtlas.Source.Import
import RouteAtlas.Source.Declaration
import RouteAtlas.Metadata.Identity
import RouteAtlas.Metadata.TypeUse
import RouteAtlas.Metadata.Model
import RouteAtlas.Metadata.Decode
import RouteAtlas.Files.PathName
import RouteAtlas.Files.Digest
import RouteAtlas.Cache.Version
import RouteAtlas.Failure
import RouteAtlas.Source.Predeclared
import RouteAtlas.Diagnostic.Entity
import RouteAtlas.Source.Token
import RouteAtlas.Source.Literal
import RouteAtlas.Source.Doc
import RouteAtlas.Source.Constant
import RouteAtlas.Source.Parser
import RouteAtlas.Source.File
import RouteAtlas.Files.Glob
import RouteAtlas.Config.Basic
import RouteAtlas.Cache.Store
import RouteAtlas.Metadata.Request
import RouteAtlas.Graph.Node
import RouteAtlas.Graph.Basic
import RouteAtlas.Graph.Reach
import RouteAtlas.Graph.Dump
import RouteAtlas.Validation.Rules
import RouteAtlas.Validation.Basic
import RouteAtlas.Catalog.Basic
import RouteAtlas.Catalog.OfGraph
import RouteAtlas.Files.Tree
import RouteAtlas.Project.Package
import RouteAtlas.Project.Resolution
import RouteAtlas.Project.Module
import RouteAtlas.Project.Context
import RouteAtlas.Project.Snapshot
import RouteAtlas.Route.Path
import RouteAtlas.Route.Linkage
import RouteAtlas.Build.Expansion
import RouteAtlas.Build.Graph
import RouteAtlas.Pipeline
import RouteAtlas.Yaml.Mark
import RouteAtlas.Yaml.Cursor
import RouteAtlas.Yaml.Scalar
import RouteAtlas.Yaml.Token
import RouteAtlas.Yaml.Event
import RouteAtlas.Yaml.Plain
import RouteAtlas.Config.Reader
import RouteAtlas.Report.Paint
import RouteAtlas.Report.Basic
import RouteAtlas.Command.Basic
import RouteAtlas.Command.Arguments
import RouteAtlas.Command.Run
import RouteAtlas.Main
import RouteAtlas.Proofs.Build.Agreement
import RouteAtlas.Proofs.Build.Broken
import RouteAtlas.Proofs.Build.Closure
import RouteAtlas.Proofs.Build.Contexts
import RouteAtlas.Proofs.Build.Controllers
import RouteAtlas.Proofs.Build.Ending
import RouteAtlas.Proofs.Build.Exact
import RouteAtlas.Proofs.Build.Expanding
import RouteAtlas.Proofs.Build.Invariant
import RouteAtlas.Proofs.Build.Layout
import RouteAtlas.Proofs.Build.Order
import RouteAtlas.Proofs.Build.Regular
import RouteAtlas.Proofs.Build.RouteFailures
import RouteAtlas.Proofs.Build.Run
import RouteAtlas.Proofs.Build.Success
import RouteAtlas.Proofs.Cache.History
import RouteAtlas.Proofs.Cache.Lookup
import RouteAtlas.Proofs.Cache.Persistence
import RouteAtlas.Proofs.Catalog.ContentTypes
import RouteAtlas.Proofs.Catalog.Controllers
import RouteAtlas.Proofs.Catalog.Models
import RouteAtlas.Proofs.Catalog.Placeholders
import RouteAtlas.Proofs.Catalog.Routes
import RouteAtlas.Proofs.Checked
import RouteAtlas.Proofs.Command.Agreement
import RouteAtlas.Proofs.Diagnostic.Gating
import RouteAtlas.Proofs.Directive.Arguments
import RouteAtlas.Proofs.Directive.Fates
import RouteAtlas.Proofs.Directive.Options
import RouteAtlas.Proofs.Directive.ReadBack
import RouteAtlas.Proofs.Directive.Scans
import RouteAtlas.Proofs.Directive.Spans
import RouteAtlas.Proofs.Directive.TextSpans
import RouteAtlas.Proofs.Directive.Tidy
import RouteAtlas.Proofs.Expansion.Mirror
import RouteAtlas.Proofs.Expansion.References
import RouteAtlas.Proofs.Expansion.Refresh
import RouteAtlas.Proofs.Expansion.Step
import RouteAtlas.Proofs.Expansion.Visit
import RouteAtlas.Proofs.Files.Written
import RouteAtlas.Proofs.Graph.Beginnings
import RouteAtlas.Proofs.Graph.Building
import RouteAtlas.Proofs.Graph.Children
import RouteAtlas.Proofs.Graph.Enumeration
import RouteAtlas.Proofs.Graph.Growth
import RouteAtlas.Proofs.Graph.History
import RouteAtlas.Proofs.Graph.Operations
import RouteAtlas.Proofs.Graph.Reach
import RouteAtlas.Proofs.Graph.Search
import RouteAtlas.Proofs.Graph.Shape
import RouteAtlas.Proofs.Graph.Successors
import RouteAtlas.Proofs.Json.Numerals
import RouteAtlas.Proofs.Json.ReadBack
import RouteAtlas.Proofs.Json.WellQuoted
import RouteAtlas.Proofs.Metadata.RoundTrip
import RouteAtlas.Proofs.Outcome
import RouteAtlas.Proofs.Pairing
import RouteAtlas.Proofs.Pipeline.Incremental
import RouteAtlas.Proofs.Pipeline.Runs
import RouteAtlas.Proofs.Pipeline.Sharing
import RouteAtlas.Proofs.Project.Declared
import RouteAtlas.Proofs.Project.Directories
import RouteAtlas.Proofs.Project.Files
import RouteAtlas.Proofs.Project.Loading
import RouteAtlas.Proofs.Project.Missing
import RouteAtlas.Proofs.Project.Qualifiers
import RouteAtlas.Proofs.Route.Binding
import RouteAtlas.Proofs.Route.Deciding
import RouteAtlas.Proofs.Route.Path
import RouteAtlas.Proofs.Route.References
import RouteAtlas.Proofs.Sorting
import RouteAtlas.Proofs.Source.Blocks
import RouteAtlas.Proofs.Source.Constants
import RouteAtlas.Proofs.Source.CounterRange
import RouteAtlas.Proofs.Source.Counters
import RouteAtlas.Proofs.Source.Docs
import RouteAtlas.Proofs.Source.Literals
import RouteAtlas.Proofs.Source.Marks
import RouteAtlas.Proofs.Source.Tags
import RouteAtlas.Proofs.Source.Tokens
import RouteAtlas.Proofs.Text.LineEnds
import RouteAtlas.Proofs.Text.Pieces
import RouteAtlas.Proofs.Text.Search
import RouteAtlas.Proofs.Validation.Errors
import RouteAtlas.Proofs.Validation.Links
