import RouteAtlas.Build.Graph
import RouteAtlas.Catalog.OfGraph
import RouteAtlas.Graph.Dump
import RouteAtlas.Validation.Basic

/-!
# The pipeline

An analysis of a project from its files to its catalog: the graph is built, validated and turned
into the catalog. The graph is built from nothing every time; only the cache outlives a build.

An analysis takes a file as it is read where arithmetic is not checked. Where it is, the analysis
ends at the first file whose reading overflows.
-/

set_option autoImplicit false

namespace RouteAtlas

/-- Why an analysis gave no result. -/
inductive PipelineError where
  | build (failure : BuildFailure)
  | validation (failure : ValidationFailure)
  | analysis (failure : Failure)
  /-- No graph has been built. -/
  | noGraph
  deriving DecidableEq

namespace PipelineError

/-- The wording of an error. -/
def message : PipelineError → String
  | .build failure => failure.message
  | .validation failure => failure.summary
  | .analysis failure => failure.message
  | .noGraph => "no graph has been generated yet"

/-- Whether the error came from findings. -/
def isValidation : PipelineError → Bool
  | .validation _ => true
  | _ => false

end PipelineError

/-- An analysis of one project. -/
structure Pipeline where
  root : PathName
  config : Config := {}
  cache : MetadataCache := {}
  /-- The graph that was built last. -/
  graph : Option SymbolGraph := none

namespace Pipeline

/-- Builds the graph of the project in place of the last one. -/
def generate (p : Pipeline) (t : FileTree) : Except PipelineError SymbolGraph × Pipeline :=
  let p := { p with graph := none }
  match p.config.pathFilter with
  | .error e => (.error (.analysis e), p)
  | .ok filter =>
    match (Snapshot.ofTree t p.root filter).buildGraph p.config p.cache with
    | (.ok g, cache) => (.ok g, { p with cache := cache, graph := some g })
    | (.error e, cache) => (.error (.build e), { p with cache := cache })

/-- The graph that was built last. -/
def currentGraph (p : Pipeline) : Except PipelineError SymbolGraph :=
  match p.graph with
  | some g => .ok g
  | none => .error .noGraph

/-- The findings about the graph that was built last. -/
def validate (p : Pipeline) : Except PipelineError (List DiagnosticEntity) :=
  p.currentGraph.map SymbolGraph.validate

/-- The catalog of the graph that was built last. -/
def catalog (p : Pipeline) : Except PipelineError Catalog :=
  p.currentGraph.map fun g => g.catalog p.config p.cache

/-- The outline of the graph that was built last. -/
def outline (p : Pipeline) : Except PipelineError String := p.currentGraph.map SymbolGraph.outline

/-- The drawing of the graph that was built last. -/
def dot (p : Pipeline) : Except PipelineError String := p.currentGraph.map SymbolGraph.dot

/-- Builds the graph and gives its catalog, unless there is an error among the findings. -/
def run (p : Pipeline) (t : FileTree) : Except PipelineError Catalog × Pipeline :=
  match p.generate t with
  | (.error e, p) => (.error e, p)
  | (.ok g, p) =>
    match ValidationFailure.ofEntities? g.validate with
    | some failure => (.error (.validation failure), p)
    | none => (p.catalog, p)

end Pipeline

end RouteAtlas
