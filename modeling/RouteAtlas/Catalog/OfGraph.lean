import RouteAtlas.Cache.Store
import RouteAtlas.Catalog.Basic
import RouteAtlas.Config.Basic
import RouteAtlas.Graph.Reach

/-!
# The catalog of a graph

The controllers of a graph with their routes, and the models that can be reached from the routes
that are kept. The metadata of a model comes from the cache for as long as its file is unchanged
there, and else from the graph.
-/

set_option autoImplicit false

namespace RouteAtlas

def CatalogParam.ofNode (p : ParamNode) : CatalogParam :=
  ⟨p.ordinal, p.name, p.wireName, p.location, p.type, p.validator, p.description, p.isContext⟩

/-- The catalog entry of a result. -/
def CatalogReturn.ofNode (r : ReturnNode) : CatalogReturn :=
  ⟨r.ordinal, r.type, r.isError, r.isStructuredError⟩

namespace SymbolGraph

/-- The routes of a controller that belong into the catalog. -/
def keptRoutes (g : SymbolGraph) (config : Config) (c : NodeIndex × ControllerNode) :
    List (NodeIndex × RouteNode) :=
  (g.routes c.1).filter fun r => !(config.excludeHidden && (r.2.hidden || c.2.hidden))

/-- The catalog entry of a route of a controller. A route that asks for no security of its own has
that of the controller. -/
def catalogRoute (g : SymbolGraph) (c : ControllerNode) (r : NodeIndex × RouteNode) :
    CatalogRoute where
  operationId := r.2.methodName
  verb := r.2.verb
  path := r.2.fullPath
  description := r.2.description
  deprecated := r.2.deprecated
  hidden := r.2.hidden
  contentTypes := r.2.contentTypes
  security := if r.2.security.isEmpty then c.security else r.2.security
  responses := r.2.responses
  params := (g.parameters r.1).map fun p => .ofNode p.2
  returns := (g.returns r.1).map fun r => .ofNode r.2

def catalogController (g : SymbolGraph) (config : Config) (c : NodeIndex × ControllerNode) :
    CatalogController where
  name := c.2.id.name
  package := c.2.id.package
  tag := c.2.tag
  description := c.2.description
  deprecated := c.2.deprecated
  routes := (g.keptRoutes config c).map (g.catalogRoute c.2)

def currentMetadata? (cache : MetadataCache) (m : ModelNode) : Option ModelMetadata :=
  match cache.get? m.id, m.version with
  | some entry, some version =>
    if entry.version.hasChanged version then m.metadata else some entry.metadata
  | _, _ => m.metadata

/-- Of neighbours in a list with the same identity only the last. -/
def lastOfEach : List (DeclId × ModelMetadata) → List (DeclId × ModelMetadata)
  | [] => []
  | [m] => [m]
  | m :: n :: rest => if m.1 = n.1 then lastOfEach (n :: rest) else m :: lastOfEach (n :: rest)

/-- The metadata of the models that can be reached from some nodes, in the order of their
identities and one for each. -/
def modelsBelow (g : SymbolGraph) (cache : MetadataCache) (roots : List NodeIndex) :
    List ModelMetadata :=
  (lastOfEach ((g.reachableModels roots).filterMap fun m =>
    (currentMetadata? cache m.2).map fun metadata => (m.2.id, metadata))).map (·.2)

/-- The catalog of a graph. -/
def catalog (g : SymbolGraph) (config : Config) (cache : MetadataCache) : Catalog :=
  let routes := g.controllers.flatMap (g.keptRoutes config)
  let roots := routes.flatMap fun r =>
    (g.parameters r.1).map (·.1) ++ (g.returns r.1).map (·.1)
  { controllers := g.controllers.map (g.catalogController config)
    models := .ofModels (g.modelsBelow cache roots)
    hasErrorTypes := routes.any fun r => (g.returns r.1).any (·.2.isStructuredError) }

end SymbolGraph

end RouteAtlas
