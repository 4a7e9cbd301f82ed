import RouteAtlas.Diagnostic.Entity
import RouteAtlas.Validation.Rules

/-!
# Validation

The rules applied to every entity of a graph. The result is a tree for each controller, its routes
and their parameters and results below it, followed by an entity for each model with findings.
-/

set_option autoImplicit false

namespace RouteAtlas

namespace Validation

/-- The entity of a parameter of a route in a file, if there are findings about it. -/
def paramEntity? (file : PathName) (p : ParamNode) : Option DiagnosticEntity :=
  match findings paramRules p with
  | [] => none
  | ds => some ⟨.parameter, p.name, some file, ds, []⟩

/-- The entity of a result of a route in a file, if there are findings about it. -/
def returnEntity? (file : PathName) (r : ReturnNode) : Option DiagnosticEntity :=
  match findings returnRules r with
  | [] => none
  | ds => some ⟨.result, "#" ++ toString r.ordinal, some file, ds, []⟩

def routeEntity (r : RouteView) : DiagnosticEntity :=
  ⟨.route, r.node.methodName, some r.node.file, findings routeRules r,
    r.params.filterMap (paramEntity? r.node.file) ++
      r.returns.filterMap (returnEntity? r.node.file)⟩

/-- A route of a graph with its parameters and results. -/
def routeView (g : SymbolGraph) (r : NodeIndex × RouteNode) : RouteView :=
  ⟨r.2, (g.parameters r.1).map (·.2), (g.returns r.1).map (·.2)⟩

def controllerEntity (g : SymbolGraph) (c : NodeIndex × ControllerNode) : DiagnosticEntity :=
  let routes := g.routes c.1
  ⟨.controller, c.2.id.name, some c.2.file, findings controllerRules ⟨c.2, routes.length⟩,
    routes.map fun r => routeEntity (routeView g r)⟩

def modelEntityKind : SymbolKind → EntityKind
  | .enum => .enum
  | .synonym => .synonym
  | _ => .struct

/-- The entity of a model, if there are findings about it. -/
def modelEntity? (m : ModelNode) : Option DiagnosticEntity :=
  match findings modelRules m with
  | [] => none
  | ds => some ⟨modelEntityKind m.kind, m.id.render, some m.file, ds, []⟩

end Validation

/-- The findings about a graph. -/
def SymbolGraph.validate (g : SymbolGraph) : List DiagnosticEntity :=
  g.controllers.map (Validation.controllerEntity g) ++
    g.modelNodes.filterMap fun m => Validation.modelEntity? m.2

end RouteAtlas
