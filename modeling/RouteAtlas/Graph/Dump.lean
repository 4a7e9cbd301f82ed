import RouteAtlas.Graph.Basic

/-!
# Renderings of the symbol graph

An outline in the order of identities, and a drawing of every node and edge for Graphviz.
-/

set_option autoImplicit false

namespace RouteAtlas.SymbolGraph

/-- The lines of the outline about a parameter. -/
def paramLine (p : ParamNode) : String :=
  "    param " ++ toString p.ordinal ++ " " ++ ((p.location.map ParamLocation.name).getD "-") ++ " " ++
    p.wireName ++ ": " ++ p.type.name

/-- The line of the outline about a result. -/
def returnLine (r : ReturnNode) : String :=
  "    return " ++ toString r.ordinal ++ ": " ++ r.type.name ++
    (if r.isError then " (error)" else "")

/-- The lines of the outline about a route. -/
def routeLines (g : SymbolGraph) (i : NodeIndex) (r : RouteNode) : List String :=
  ["  route " ++ r.methodName ++ " " ++ ((r.verb.map HttpVerb.name).getD "?") ++ " " ++ r.fullPath] ++
    (g.parameters i).map (fun p => paramLine p.2) ++ (g.returns i).map (fun r => returnLine r.2)

/-- The lines of the outline about a controller. -/
def controllerLines (g : SymbolGraph) (i : NodeIndex) (c : ControllerNode) : List String :=
  ["controller " ++ c.id.render] ++
    (match c.tag with
     | some tag => ["  tag: " ++ tag]
     | none => []) ++
    (g.routes i).flatMap fun r => g.routeLines r.1 r.2

def typeLine (t : TypeUse) : String :=
  "  " ++ t.name ++ " [" ++ t.symbolKind.name ++ "]" ++
    (if t.packagePath.isEmpty then "" else " @ " ++ t.packagePath)

/-- The lines of the outline about a model. -/
def modelLines (m : ModelNode) : List String :=
  ["  " ++ m.kind.name ++ " " ++ m.id.render] ++
    (match m.metadata with
     | some (.struct s) => s.fields.map fun f => "    " ++ f.wireName ++ " " ++ f.type.name
     | some (.enum e) => e.values.map fun v => "    " ++ v.name ++ " = " ++ v.value
     | some (.synonym a) => ["    = " ++ a.underlying.name]
     | none => ["    (incomplete)"])

def outlineLines (g : SymbolGraph) : List String :=
  (g.controllers.flatMap fun c => g.controllerLines c.1 c.2) ++
    ["types (" ++ toString g.types.length ++ ")"] ++ (g.typeNodes.map fun t => typeLine t.1) ++
    ["models (" ++ toString g.modelNodes.length ++ ")"] ++
    (g.modelNodes.flatMap fun m => modelLines m.2)

/-- The outline, each line ended by a line feed. -/
def outline (g : SymbolGraph) : String :=
  String.join (g.outlineLines.map (· ++ "\n"))

/-- How a character is written in a label of the drawing. -/
def escaped (c : Char) : List Char :=
  if c = '"' || c = '\\' then ['\\', c]
  else if c = '\n' then ['\\', 'l']
  else [c]

/-- A label of the drawing. -/
def dotLabel (s : String) : String :=
  "[ label = \"" ++ String.ofList (s.toList.flatMap escaped) ++ "\" ]"

/-- The drawing. -/
def dot (g : SymbolGraph) : String :=
  "digraph \x7b\n" ++
    String.join (g.nodes.zipIdx.map fun (n, i) =>
      "    " ++ toString i ++ " " ++ dotLabel n.label ++ "\n") ++
    String.join (g.edges.map fun e =>
      "    " ++ toString e.source ++ " -> " ++ toString e.target ++ " " ++ dotLabel e.edge.label ++
        "\n") ++
    "\x7d\n"

/-- The numbers of controllers, routes, parameters, results, uses of types, and models. -/
def nodeCounts (g : SymbolGraph) : List Nat :=
  [g.nodes.countP (·.controller?.isSome), g.nodes.countP (·.route?.isSome),
   g.nodes.countP (·.parameter?.isSome), g.nodes.countP (·.result?.isSome),
   g.nodes.countP (·.type?.isSome), g.nodes.countP (·.model?.isSome)]

end RouteAtlas.SymbolGraph
