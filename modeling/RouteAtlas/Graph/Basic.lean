import RouteAtlas.Graph.Node
import RouteAtlas.Sorting

/-!
# The symbol graph

Controllers lead to their routes, routes to their parameters and results, these to the uses of
types, uses to the models they refer to, and models to the uses of types in them. There is one node
for each use of a type, and one entry for each model, which tells how far its expansion has come;
this is what makes an expansion of a type that refers to itself end.
-/

set_option autoImplicit false

namespace RouteAtlas

/-- What an edge says about its target. -/
inductive SymbolEdge where
  | route (ordinal : Nat)
  | parameter (ordinal : Nat)
  | result (ordinal : Nat)
  /-- The type of a parameter or a result. -/
  | typeOf
  /-- The type of a field. -/
  | field (ordinal : Nat) (name : String)
  /-- The type under a synonym. -/
  | underlying
  /-- A model that a use of a type refers to. -/
  | references
  deriving DecidableEq, Repr

namespace SymbolEdge

/-- The place of the target among its siblings. -/
def ordinal : SymbolEdge → Nat
  | .route n | .parameter n | .result n | .field n _ => n
  | .typeOf | .underlying | .references => 0

def label : SymbolEdge → String
  | .route n => "route[" ++ toString n ++ "]"
  | .parameter n => "param[" ++ toString n ++ "]"
  | .result n => "return[" ++ toString n ++ "]"
  | .typeOf => "type"
  | .field _ name => "field " ++ name
  | .underlying => "underlying"
  | .references => "refs"

/-- Whether an edge leads from a type or a value to what its type is made of. -/
def isTypeEdge : SymbolEdge → Bool
  | .typeOf | .references | .field _ _ | .underlying => true
  | .route _ | .parameter _ | .result _ => false

end SymbolEdge

/-- The number of a node, counted in the order of creation. -/
abbrev NodeIndex := Nat

/-- An edge between two nodes. -/
structure GraphEdge where
  source : NodeIndex
  target : NodeIndex
  edge : SymbolEdge
  deriving DecidableEq, Repr

/-- How far the expansion of a model has come. -/
inductive ModelState where
  | inProgress
  | complete
  | failed
  deriving DecidableEq, Repr

/-- Where a model is in the graph, and how far its expansion has come. -/
structure ModelEntry where
  id : DeclId
  node : NodeIndex
  state : ModelState
  deriving DecidableEq, Repr

/-- The graph. -/
structure SymbolGraph where
  /-- The nodes in the order of their creation. -/
  nodes : List SymbolNode := []
  /-- The edges in the order of their creation. -/
  edges : List GraphEdge := []
  /-- The node of each use of a type. -/
  types : List (TypeUse × NodeIndex) := []
  /-- The entry of each model. -/
  models : List ModelEntry := []
  /-- The nodes of the controllers. -/
  controllerNodes : List NodeIndex := []
  deriving DecidableEq

namespace SymbolGraph

def node? (g : SymbolGraph) (i : NodeIndex) : Option SymbolNode := g.nodes[i]?

/-- The graph with one more node, which gets the next index. -/
def addNode (g : SymbolGraph) (n : SymbolNode) : SymbolGraph := { g with nodes := g.nodes ++ [n] }

def nextIndex (g : SymbolGraph) : NodeIndex := g.nodes.length

/-- The graph with one more edge, also when there is one between the two nodes. -/
def addEdge (g : SymbolGraph) (source target : NodeIndex) (e : SymbolEdge) : SymbolGraph :=
  { g with edges := g.edges ++ [⟨source, target, e⟩] }

/-- The edges with the first one between two nodes replaced, `none` when there is no such edge. -/
def replaceEdge? (source target : NodeIndex) (e : SymbolEdge) :
    List GraphEdge → Option (List GraphEdge)
  | [] => none
  | x :: rest =>
    if x.source = source && x.target = target then some ({ x with edge := e } :: rest)
    else (replaceEdge? source target e rest).map (x :: ·)

/-- The graph with an edge between two nodes: the newest one between them says something else from
now on, and only if there is none a new one is added. -/
def link (g : SymbolGraph) (source target : NodeIndex) (e : SymbolEdge) : SymbolGraph :=
  match replaceEdge? source target e g.edges.reverse with
  | some edges => { g with edges := edges.reverse }
  | none => g.addEdge source target e

/-- Adds a controller. -/
def addController (g : SymbolGraph) (c : ControllerNode) : SymbolGraph × NodeIndex :=
  let i := g.nextIndex
  ({ g.addNode (.controller c) with controllerNodes := g.controllerNodes ++ [i] }, i)

def addRoute (g : SymbolGraph) (controller : NodeIndex) (ordinal : Nat) (r : RouteNode) :
    SymbolGraph × NodeIndex :=
  let i := g.nextIndex
  ((g.addNode (.route r)).addEdge controller i (.route ordinal), i)

def addParameter (g : SymbolGraph) (route : NodeIndex) (p : ParamNode) : SymbolGraph × NodeIndex :=
  let i := g.nextIndex
  ((g.addNode (.parameter p)).addEdge route i (.parameter p.ordinal), i)

/-- Adds a result to a route. -/
def addReturn (g : SymbolGraph) (route : NodeIndex) (r : ReturnNode) : SymbolGraph × NodeIndex :=
  let i := g.nextIndex
  ((g.addNode (.result r)).addEdge route i (.result r.ordinal), i)

def typeIndex? (g : SymbolGraph) (t : TypeUse) : Option NodeIndex :=
  (g.types.find? (·.1 == t)).map (·.2)

def internType (g : SymbolGraph) (t : TypeUse) : SymbolGraph × NodeIndex :=
  match g.typeIndex? t with
  | some i => (g, i)
  | none =>
    let i := g.nextIndex
    ({ g.addNode (.type t) with types := g.types ++ [(t, i)] }, i)

def modelEntry? (g : SymbolGraph) (id : DeclId) : Option ModelEntry :=
  g.models.find? (·.id == id)

/-- Entries with one more, which replaces the entry of the same model. -/
def setEntry (e : ModelEntry) : List ModelEntry → List ModelEntry
  | [] => [e]
  | x :: rest => if x.id = e.id then e :: rest else x :: setEntry e rest

/-- Adds a model whose expansion begins. -/
def beginModel (g : SymbolGraph) (m : ModelNode) : SymbolGraph × NodeIndex :=
  let i := g.nextIndex
  ({ g.addNode (.model m) with models := setEntry ⟨m.id, i, .inProgress⟩ g.models }, i)

/-- Gives a model its metadata, which completes its expansion. Nodes of other sorts stay as they
are. -/
def completeModel (g : SymbolGraph) (i : NodeIndex) (metadata : ModelMetadata) : SymbolGraph :=
  match g.node? i with
  | some (.model m) =>
    { g with
      nodes := g.nodes.set i (.model { m with metadata := some metadata })
      models := setEntry ⟨m.id, i, .complete⟩ g.models }
  | _ => g

/-- Notes that the expansion of a model has failed. -/
def failModel (g : SymbolGraph) (id : DeclId) : SymbolGraph :=
  match g.modelEntry? id with
  | some e => { g with models := setEntry { e with state := .failed } g.models }
  | none => g

/-- The edges that leave a node, the newest first. -/
def outgoing (g : SymbolGraph) (i : NodeIndex) : List GraphEdge :=
  (g.edges.filter (·.source == i)).reverse

/-- Whether an edge comes before another: by ordinal, then by target. -/
def edgeLe (a b : GraphEdge) : Bool :=
  a.edge.ordinal < b.edge.ordinal ||
    (a.edge.ordinal == b.edge.ordinal && a.target ≤ b.target)

/-- The targets of the edges that leave a node, in the order of their ordinals. -/
def children (g : SymbolGraph) (i : NodeIndex) : List NodeIndex :=
  (Sorting.sorted edgeLe (g.outgoing i)).map (·.target)

/-- The children of a node that `view?` accepts, with what it shows of them. -/
def childrenOf {α : Type} (g : SymbolGraph) (view? : SymbolNode → Option α) (i : NodeIndex) :
    List (NodeIndex × α) :=
  (g.children i).filterMap fun c => ((g.node? c).bind view?).map fun a => (c, a)

def routes (g : SymbolGraph) (controller : NodeIndex) : List (NodeIndex × RouteNode) :=
  g.childrenOf SymbolNode.route? controller

def parameters (g : SymbolGraph) (route : NodeIndex) : List (NodeIndex × ParamNode) :=
  g.childrenOf SymbolNode.parameter? route

/-- The results of a route. -/
def returns (g : SymbolGraph) (route : NodeIndex) : List (NodeIndex × ReturnNode) :=
  g.childrenOf SymbolNode.result? route

/-- The controllers in the order of their identities. -/
def controllers (g : SymbolGraph) : List (NodeIndex × ControllerNode) :=
  Sorting.sorted (fun a b => a.2.id.le b.2.id) (g.controllerNodes.filterMap fun i =>
    ((g.node? i).bind SymbolNode.controller?).map fun c => (i, c))

/-- The node that the type of a parameter or a result has. -/
def typeOf? (g : SymbolGraph) (i : NodeIndex) : Option NodeIndex :=
  ((g.outgoing i).find? (·.edge == .typeOf)).map (·.target)

/-- The rank of a way a name comes into a file, in the order of uses of types. -/
def importRank : ImportKind → Nat
  | .renamed => 0
  | .blank => 1
  | .dot => 2
  | .samePackage => 3
  | .plain => 4
  | .predeclared => 5

/-- Whether a use of a type comes before another or ties with it: by name, package, kind, and the
way its name comes into the file. -/
def typeLe (a b : TypeUse) : Bool :=
  if a.name ≠ b.name then a.name < b.name
  else if a.packagePath ≠ b.packagePath then a.packagePath < b.packagePath
  else if a.symbolKind ≠ b.symbolKind then a.symbolKind.name < b.symbolKind.name
  else importRank a.importKind ≤ importRank b.importKind

/-- The uses of types in order. -/
def typeNodes (g : SymbolGraph) : List (TypeUse × NodeIndex) :=
  Sorting.sorted (fun a b => typeLe a.1 b.1) g.types

/-- The models that have an entry, in the order of their identities. -/
def modelNodes (g : SymbolGraph) : List (NodeIndex × ModelNode) :=
  Sorting.sorted (fun a b => a.2.id.le b.2.id) (g.models.filterMap fun e =>
    ((g.node? e.node).bind SymbolNode.model?).map fun m => (e.node, m))

end SymbolGraph

end RouteAtlas
