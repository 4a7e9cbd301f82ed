import RouteAtlas.Graph.Basic

/-!
# What types are made of

The models that can be reached from some nodes over the edges that lead from a value to its type,
from a type to the models it refers to, and from a model to the types in it.
-/

set_option autoImplicit false

namespace RouteAtlas.SymbolGraph

def typeSuccessors (g : SymbolGraph) (i : NodeIndex) : List NodeIndex :=
  ((g.outgoing i).filter (·.edge.isTypeEdge)).map (·.target)

/-- The nodes that can be reached from those in `queue`, in the order in which they are met, apart
from those in `seen`. Every step takes a node from the queue, and the edges of a node enter it
once, so `fuel` is enough when it is the length of the queue and the number of edges together. -/
def visit (g : SymbolGraph) : Nat → List NodeIndex → List NodeIndex → List NodeIndex
  | 0, _, _ => []
  | _ + 1, _, [] => []
  | fuel + 1, seen, i :: queue =>
    if seen.contains i then visit g fuel seen queue
    else i :: visit g fuel (i :: seen) (queue ++ g.typeSuccessors i)

/-- The nodes that can be reached from some nodes, those included. -/
def reachable (g : SymbolGraph) (roots : List NodeIndex) : List NodeIndex :=
  g.visit (roots.length + g.edges.length + 1) [] roots

/-- The models that can be reached from some nodes, in the order of their identities. -/
def reachableModels (g : SymbolGraph) (roots : List NodeIndex) : List (NodeIndex × ModelNode) :=
  Sorting.sorted (fun a b => a.2.id.le b.2.id) ((g.reachable roots).filterMap fun i =>
    ((g.node? i).bind SymbolNode.model?).map fun m => (i, m))

end RouteAtlas.SymbolGraph
