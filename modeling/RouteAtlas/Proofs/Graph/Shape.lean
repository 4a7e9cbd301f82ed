import RouteAtlas.Proofs.Graph.Operations
import RouteAtlas.Build.Graph

/-!
# The shape of a graph

Where the edges of a graph lead is determined by its nodes: those of a parameter or a result to its
type, those of a type to the models it refers to, those of a model to the types in its metadata,
and those of a route to its parameters and results. `Shape` says this of a graph while it is built.
A node that is still being worked on is pending, and nothing is said about its edges.
-/

set_option autoImplicit false

namespace RouteAtlas

/-- The types in metadata, with the edges that lead to them from its model. -/
def ModelMetadata.uses : ModelMetadata → List (SymbolEdge × TypeUse)
  | .struct s => s.fields.zipIdx.map fun (f, ordinal) => (.field ordinal f.name, f.type)
  | .synonym a => [(.underlying, a.underlying)]
  | .enum _ => []

/-- The types that a model leads to, none before it has metadata. -/
def ModelNode.uses (m : ModelNode) : List (SymbolEdge × TypeUse) :=
  (m.metadata.map ModelMetadata.uses).getD []

/-- What a route leads to. -/
def RouteParts.targets (parts : RouteParts) : List (SymbolEdge × SymbolNode) :=
  (parts.params.map fun p => (.parameter p.ordinal, .parameter p)) ++
    parts.returns.map fun r => (.result r.ordinal, .result r)

/-- A route leads to no model directly. -/
theorem RouteParts.ne_model_of_mem_targets {parts : RouteParts} {x : SymbolEdge × SymbolNode}
    (hx : x ∈ parts.targets) (m : ModelNode) : x.2 ≠ .model m := by
  simp only [targets, List.mem_append, List.mem_map] at hx
  rcases hx with ⟨p, -, rfl⟩ | ⟨r, -, rfl⟩ <;> simp

namespace SymbolGraph

/-- The node of a model that has an entry. -/
def modelIndex? (g : SymbolGraph) (id : DeclId) : Option NodeIndex :=
  (g.modelEntry? id).map (·.node)

/-- The edges that leave a node are some edges, each to a certain node. -/
def Leads (g : SymbolGraph) (i : NodeIndex) (targets : List (SymbolEdge × SymbolNode)) : Prop :=
  List.Forall₂ (fun e x => e.edge = x.1 ∧ g.node? e.target = some x.2) (g.out i) targets

/-- The edges that leave a node lead to the types of some uses. -/
def LeadsToTypes (g : SymbolGraph) (i : NodeIndex) (uses : List (SymbolEdge × TypeUse)) : Prop :=
  g.Leads i (uses.map fun u => (u.1, .type u.2))

/-- An edge leads to a route and everything below it. -/
structure LeadsToRoute (g : SymbolGraph) (parts : RouteParts) (ordinal : Nat) (e : GraphEdge) :
    Prop where
  edge : e.edge = .route ordinal
  node : g.node? e.target = some (.route parts.route)
  leads : g.Leads e.target parts.targets

/-- The edges that leave the use of a type lead to the models it refers to, one to each. -/
structure RefersTo (g : SymbolGraph) (j : NodeIndex) (t : TypeUse) : Prop where
  sound : ∀ e ∈ g.out j, e.edge = .references ∧
    ∃ id ∈ t.referencedModels, g.modelIndex? id = some e.target
  complete : ∀ id ∈ t.referencedModels, ∃ e ∈ g.out j, g.modelIndex? id = some e.target
  nodup : ((g.out j).map (·.target)).Nodup

/-- Which controllers, routes and models a graph may hold. -/
structure Contents where
  Controller : ControllerNode → Prop
  Route : RouteParts → Prop
  Model : ModelNode → Prop

/-- A route belongs to a controller and leads to its parameters and results. -/
structure RouteShape (C : Contents) (g : SymbolGraph) (i : NodeIndex) (r : RouteNode) : Prop where
  owned : ∃ c ∈ g.controllerNodes, ∃ ordinal, ⟨c, i, .route ordinal⟩ ∈ g.edges
  leads : ∃ parts, C.Route parts ∧ parts.route = r ∧ g.Leads i parts.targets

/-- What a node says about itself and the edges that leave it. -/
def NodeShape (C : Contents) (g : SymbolGraph) (i : NodeIndex) : SymbolNode → Prop
  | .controller c => C.Controller c ∧ i ∈ g.controllerNodes
  | .route r => RouteShape C g i r
  | .parameter p => g.LeadsToTypes i [(.typeOf, p.type)]
  | .result r => g.LeadsToTypes i [(.typeOf, r.type)]
  | .type t => g.RefersTo i t
  | .model m => C.Model m ∧ g.LeadsToTypes i m.uses

/-- The shape of a graph that is being built. -/
structure Shape (C : Contents) (pending : NodeIndex → Prop) (g : SymbolGraph) : Prop where
  bounded : ∀ e ∈ g.edges, e.source < g.nextIndex ∧ e.target < g.nextIndex
  types : ∀ t j, g.typeIndex? t = some j ↔ g.node? j = some (.type t)
  controllers : ∀ i ∈ g.controllerNodes, ∃ c, g.node? i = some (.controller c)
  entries : ∀ id e, g.modelEntry? id = some e →
    ∃ m, g.node? e.node = some (.model m) ∧ m.id = id ∧
      (e.state = .complete ↔ m.metadata.isSome = true)
  models : ∀ i m, g.node? i = some (.model m) → g.modelIndex? m.id = some i
  working : ∀ i, pending i → ∃ n, g.node? i = some n ∧ ∀ t, n ≠ .type t
  nodes : ∀ i n, g.node? i = some n → ¬pending i → NodeShape C g i n

variable {C : Contents} {pending : NodeIndex → Prop} {g g' : SymbolGraph}

/-- A graph that holds another one: its nodes are kept, models apart, and so are the edges of the
nodes that are not touched. -/
structure Extends (touched : NodeIndex → Prop) (g g' : SymbolGraph) : Prop where
  node : ∀ k n, g.node? k = some n → (∀ m, n ≠ .model m) → g'.node? k = some n
  out : ∀ k, k < g.nextIndex → ¬touched k → g'.out k = g.out k
  index : ∀ id i, g.modelIndex? id = some i → g'.modelIndex? id = some i
  controllers : ∀ i ∈ g.controllerNodes, i ∈ g'.controllerNodes
  edges : ∀ e ∈ g.edges, e ∈ g'.edges

/-- The targets of an untouched node stay, as long as none of them is a model. -/
theorem Leads.extend {touched : NodeIndex → Prop} (h : Extends touched g g') {i : NodeIndex}
    (hi : i < g.nextIndex) (ht : ¬touched i) {targets : List (SymbolEdge × SymbolNode)}
    (hm : ∀ x ∈ targets, ∀ m, x.2 ≠ .model m) (hl : g.Leads i targets) : g'.Leads i targets := by
  unfold Leads at hl ⊢
  rw [h.out i hi ht]
  have hmono : ∀ {es : List GraphEdge} {targets : List (SymbolEdge × SymbolNode)},
      (∀ x ∈ targets, ∀ m, x.2 ≠ .model m) →
      List.Forall₂ (fun e x => e.edge = x.1 ∧ g.node? e.target = some x.2) es targets →
      List.Forall₂ (fun e x => e.edge = x.1 ∧ g'.node? e.target = some x.2) es targets := by
    intro es targets hm hl
    induction hl with
    | nil => exact .nil
    | cons hx _ ih =>
      exact .cons ⟨hx.1, h.node _ _ hx.2 (hm _ (by simp))⟩ (ih fun x hx => hm x (by simp [hx]))
  exact hmono hm hl

/-- A node that is not touched still leads to its types in a graph that holds the one before. -/
theorem LeadsToTypes.extend {touched : NodeIndex → Prop} (h : Extends touched g g')
    {i : NodeIndex} (hi : i < g.nextIndex) (ht : ¬touched i) {uses : List (SymbolEdge × TypeUse)}
    (hl : g.LeadsToTypes i uses) : g'.LeadsToTypes i uses := by
  refine Leads.extend h hi ht ?_ hl
  intro x hx m
  obtain ⟨u, -, rfl⟩ := List.mem_map.1 hx
  simp

/-- The use of a type that is not touched still refers to its models. -/
theorem RefersTo.extend {touched : NodeIndex → Prop} (h : Extends touched g g') {j : NodeIndex}
    (hj : j < g.nextIndex) (ht : ¬touched j) {t : TypeUse} (hr : g.RefersTo j t) :
    g'.RefersTo j t := by
  have hout := h.out j hj ht
  refine ⟨?_, ?_, ?_⟩
  · intro e he
    obtain ⟨hedge, id, hid, hindex⟩ := hr.sound e (hout ▸ he)
    exact ⟨hedge, id, hid, h.index _ _ hindex⟩
  · intro id hid
    obtain ⟨e, he, hindex⟩ := hr.complete id hid
    exact ⟨e, hout ▸ he, h.index _ _ hindex⟩
  · rw [hout]
    exact hr.nodup

/-- A route that is not touched keeps its shape. -/
theorem RouteShape.extend {touched : NodeIndex → Prop} (h : Extends touched g g') {i : NodeIndex}
    (hi : i < g.nextIndex) (ht : ¬touched i) {r : RouteNode} (hr : RouteShape C g i r) :
    RouteShape C g' i r := by
  obtain ⟨⟨c, hc, ordinal, hedge⟩, parts, hparts, hroute, hleads⟩ := hr
  refine ⟨⟨c, h.controllers c hc, ordinal, h.edges _ hedge⟩, parts, hparts, hroute, ?_⟩
  exact hleads.extend h hi ht fun _ => RouteParts.ne_model_of_mem_targets

/-- A node that is not touched keeps its shape. -/
theorem NodeShape.extend {touched : NodeIndex → Prop} (h : Extends touched g g') {i : NodeIndex}
    (hi : i < g.nextIndex) (ht : ¬touched i) {n : SymbolNode}
    (hn : NodeShape C g i n) : NodeShape C g' i n := by
  cases n with
  | controller c => exact ⟨hn.1, h.controllers i hn.2⟩
  | route r => exact RouteShape.extend h hi ht hn
  | parameter p => exact LeadsToTypes.extend h hi ht hn
  | result r => exact LeadsToTypes.extend h hi ht hn
  | type t => exact RefersTo.extend h hi ht hn
  | model m => exact ⟨hn.1, hn.2.extend h hi ht⟩

/-- The index of a model is the one in its entry. -/
theorem modelIndex?_eq {id : DeclId} {e : ModelEntry} (h : g.modelEntry? id = some e) :
    g.modelIndex? id = some e.node := by
  rw [modelIndex?, h]
  rfl

namespace Shape

/-- The shape of a graph that holds another one. Only new nodes, touched nodes and nodes that are
not pending any more have to be looked at. -/
theorem of_extends {touched pending' : NodeIndex → Prop} (h : Shape C pending g)
    (hx : Extends touched g g')
    (hbounded : ∀ e ∈ g'.edges, e.source < g'.nextIndex ∧ e.target < g'.nextIndex)
    (htypes : ∀ t j, g'.typeIndex? t = some j ↔ g'.node? j = some (.type t))
    (hcontrollers : ∀ i ∈ g'.controllerNodes, ∃ c, g'.node? i = some (.controller c))
    (hentries : ∀ id e, g'.modelEntry? id = some e →
      ∃ m, g'.node? e.node = some (.model m) ∧ m.id = id ∧
        (e.state = .complete ↔ m.metadata.isSome = true))
    (hmodels : ∀ i m, g'.node? i = some (.model m) → g'.modelIndex? m.id = some i)
    (hworking : ∀ i, pending' i → ∃ n, g'.node? i = some n ∧ ∀ t, n ≠ .type t)
    (hnodes : ∀ i n, g'.node? i = some n → ¬pending' i →
      (g.node? i = some n ∧ ¬pending i ∧ ¬touched i) ∨ NodeShape C g' i n) :
    Shape C pending' g' where
  bounded := hbounded
  types := htypes
  controllers := hcontrollers
  entries := hentries
  models := hmodels
  working := hworking
  nodes := by
    intro i n hi hp
    rcases hnodes i n hi hp with ⟨hold, hp', ht⟩ | hn
    · exact (h.nodes i n hold hp').extend hx (lt_nextIndex hold) ht
    · exact hn

/-- A node that leaves the work as it should is not pending any more. -/
theorem settle {i : NodeIndex} {n : SymbolNode} (h : Shape C pending g)
    (hi : g.node? i = some n) (hn : NodeShape C g i n) :
    Shape C (fun k => pending k ∧ k ≠ i) g where
  bounded := h.bounded
  types := h.types
  controllers := h.controllers
  entries := h.entries
  models := h.models
  working := fun k hp => h.working k hp.1
  nodes := by
    intro k n' hk hp
    by_cases hki : k = i
    · subst hki
      obtain rfl : n' = n := by simpa [hi] using hk.symm
      exact hn
    · exact h.nodes k n' hk fun hpk => hp ⟨hpk, hki⟩

/-- Any node but a type may be worked on. -/
theorem resume {i : NodeIndex} {n : SymbolNode} (h : Shape C pending g)
    (hi : g.node? i = some n) (hn : ∀ t, n ≠ .type t) :
    Shape C (fun k => pending k ∨ k = i) g where
  bounded := h.bounded
  types := h.types
  controllers := h.controllers
  entries := h.entries
  models := h.models
  working := by
    rintro k (hp | rfl)
    · exact h.working k hp
    · exact ⟨n, hi, hn⟩
  nodes := fun k n hk hp => h.nodes k n hk fun hpk => hp (.inl hpk)

/-- Only which nodes are pending matters. -/
theorem congr {pending' : NodeIndex → Prop} (h : Shape C pending g)
    (hp : ∀ k, pending k ↔ pending' k) : Shape C pending' g := by
  obtain rfl : pending = pending' := funext fun k => propext (hp k)
  exact h

/-- The use of a type is never pending. -/
theorem settled (h : Shape C pending g) {i : NodeIndex} {t : TypeUse}
    (hi : g.node? i = some (.type t)) : ¬pending i := by
  intro hp
  obtain ⟨n, hn, ht⟩ := h.working i hp
  rw [hi] at hn
  exact ht t (by simpa using hn.symm)

/-- What is pending is a node of the graph. -/
theorem lt_of_pending (h : Shape C pending g) {i : NodeIndex} (hi : pending i) :
    i < g.nextIndex := by
  obtain ⟨n, hn, -⟩ := h.working i hi
  exact lt_nextIndex hn

/-- No edge leaves what is not there yet. -/
theorem out_nextIndex (h : Shape C pending g) : g.out g.nextIndex = [] := by
  rw [out, List.filter_eq_nil_iff]
  intro e he
  have hlt := (h.bounded e he).1
  simpa using Nat.ne_of_lt hlt

end Shape

end SymbolGraph

end RouteAtlas
