import RouteAtlas.Proofs.Graph.Successors
import RouteAtlas.Proofs.Sorting

/-!
# Controllers, routes, and what routes are made of

The children of a node are the targets of its edges. They are shown in the order of the numbers on
the edges, so children of one sort come out as they were added if these numbers grow
(`childrenOf_eq`). In a well-shaped graph the parameters and results of a route are those it was
built with.
-/

set_option autoImplicit false

namespace RouteAtlas

namespace SymbolNode

variable {n : SymbolNode}

/-- A node is viewed as a controller if it is one. -/
@[simp] theorem controller?_eq_some {c : ControllerNode} :
    n.controller? = some c ↔ n = .controller c := by
  cases n <;> simp [controller?]

/-- A node is viewed as a route if it is one. -/
@[simp] theorem route?_eq_some {r : RouteNode} : n.route? = some r ↔ n = .route r := by
  cases n <;> simp [route?]

/-- A node is viewed as a parameter if it is one. -/
@[simp] theorem parameter?_eq_some {p : ParamNode} :
    n.parameter? = some p ↔ n = .parameter p := by
  cases n <;> simp [parameter?]

/-- A node is viewed as a result if it is one. -/
@[simp] theorem result?_eq_some {r : ReturnNode} : n.result? = some r ↔ n = .result r := by
  cases n <;> simp [result?]

/-- A node is viewed as a model if it is one. -/
@[simp] theorem model?_eq_some {m : ModelNode} : n.model? = some m ↔ n = .model m := by
  cases n <;> simp [model?]

end SymbolNode

namespace SymbolGraph

variable {C : Contents} {g : SymbolGraph} {i j : NodeIndex}

/-- The children of a node are the targets of the edges that leave it. -/
theorem mem_children_iff : j ∈ g.children i ↔ ∃ e ∈ g.out i, e.target = j := by
  simp [children, outgoing, out]

/-- The children that are shown are nodes that have something to show. -/
theorem mem_childrenOf_iff {α : Type} {view? : SymbolNode → Option α} {a : α} :
    (j, a) ∈ g.childrenOf view? i ↔
      j ∈ g.children i ∧ ∃ n, g.node? j = some n ∧ view? n = some a := by
  simp only [childrenOf, List.mem_filterMap, Option.map_eq_some_iff, Option.bind_eq_some_iff,
    Prod.mk.injEq]
  constructor
  · rintro ⟨k, hk, a', ⟨n, hn, ha⟩, rfl, rfl⟩
    exact ⟨hk, n, hn, ha⟩
  · rintro ⟨hj, n, hn, ha⟩
    exact ⟨j, hj, a, ⟨n, hn, ha⟩, rfl, rfl⟩

/-- The routes of a controller are among its children. -/
theorem mem_routes_iff {r : RouteNode} :
    (j, r) ∈ g.routes i ↔ j ∈ g.children i ∧ g.node? j = some (.route r) := by
  simp [routes, mem_childrenOf_iff]

/-- The parameters of a node are its children that are parameters. -/
theorem mem_parameters_iff {p : ParamNode} :
    (j, p) ∈ g.parameters i ↔ j ∈ g.children i ∧ g.node? j = some (.parameter p) := by
  simp [parameters, mem_childrenOf_iff]

/-- The results of a node are its children that are results. -/
theorem mem_returns_iff {r : ReturnNode} :
    (j, r) ∈ g.returns i ↔ j ∈ g.children i ∧ g.node? j = some (.result r) := by
  simp [returns, mem_childrenOf_iff]

/-- The controllers of a graph are the nodes that are listed as such. -/
theorem mem_controllers_iff {c : ControllerNode} :
    (i, c) ∈ g.controllers ↔ i ∈ g.controllerNodes ∧ g.node? i = some (.controller c) := by
  simp only [controllers, Sorting.mem_sorted, List.mem_filterMap, Option.map_eq_some_iff,
    Option.bind_eq_some_iff, Prod.mk.injEq]
  constructor
  · rintro ⟨k, hk, c', ⟨n, hn, hc⟩, rfl, rfl⟩
    exact ⟨hk, hn.trans (congrArg some (SymbolNode.controller?_eq_some.1 hc))⟩
  · rintro ⟨hi, hn⟩
    exact ⟨i, hi, c, ⟨_, hn, rfl⟩, rfl, rfl⟩

/-- The parameters of a route are those it was built with. -/
theorem exists_parameter_iff {parts : RouteParts} (h : g.Leads i parts.targets) {p : ParamNode} :
    (∃ j, (j, p) ∈ g.parameters i) ↔ p ∈ parts.params := by
  simp only [mem_parameters_iff, mem_children_iff]
  constructor
  · rintro ⟨_, ⟨e, he, rfl⟩, hnode⟩
    obtain ⟨x, hx, -, htarget⟩ := h.exists_target he
    rw [hnode] at htarget
    simp only [RouteParts.targets, List.mem_append, List.mem_map] at hx
    rcases hx with ⟨p', hp', rfl⟩ | ⟨r, -, rfl⟩
    · simp only [Option.some.injEq, SymbolNode.parameter.injEq] at htarget
      exact htarget ▸ hp'
    · simp at htarget
  · intro hp
    have hx : ((.parameter p.ordinal, .parameter p) : SymbolEdge × SymbolNode) ∈ parts.targets :=
      List.mem_append_left _ (List.mem_map.2 ⟨p, hp, rfl⟩)
    obtain ⟨e, he, -, hnode⟩ := h.exists_edge hx
    exact ⟨e.target, ⟨e, he, rfl⟩, hnode⟩

/-! ## Children in their order -/

/-- Edges are ordered by their ordinals, and then by their targets. -/
theorem edgeLe_iff (a b : GraphEdge) :
    edgeLe a b = true ↔ a.edge.ordinal < b.edge.ordinal ∨
      a.edge.ordinal = b.edge.ordinal ∧ a.target ≤ b.target := by
  simp [edgeLe]

/-- Of two edges one comes first, or they tie. -/
theorem total_edgeLe (a b : GraphEdge) : edgeLe a b = true ∨ edgeLe b a = true := by
  rw [edgeLe_iff, edgeLe_iff]
  rcases Nat.lt_trichotomy a.edge.ordinal b.edge.ordinal with h | h | h
  · exact .inl (.inl h)
  · exact (Nat.le_total a.target b.target).imp (fun ht => .inr ⟨h, ht⟩) fun ht => .inr ⟨h.symm, ht⟩
  · exact .inr (.inl h)

/-- The order of edges is transitive. -/
theorem trans_edgeLe (a b c : GraphEdge) (h : edgeLe a b = true) (h' : edgeLe b c = true) :
    edgeLe a c = true := by
  rw [edgeLe_iff] at h h' ⊢
  rcases h with h | ⟨h, ht⟩
  · exact .inl (by omega)
  · rcases h' with h' | ⟨h', ht'⟩
    · exact .inl (by omega)
    · exact .inr ⟨h.trans h', Nat.le_trans ht ht'⟩

/-- Children of one sort are shown as they were added, if the numbers on their edges grow. -/
theorem childrenOf_eq {α : Type} {view? : SymbolNode → Option α}
    (hgrow : ((g.out i).filter fun e => ((g.node? e.target).bind view?).isSome).Pairwise
      fun a b => a.edge.ordinal < b.edge.ordinal) :
    g.childrenOf view? i = (g.out i).filterMap fun e =>
      ((g.node? e.target).bind view?).map fun a => (e.target, a) := by
  have hshown : ∀ edges : List GraphEdge,
      (edges.filterMap fun e => ((g.node? e.target).bind view?).map fun a => (e.target, a)) =
        (edges.filter fun e => ((g.node? e.target).bind view?).isSome).filterMap fun e =>
          ((g.node? e.target).bind view?).map fun a => (e.target, a) := by
    intro edges
    rw [List.filterMap_filter]
    congr 1
    funext e
    cases (g.node? e.target).bind view? <;> rfl
  have hstrict := hgrow.imp fun {a b} (hlt : a.edge.ordinal < b.edge.ordinal) =>
    (⟨(edgeLe_iff a b).2 (.inl hlt), by
      rw [Bool.eq_false_iff, ne_eq, edgeLe_iff]
      omega⟩ : edgeLe a b = true ∧ edgeLe b a = false)
  have hsorted := Sorting.filter_sorted trans_edgeLe total_edgeLe _
    (List.reverse_perm (g.out i)) hstrict
  rw [childrenOf, children, List.filterMap_map]
  exact (hshown _).trans ((congrArg _ hsorted).trans (hshown _).symm)

/-- Children whose ordinals grow come out in the order in which their edges were added. -/
theorem map_snd_childrenOf {α : Type} {view? : SymbolNode → Option α}
    {targets : List (SymbolEdge × SymbolNode)} (h : g.Leads i targets)
    (hgrow : (targets.filter fun x => (view? x.2).isSome).Pairwise
      fun a b => a.1.ordinal < b.1.ordinal) :
    (g.childrenOf view? i).map (·.2) = targets.filterMap fun x => view? x.2 := by
  have hview : ∀ (e : GraphEdge) (x : SymbolEdge × SymbolNode),
      e.edge = x.1 ∧ g.node? e.target = some x.2 → (g.node? e.target).bind view? = view? x.2 := by
    intro e x hx
    rw [hx.2]
    rfl
  have hordinals : ((g.out i).filter fun e => ((g.node? e.target).bind view?).isSome).map
      (·.edge.ordinal) = (targets.filter fun x => (view? x.2).isSome).map (·.1.ordinal) := by
    rw [← List.filterMap_eq_map, ← List.filterMap_eq_map, List.filterMap_filter,
      List.filterMap_filter]
    refine List.Forall₂.filterMap_eq h fun e x hx => ?_
    rw [hview e x hx, Function.comp_apply, Function.comp_apply, hx.1]
  rw [childrenOf_eq, List.map_filterMap]
  · refine List.Forall₂.filterMap_eq h fun e x hx => ?_
    rw [Option.map_map, hview e x hx]
    exact Option.map_id'
  · rw [← List.pairwise_map (f := fun e : GraphEdge => e.edge.ordinal), hordinals,
      List.pairwise_map]
    exact hgrow

end SymbolGraph

end RouteAtlas
