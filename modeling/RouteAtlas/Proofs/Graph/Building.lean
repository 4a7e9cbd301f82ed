import RouteAtlas.Proofs.Graph.Growth

/-!
# What a build does to its graph

A build changes its graph in five ways: it begins, completes or gives up a model, it adds a
controller, and it adds a route with everything below it. Between two of these nothing is pending,
and each of them keeps a graph well-shaped.
-/

set_option autoImplicit false

namespace RouteAtlas

/-- What a route leads to, with the use of a type that each of them leads to in turn. -/
def RouteParts.values (parts : RouteParts) : List ((SymbolEdge × SymbolNode) × TypeUse) :=
  (parts.params.map fun p => ((.parameter p.ordinal, .parameter p), p.type)) ++
    parts.returns.map fun r => ((.result r.ordinal, .result r), r.type)

namespace SymbolGraph

variable {C : Contents} {pending : NodeIndex → Prop} {g g' : SymbolGraph}

/-- The shape of a graph that nothing is pending in. -/
def WellShaped (C : Contents) (g : SymbolGraph) : Prop := Shape C (fun _ => False) g

/-- The empty graph is well shaped. -/
theorem wellShaped_empty : WellShaped C {} where
  bounded := by simp
  types := by simp [typeIndex?, node?]
  controllers := by simp
  entries := by simp [ modelEntry?]
  models := by simp [node?]
  working := by simp
  nodes := by simp [node?]

/-! ## Models -/

/-- Beginning a model adds a node for it and changes no other. -/
theorem node?_beginModel (g : SymbolGraph) (m : ModelNode) (k : NodeIndex) :
    (g.beginModel m).1.node? k = if k = g.nextIndex then some (.model m) else g.node? k :=
  node?_addNode g (.model m) k

/-- Nothing is lost when a model that has no entry is begun. -/
theorem extends_beginModel {m : ModelNode} (hm : g.modelEntry? m.id = none) :
    Extends (fun _ => False) g (g.beginModel m).1 where
  node := fun _ _ hk _ => node?_of_concat rfl hk
  out := fun _ _ _ => rfl
  index := by
    intro id i hi
    rw [modelIndex?, modelEntry?_beginModel]
    by_cases hid : id = m.id
    · subst hid
      rw [modelIndex?, hm] at hi
      cases hi
    · rw [if_neg hid]
      exact hi
  controllers := fun _ h => h
  edges := fun _ h => h

/-- A model that has no entry may be begun. -/
theorem WellShaped.beginModel (h : WellShaped C g) {m : ModelNode}
    (hentry : g.modelEntry? m.id = none) (hmetadata : m.metadata = none) (hmodel : C.Model m) :
    WellShaped C (g.beginModel m).1 := by
  have hx := extends_beginModel hentry
  refine h.of_extends hx ?_ ?_ ?_ ?_ ?_ ?_ ?_
  · intro e he
    have hnext : (g.beginModel m).1.nextIndex = g.nextIndex + 1 := nextIndex_addNode g (.model m)
    have hb := h.bounded e he
    rw [hnext]
    exact ⟨Nat.lt_succ_of_lt hb.1, Nat.lt_succ_of_lt hb.2⟩
  · intro t j
    have htype : (g.beginModel m).1.typeIndex? t = g.typeIndex? t := rfl
    rw [htype, node?_beginModel, h.types]
    by_cases hj : j = g.nextIndex
    · subst hj
      constructor
      · intro ht
        exact absurd (lt_nextIndex ht) (Nat.lt_irrefl _)
      · simp
    · rw [if_neg hj]
  · intro k hk
    obtain ⟨c, hc⟩ := h.controllers k hk
    exact ⟨c, node?_of_concat rfl hc⟩
  · intro id e he
    rw [modelEntry?_beginModel] at he
    by_cases hid : id = m.id
    · rw [if_pos hid] at he
      obtain rfl : e = ⟨m.id, g.nextIndex, .inProgress⟩ := by simpa using he.symm
      exact ⟨m, by rw [node?_beginModel, if_pos rfl], hid.symm, by simp [hmetadata]⟩
    · rw [if_neg hid] at he
      obtain ⟨m', hm', hid', hstate⟩ := h.entries id e he
      exact ⟨m', node?_of_concat rfl hm', hid', hstate⟩
  · intro k m' hk
    rw [node?_beginModel] at hk
    by_cases hkn : k = g.nextIndex
    · rw [if_pos hkn] at hk
      obtain rfl : m = m' := by simpa using hk
      rw [modelIndex?, modelEntry?_beginModel, if_pos rfl, hkn]
      rfl
    · rw [if_neg hkn] at hk
      exact hx.index _ _ (h.models k m' hk)
  · simp
  · intro k n hk _
    rw [node?_beginModel] at hk
    by_cases hkn : k = g.nextIndex
    · right
      rw [if_pos hkn] at hk
      obtain rfl : .model m = n := by simpa using hk
      have hout : (g.beginModel m).1.out k = [] := hkn ▸ h.out_nextIndex
      refine ⟨hmodel, ?_⟩
      rw [LeadsToTypes, Leads, hout, ModelNode.uses, hmetadata]
      exact .nil
    · rw [if_neg hkn] at hk
      exact .inl ⟨hk, id, id⟩

/-- Gives a model its metadata, with its node linked to the types in it. -/
def finishModel (g : SymbolGraph) (i : NodeIndex) (metadata : ModelMetadata) : SymbolGraph :=
  (g.attachAll i metadata.uses).completeModel i metadata

/-- The graph after a model has been finished. -/
structure Finished (i : NodeIndex) (m : ModelNode) (g g' : SymbolGraph) : Prop where
  node : ∀ k n, k ≠ i → g.node? k = some n → g'.node? k = some n
  here : g'.node? i = some (.model m)
  model : ∀ k m', k ≠ i → g'.node? k = some (.model m') → g.node? k = some (.model m')
  entry : ∀ id, g'.modelEntry? id =
    if id = m.id then some ⟨m.id, i, .complete⟩ else g.modelEntry? id
  controllers : g'.controllerNodes = g.controllerNodes
  kept : Extends (· = i) g g'
  next : g.nextIndex ≤ g'.nextIndex

/-- A model that has been begun may be finished, once all models in its metadata are live. -/
theorem WellShaped.finishModel (h : WellShaped C g) {i : NodeIndex} {m : ModelNode}
    (hi : g.node? i = some (.model m)) (hmetadata : m.metadata = none) {metadata : ModelMetadata}
    (hmodel : C.Model { m with metadata := some metadata })
    (hlive : ∀ u ∈ metadata.uses, ∀ id ∈ u.2.referencedModels, g.Live id) :
    WellShaped C (g.finishModel i metadata) ∧
      Finished i { m with metadata := some metadata } g (g.finishModel i metadata) := by
  have hresumed := h.resume hi (by simp)
  obtain ⟨hshape, hgrows⟩ := hresumed.attachAll (.inr rfl) metadata.uses hlive
  have hi' := hgrows.node i _ hi
  have hbare : g.out i = [] := by
    have hleads := (h.nodes i _ hi id).2
    rw [LeadsToTypes, Leads, ModelNode.uses, hmetadata] at hleads
    exact List.forall₂_nil_right_iff.1 hleads
  have hdone := hshape.completeModel hi' hmodel (hgrows.leads_of_bare hbare)
  refine ⟨hdone.congr (by simp), ⟨?_, ?_, ?_, ?_, ?_, ?_, ?_⟩⟩
  · intro k n hk hn
    rw [SymbolGraph.finishModel, node?_completeModel _ hi', if_neg hk]
    exact hgrows.node k n hn
  · rw [SymbolGraph.finishModel, node?_completeModel _ hi', if_pos rfl]
  · intro k m' hk hn
    rw [SymbolGraph.finishModel, node?_completeModel _ hi', if_neg hk] at hn
    exact hgrows.model k m' hn
  · intro id
    rw [SymbolGraph.finishModel, modelEntry?_completeModel _ hi', hgrows.entry]
  · rw [SymbolGraph.finishModel, controllerNodes_completeModel, hgrows.controllers]
  · have hindex := hshape.models i _ hi'
    exact (hgrows.kept.trans (extends_completeModel hi' hindex metadata) hgrows.next).mono (by simp)
  · rw [SymbolGraph.finishModel, nextIndex_completeModel]
    exact hgrows.next

/-- Giving up on a model keeps the graph as it was but for that model. -/
theorem extends_failModel {id : DeclId} {e : ModelEntry} (he : g.modelEntry? id = some e) :
    Extends (fun _ => False) g (g.failModel id) := by
  obtain ⟨models, heq⟩ := g.failModel_eq id
  have hindex : ∀ id' i, g.modelIndex? id' = some i →
      (g.failModel id).modelIndex? id' = some i := by
    intro id' i hi
    rw [modelIndex?, modelEntry?_failModel g he]
    by_cases hid : id' = id
    · subst hid
      rw [modelIndex?, he] at hi
      simpa using hi
    · rw [if_neg hid]
      exact hi
  exact ⟨fun k n hk _ => by rw [heq]; exact hk, fun k _ _ => by rw [heq]; rfl, hindex,
    fun i hi => by rw [heq]; exact hi, fun x hx => by rw [heq]; exact hx⟩

/-- A model that is not complete may be given up. -/
theorem WellShaped.failModel (h : WellShaped C g) {id : DeclId} {e : ModelEntry}
    (he : g.modelEntry? id = some e) (hstate : e.state ≠ .complete) :
    WellShaped C (g.failModel id) := by
  have hx := extends_failModel he
  obtain ⟨models, heq⟩ := g.failModel_eq id
  have hnode : ∀ k, (g.failModel id).node? k = g.node? k := by
    intro k
    rw [heq]
    rfl
  refine h.of_extends hx ?_ ?_ ?_ ?_ ?_ ?_ ?_
  · rw [heq]
    exact h.bounded
  · rw [heq]
    exact h.types
  · rw [heq]
    exact h.controllers
  · intro id' e' he'
    rw [modelEntry?_failModel g he] at he'
    by_cases hid : id' = id
    · subst hid
      rw [if_pos rfl] at he'
      obtain rfl : { e with state := .failed } = e' := by simpa using he'
      obtain ⟨m, hm, hmid, hcomplete⟩ := h.entries id' e he
      refine ⟨m, by rw [hnode]; exact hm, hmid, ?_⟩
      simpa [hstate] using hcomplete
    · rw [if_neg hid] at he'
      obtain ⟨m, hm, hmid⟩ := h.entries id' e' he'
      exact ⟨m, by rw [hnode]; exact hm, hmid⟩
  · intro k m hk
    rw [hnode] at hk
    exact hx.index _ _ (h.models k m hk)
  · simp
  · intro k n hk _
    rw [hnode] at hk
    exact .inl ⟨hk, not_false, not_false⟩

/-! ## Controllers and routes -/

/-- A controller may be added at any time. -/
theorem WellShaped.addController (h : WellShaped C g) {c : ControllerNode}
    (hc : C.Controller c) :
    WellShaped C (g.addController c).1 ∧ SameModels g (g.addController c).1 := by
  have hsame := SameModels.addNode g (n := .controller c) (by simp)
  have hpending := h.addNode (n := .controller c) (by simp) (by simp)
  have hnode : (g.addController c).1.node? g.nextIndex = some (.controller c) := by
    show (g.addNode (.controller c)).node? g.nextIndex = _
    rw [node?_addNode, if_pos rfl]
  have hx : Extends (fun _ => False) (g.addNode (.controller c)) (g.addController c).1 :=
    ⟨fun _ _ hk _ => hk, fun _ _ _ => rfl, fun _ _ hi => hi,
      fun _ hi => List.mem_append_left _ hi, fun _ he => he⟩
  refine ⟨?_, hsame.node, hsame.model, fun _ => rfl⟩
  refine hpending.of_extends hx hpending.bounded hpending.types ?_ hpending.entries
    hpending.models (by simp) ?_
  · intro i hi
    rcases List.mem_append.1 hi with hi | hi
    · obtain ⟨c', hc'⟩ := h.controllers i hi
      exact ⟨c', hsame.node i _ hc'⟩
    · obtain rfl : i = g.nextIndex := by simpa using hi
      exact ⟨c, hnode⟩
  · intro i n hi _
    by_cases hin : i = g.nextIndex
    · right
      subst hin
      rw [hnode] at hi
      obtain rfl : .controller c = n := by simpa using hi
      exact ⟨hc, List.mem_append_right _ (by simp)⟩
    · exact .inl ⟨hi, by simpa using hin, id⟩

/-- A new node may be hung under one that is pending or a controller. It is then pending itself. -/
theorem Shape.hang (h : Shape C pending g) {n : SymbolNode} (htype : ∀ t, n ≠ .type t)
    (hmodel : ∀ m, n ≠ .model m) {i : NodeIndex}
    (hi : pending i ∨ ∃ c, g.node? i = some (.controller c)) (edge : SymbolEdge) :
    Shape C (fun k => pending k ∨ k = g.nextIndex) ((g.addNode n).addEdge i g.nextIndex edge) ∧
      SameModels g ((g.addNode n).addEdge i g.nextIndex edge) := by
  have hadded := h.addNode htype hmodel
  have hsame := SameModels.addNode g hmodel
  have hin : i < g.nextIndex := by
    rcases hi with hi | ⟨c, hc⟩
    · exact h.lt_of_pending hi
    · exact lt_nextIndex hc
  have hnext : g.nextIndex < (g.addNode n).nextIndex := by
    rw [nextIndex_addNode]
    exact Nat.lt_succ_self _
  refine ⟨hadded.addEdge edge ?_ (Nat.lt_trans hin hnext) hnext, hsame.trans (.addEdge _ _ _ _)⟩
  rcases hi with hi | ⟨c, hc⟩
  · exact .inl (.inl hi)
  · exact .inr ⟨c, hsame.node _ _ hc⟩

/-- A graph after a new node was hung under an old one and was given its edges. -/
structure Hung (i : NodeIndex) (edge : SymbolEdge) (n : SymbolNode)
    (targets : List (SymbolEdge × SymbolNode)) (g g' : SymbolGraph) : Prop where
  kept : Extends (· = i) g g'
  next : g.nextIndex ≤ g'.nextIndex
  out : g'.out i = g.out i ++ [⟨i, g.nextIndex, edge⟩]
  node : g'.node? g.nextIndex = some n
  leads : g'.Leads g.nextIndex targets

/-- A new node under an old one is hung there with the edges that it is given. -/
theorem Shape.hung (h : Shape C pending g) {i : NodeIndex} (hi : i < g.nextIndex)
    {edge : SymbolEdge} {n : SymbolNode} {targets : List (SymbolEdge × SymbolNode)}
    (hgrows : GrowsAt g.nextIndex targets ((g.addNode n).addEdge i g.nextIndex edge) g') :
    Hung i edge n targets g g' := by
  have hne : i ≠ g.nextIndex := Nat.ne_of_lt hi
  have hnext : g.nextIndex ≤ ((g.addNode n).addEdge i g.nextIndex edge).nextIndex := by
    rw [nextIndex_addEdge, nextIndex_addNode]
    exact Nat.le_succ _
  have hbare : ((g.addNode n).addEdge i g.nextIndex edge).out g.nextIndex = [] := by
    rw [out_addEdge, if_neg (Ne.symm hne)]
    exact h.out_nextIndex
  refine ⟨?_, Nat.le_trans hnext hgrows.next, ?_, hgrows.node _ _ ?_, hgrows.leads_of_bare hbare⟩
  · have hfirst := (extends_addNode g n).trans (extends_addEdge (g.addNode n) i g.nextIndex edge)
      (by rw [nextIndex_addNode]; exact Nat.le_succ _)
    refine (hfirst.trans hgrows.kept hnext).mono ?_
    rintro k hk ((hf | hki) | hkn)
    · exact hf.elim
    · exact hki
    · exact absurd hkn (Nat.ne_of_lt hk)
  · rw [hgrows.kept.out i (Nat.lt_of_lt_of_le hi hnext) hne, out_addEdge, if_pos rfl]
    rfl
  · rw [node?_addEdge, node?_addNode, if_pos rfl]

/-- The graph with one more value of a route and with its type. -/
def addValue (g : SymbolGraph) (route : NodeIndex) (v : (SymbolEdge × SymbolNode) × TypeUse) :
    SymbolGraph :=
  ((g.addNode v.1.2).addEdge route g.nextIndex v.1.1).attach g.nextIndex .typeOf v.2

/-- A value of a pending route may be added. It does not stay pending itself. -/
theorem Shape.addValue (h : Shape C pending g) {i : NodeIndex} (hi : pending i)
    {v : (SymbolEdge × SymbolNode) × TypeUse}
    (hv : (∃ p, v.1.2 = .parameter p ∧ v.2 = p.type) ∨ ∃ r, v.1.2 = .result r ∧ v.2 = r.type)
    (hlive : ∀ id ∈ v.2.referencedModels, g.Live id) :
    Shape C pending (g.addValue i v) ∧ GrowsAt i [v.1] g (g.addValue i v) := by
  obtain ⟨⟨edge, n⟩, t⟩ := v
  have htype : ∀ t', n ≠ .type t' := by
    rcases hv with ⟨p, rfl, -⟩ | ⟨r, rfl, -⟩ <;> simp
  have hmodel : ∀ m, n ≠ .model m := by
    rcases hv with ⟨p, rfl, -⟩ | ⟨r, rfl, -⟩ <;> simp
  -- The new node is pending until it has been linked to its type.
  obtain ⟨hlinked, hsame⟩ := h.hang htype hmodel (.inl hi) edge
  obtain ⟨hshape, hgrows⟩ := hlinked.attach .typeOf (.inr rfl)
    fun id hid => hsame.live (hlive id hid)
  have hhung := h.hung (h.lt_of_pending hi) hgrows
  have hdone : NodeShape C (g.addValue i ((edge, n), t)) g.nextIndex n := by
    rcases hv with ⟨p, rfl, rfl⟩ | ⟨r, rfl, rfl⟩
    · exact hhung.leads
    · exact hhung.leads
  refine ⟨(hshape.settle hhung.node hdone).congr fun k => ⟨?_, fun hp => ?_⟩,
    hsame.trans hgrows.toSameModels, hhung.kept, hhung.next, hgrows.controllers, _, hhung.out,
    .cons ⟨rfl, hhung.node⟩ .nil⟩
  · rintro ⟨hp | hk, hne⟩
    · exact hp
    · exact absurd hk hne
  · exact ⟨.inl hp, Nat.ne_of_lt (h.lt_of_pending hp)⟩

/-- The graph with several values of a route added. -/
def addValues (g : SymbolGraph) (route : NodeIndex)
    (values : List ((SymbolEdge × SymbolNode) × TypeUse)) : SymbolGraph :=
  values.foldl (fun g v => g.addValue route v) g

/-- Parameters and results are added under a route, each with an edge to its type. -/
theorem Shape.addValues (h : Shape C pending g) {i : NodeIndex} (hi : pending i)
    (values : List ((SymbolEdge × SymbolNode) × TypeUse))
    (hv : ∀ v ∈ values,
      (∃ p, v.1.2 = .parameter p ∧ v.2 = p.type) ∨ ∃ r, v.1.2 = .result r ∧ v.2 = r.type)
    (hlive : ∀ v ∈ values, ∀ id ∈ v.2.referencedModels, g.Live id) :
    Shape C pending (g.addValues i values) ∧
      GrowsAt i (values.map (·.1)) g (g.addValues i values) := by
  induction values generalizing g with
  | nil => exact ⟨h, .refl g i⟩
  | cons v values ih =>
    obtain ⟨hs, hg⟩ := h.addValue hi (hv v (by simp)) (hlive v (by simp))
    obtain ⟨hs', hg'⟩ := ih hs (fun w hw => hv w (by simp [hw]))
      fun w hw id hid => hg.live (hlive w (by simp [hw]) id hid)
    exact ⟨hs', hg.trans hg'⟩

/-- The graph with a route and everything below it added. -/
def withRoute (g : SymbolGraph) (controller : NodeIndex) (ordinal : Nat) (parts : RouteParts) :
    SymbolGraph :=
  ((g.addNode (.route parts.route)).addEdge controller g.nextIndex (.route ordinal)).addValues
    g.nextIndex parts.values

/-- A graph after a controller was given a route: nothing is lost, the controller has one more edge,
and no model has come. -/
structure GainsRoute (controller : NodeIndex) (ordinal : Nat) (parts : RouteParts)
    (g g' : SymbolGraph) : Prop extends SameModels g g' where
  kept : Extends (· = controller) g g'
  next : g.nextIndex ≤ g'.nextIndex
  controllers : g'.controllerNodes = g.controllerNodes
  gained : ∃ e, g'.out controller = g.out controller ++ [e] ∧ g'.LeadsToRoute parts ordinal e

/-- A route of a controller may be added, once all models in its types are live. -/
theorem WellShaped.withRoute (h : WellShaped C g) {controller : NodeIndex}
    (hc : controller ∈ g.controllerNodes) (ordinal : Nat) {parts : RouteParts}
    (hparts : C.Route parts)
    (hlive : ∀ v ∈ parts.values, ∀ id ∈ v.2.referencedModels, g.Live id) :
    WellShaped C (g.withRoute controller ordinal parts) ∧
      GainsRoute controller ordinal parts g (g.withRoute controller ordinal parts) := by
  obtain ⟨c, hcontroller⟩ := h.controllers controller hc
  obtain ⟨hlinked, hsame⟩ := h.hang (n := .route parts.route) (by simp) (by simp)
    (.inr ⟨c, hcontroller⟩) (.route ordinal)
  have hvalues : ∀ v ∈ parts.values,
      (∃ p, v.1.2 = .parameter p ∧ v.2 = p.type) ∨ ∃ r, v.1.2 = .result r ∧ v.2 = r.type := by
    intro v hv
    simp only [RouteParts.values, List.mem_append, List.mem_map] at hv
    rcases hv with ⟨p, -, rfl⟩ | ⟨r, -, rfl⟩
    · exact .inl ⟨p, rfl, rfl⟩
    · exact .inr ⟨r, rfl, rfl⟩
  obtain ⟨hshape, hgrows⟩ := hlinked.addValues (.inr rfl) parts.values hvalues
    fun v hv id hid => hsame.live (hlive v hv id hid)
  have htargets : parts.values.map (·.1) = parts.targets := by
    simp [RouteParts.values, RouteParts.targets, Function.comp_def]
  rw [htargets] at hgrows
  have hhung := h.hung (lt_nextIndex hcontroller) hgrows
  have hdone : RouteShape C (g.withRoute controller ordinal parts) g.nextIndex parts.route := by
    refine ⟨⟨controller, ?_, ordinal, ?_⟩, parts, hparts, rfl, hhung.leads⟩
    · rw [SymbolGraph.withRoute, hgrows.controllers]
      exact hc
    · exact hgrows.kept.edges _ (List.mem_append_right _ (by simp))
  exact ⟨(hshape.settle hhung.node hdone).congr (by simp), hsame.trans hgrows.toSameModels,
    hhung.kept, hhung.next, hgrows.controllers, _, hhung.out, rfl, hhung.node, hhung.leads⟩

end SymbolGraph

end RouteAtlas
