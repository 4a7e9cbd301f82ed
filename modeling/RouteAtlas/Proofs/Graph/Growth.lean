import RouteAtlas.Proofs.Graph.Shape

/-!
# How a graph grows

Every operation that a build applies to its graph keeps the shape of the graph and everything that
is there already. New nodes are pending until their edges have been added.
-/

set_option autoImplicit false

namespace RouteAtlas.SymbolGraph

variable {C : Contents} {pending : NodeIndex → Prop} {g g' g'' : SymbolGraph}

namespace Extends

variable {touched touched' : NodeIndex → Prop}

/-- A graph holds itself. -/
theorem refl (g : SymbolGraph) : Extends touched g g :=
  ⟨fun _ _ h _ => h, fun _ _ _ => rfl, fun _ _ h => h, fun _ h => h, fun _ h => h⟩

/-- A graph that holds one that holds another holds that, but for what was touched on the way. -/
theorem trans (h : Extends touched g g') (h' : Extends touched' g' g'')
    (hn : g.nextIndex ≤ g'.nextIndex) :
    Extends (fun k => touched k ∨ touched' k) g g'' where
  node := fun k n hk hm => h'.node k n (h.node k n hk hm) hm
  out := by
    intro k hk ht
    rw [h'.out k (Nat.lt_of_lt_of_le hk hn) fun hk' => ht (.inr hk'),
      h.out k hk fun hk' => ht (.inl hk')]
  index := fun id i hi => h'.index id i (h.index id i hi)
  controllers := fun i hi => h'.controllers i (h.controllers i hi)
  edges := fun e he => h'.edges e (h.edges e he)

/-- Only the nodes that were there can be touched, and more of them may count as such. -/
theorem mono (h : Extends touched g g') (ht : ∀ k, k < g.nextIndex → touched k → touched' k) :
    Extends touched' g g' :=
  ⟨h.node, fun k hk hk' => h.out k hk fun hk'' => hk' (ht k hk hk''), h.index, h.controllers,
    h.edges⟩

end Extends

/-! ## Nodes and edges -/

/-- A new node takes the next index. -/
theorem nextIndex_addNode (g : SymbolGraph) (n : SymbolNode) :
    (g.addNode n).nextIndex = g.nextIndex + 1 := by
  simp [nextIndex, addNode]

/-- A new edge takes no index. -/
theorem nextIndex_addEdge (g : SymbolGraph) (i j : NodeIndex) (e : SymbolEdge) :
    (g.addEdge i j e).nextIndex = g.nextIndex := rfl

/-- A graph with a new node holds the graph before, with nothing touched. -/
theorem extends_addNode (g : SymbolGraph) (n : SymbolNode) :
    Extends (fun _ => False) g (g.addNode n) where
  node := fun _ _ hk _ => node?_of_concat rfl hk
  out := fun _ _ _ => rfl
  index := fun _ _ h => h
  controllers := fun _ h => h
  edges := fun _ h => h

/-- A graph with a new edge holds the graph before, but for the node that the edge leaves. -/
theorem extends_addEdge (g : SymbolGraph) (i j : NodeIndex) (e : SymbolEdge) :
    Extends (· = i) g (g.addEdge i j e) where
  node := fun _ _ h _ => h
  out := by
    intro k _ hk
    rw [out_addEdge, if_neg hk]
  index := fun _ _ h => h
  controllers := fun _ h => h
  edges := fun x hx => List.mem_append_left _ hx

namespace Shape

/-- A new node that is neither a type nor a model is pending. -/
theorem addNode (h : Shape C pending g) {n : SymbolNode} (ht : ∀ t, n ≠ .type t)
    (hm : ∀ m, n ≠ .model m) :
    Shape C (fun k => pending k ∨ k = g.nextIndex) (g.addNode n) := by
  have hold : ∀ {k : NodeIndex} {n' : SymbolNode}, (g.addNode n).node? k = some n' →
      k ≠ g.nextIndex → g.node? k = some n' := by
    intro k n' hk hne
    rwa [node?_addNode, if_neg hne] at hk
  have hnew : ∀ {k : NodeIndex} {n' : SymbolNode}, (g.addNode n).node? k = some n' →
      n' ≠ n → g.node? k = some n' := by
    intro k n' hk hne
    apply hold hk
    rintro rfl
    rw [node?_addNode, if_pos rfl] at hk
    exact hne (by simpa using hk.symm)
  have hkept := extends_addNode g n
  refine h.of_extends hkept ?_ ?_ ?_ ?_ ?_ ?_ ?_
  · intro e he
    rw [nextIndex_addNode]
    have := h.bounded e he
    exact ⟨Nat.lt_succ_of_lt this.1, Nat.lt_succ_of_lt this.2⟩
  · intro t j
    constructor
    · intro hj
      exact hkept.node j _ ((h.types t j).1 hj) (by simp)
    · intro hj
      exact (h.types t j).2 (hnew hj (Ne.symm (ht t)))
  · intro i hi
    obtain ⟨c, hc⟩ := h.controllers i hi
    exact ⟨c, hkept.node i _ hc (by simp)⟩
  · intro id e he
    obtain ⟨m, hm', hid, hstate⟩ := h.entries id e he
    exact ⟨m, node?_of_concat rfl hm', hid, hstate⟩
  · intro i m hi
    exact h.models i m (hnew hi (Ne.symm (hm m)))
  · rintro i (hp | rfl)
    · obtain ⟨n', hn', ht'⟩ := h.working i hp
      exact ⟨n', node?_of_concat rfl hn', ht'⟩
    · exact ⟨n, by rw [node?_addNode, if_pos rfl], ht⟩
  · intro i n' hi hp
    exact .inl ⟨hold hi fun hi' => hp (.inr hi'), fun hp' => hp (.inl hp'), id⟩

/-- An edge may be added to a pending node, and to a controller at any time. -/
theorem addEdge (h : Shape C pending g) {i j : NodeIndex} (e : SymbolEdge)
    (hi : pending i ∨ ∃ c, g.node? i = some (.controller c)) (hin : i < g.nextIndex)
    (hjn : j < g.nextIndex) : Shape C pending (g.addEdge i j e) := by
  refine h.of_extends (extends_addEdge g i j e) ?_ h.types h.controllers h.entries h.models
    h.working ?_
  · intro x hx
    rcases List.mem_append.1 hx with hx | hx
    · exact h.bounded x hx
    · obtain rfl : x = ⟨i, j, e⟩ := by simpa using hx
      exact ⟨hin, hjn⟩
  · intro k n hk hp
    by_cases hki : k = i
    · subst hki
      rcases hi with hi | ⟨c, hc⟩
      · exact absurd hi hp
      · obtain rfl : n = .controller c := by
          rw [node?_addEdge, hc] at hk
          simpa using hk.symm
        exact .inr (h.nodes k _ hc hp)
    · exact .inl ⟨hk, hp, hki⟩

end Shape

/-! ## Types -/

/-- A graph with more nodes, but with the same models in the same states. -/
structure SameModels (g g' : SymbolGraph) : Prop where
  node : ∀ k n, g.node? k = some n → g'.node? k = some n
  model : ∀ k m, g'.node? k = some (.model m) → g.node? k = some (.model m)
  entry : ∀ id, g'.modelEntry? id = g.modelEntry? id

namespace SameModels

/-- A graph has the models that it has. -/
theorem refl (g : SymbolGraph) : SameModels g g := ⟨fun _ _ h => h, fun _ _ h => h, fun _ => rfl⟩

/-- What keeps the models twice keeps them. -/
theorem trans (h : SameModels g g') (h' : SameModels g' g'') : SameModels g g'' :=
  ⟨fun k n hk => h'.node k n (h.node k n hk), fun k m hk => h.model k m (h'.model k m hk),
    fun id => (h'.entry id).trans (h.entry id)⟩

/-- A model that is live stays so. -/
theorem live (h : SameModels g g') {id : DeclId} (hid : g.Live id) : g'.Live id := by
  obtain ⟨e, he, hs⟩ := hid
  exact ⟨e, (h.entry id).trans he, hs⟩

/-- A new node that is no model keeps the models. -/
theorem addNode (g : SymbolGraph) {n : SymbolNode} (hn : ∀ m, n ≠ .model m) :
    SameModels g (g.addNode n) where
  node := fun _ _ hk => node?_of_concat rfl hk
  model := by
    intro k m hk
    rw [node?_addNode] at hk
    by_cases hkn : k = g.nextIndex
    · rw [if_pos hkn] at hk
      exact absurd (by simpa using hk) (hn m)
    · rwa [if_neg hkn] at hk
  entry := fun _ => rfl

/-- A new edge keeps the models. -/
theorem addEdge (g : SymbolGraph) (i j : NodeIndex) (e : SymbolEdge) :
    SameModels g (g.addEdge i j e) :=
  ⟨fun _ _ h => h, fun _ _ h => h, fun _ => rfl⟩

end SameModels

/-- A graph after a node was given more edges: nothing is lost, the new edges of the node lead where
they should, and no model has come. -/
structure GrowsAt (i : NodeIndex) (targets : List (SymbolEdge × SymbolNode))
    (g g' : SymbolGraph) : Prop extends SameModels g g' where
  kept : Extends (· = i) g g'
  next : g.nextIndex ≤ g'.nextIndex
  controllers : g'.controllerNodes = g.controllerNodes
  leads : ∃ es, g'.out i = g.out i ++ es ∧
    List.Forall₂ (fun e x => e.edge = x.1 ∧ g'.node? e.target = some x.2) es targets

namespace GrowsAt

variable {i : NodeIndex} {targets targets' : List (SymbolEdge × SymbolNode)}

/-- A node that was given nothing has no new edges. -/
theorem refl (g : SymbolGraph) (i : NodeIndex) : GrowsAt i [] g g :=
  ⟨.refl g, .refl g, Nat.le_refl _, rfl, [], (List.append_nil _).symm, .nil⟩

/-- The edges that a node was given in two steps stand one after the other. -/
theorem trans (h : GrowsAt i targets g g') (h' : GrowsAt i targets' g' g'') :
    GrowsAt i (targets ++ targets') g g'' where
  toSameModels := h.toSameModels.trans h'.toSameModels
  kept := (h.kept.trans h'.kept h.next).mono (by simp)
  next := Nat.le_trans h.next h'.next
  controllers := h'.controllers.trans h.controllers
  leads := by
    obtain ⟨es, hes, hl⟩ := h.leads
    obtain ⟨es', hes', hl'⟩ := h'.leads
    refine ⟨es ++ es', by rw [hes', hes, List.append_assoc], List.rel_append ?_ hl'⟩
    exact hl.imp fun e x hx => ⟨hx.1, h'.node _ _ hx.2⟩

/-- A node without edges leads where it was made to lead. -/
theorem leads_of_bare (h : GrowsAt i targets g g') (hbare : g.out i = []) :
    g'.Leads i targets := by
  obtain ⟨es, hes, hl⟩ := h.leads
  rw [hbare, List.nil_append] at hes
  rw [Leads, hes]
  exact hl

end GrowsAt

/-- A use that is known is linked to, and nothing else happens. -/
theorem attach_of_known (h : Shape C pending g) {i j : NodeIndex} (edge : SymbolEdge)
    {t : TypeUse} (hi : pending i) (hj : g.typeIndex? t = some j) :
    g.attach i edge t = g.addEdge i j edge := by
  have hnode : g.node? j = some (.type t) := (h.types t j).1 hj
  have hrefers : g.RefersTo j t := h.nodes j _ hnode (h.settled hnode)
  have hne : i ≠ j := by
    rintro rfl
    exact h.settled hnode hi
  have hintern : g.internType t = (g, j) := by
    rw [internType, hj]
  rw [attach, hintern]
  have hout : (g.addEdge i j edge).out j = g.out j := by
    rw [out_addEdge, if_neg (Ne.symm hne)]
  apply foldl_linkModel_of_linked
  · intro x hx hs
    have hmem : x ∈ (g.addEdge i j edge).out j := (mem_out _).2 ⟨hx, hs⟩
    exact (hrefers.sound x (hout ▸ hmem)).1
  · intro id hid
    obtain ⟨x, hx, hindex⟩ := hrefers.complete id hid
    obtain ⟨e, he, hnode⟩ := Option.map_eq_some_iff.1 hindex
    exact ⟨e, he, x, hout ▸ hx, hnode.symm⟩

/-- A graph with a new use of a type, to which one node leads and which leads to some models. -/
def withType (g : SymbolGraph) (i : NodeIndex) (edge : SymbolEdge) (t : TypeUse)
    (targets : List NodeIndex) : SymbolGraph :=
  { g with
    nodes := g.nodes ++ [.type t]
    types := g.types ++ [(t, g.nextIndex)]
    edges := g.edges ++ [⟨i, g.nextIndex, edge⟩] ++
      targets.map fun k => ⟨g.nextIndex, k, .references⟩ }

/-- A use that is not known becomes a node, which is linked to each of its models once. -/
theorem attach_of_new (h : Shape C pending g) {i : NodeIndex} (edge : SymbolEdge)
    {t : TypeUse} (hi : pending i) (ht : g.typeIndex? t = none)
    (hlive : ∀ id ∈ t.referencedModels, g.Live id) :
    ∃ targets : List NodeIndex, targets.Nodup ∧
      (∀ k, k ∈ targets ↔ ∃ id ∈ t.referencedModels, g.modelIndex? id = some k) ∧
      g.attach i edge t = g.withType i edge t targets := by
  have hintern : g.internType t =
      ({ g.addNode (.type t) with types := g.types ++ [(t, g.nextIndex)] }, g.nextIndex) := by
    rw [internType, ht]
  have hbare : ∀ x ∈ (({ g.addNode (.type t) with
      types := g.types ++ [(t, g.nextIndex)] } : SymbolGraph).addEdge i g.nextIndex edge).edges,
      x.source ≠ g.nextIndex := by
    intro x hx
    rcases List.mem_append.1 hx with hx | hx
    · exact Nat.ne_of_lt (h.bounded x hx).1
    · obtain rfl : x = ⟨i, g.nextIndex, edge⟩ := by simpa using hx
      exact Nat.ne_of_lt (h.lt_of_pending hi)
  rw [attach, hintern]
  obtain ⟨targets, hnodup, hmem, heq⟩ := foldl_linkModel_of_bare hbare t.referencedModels hlive
  refine ⟨targets, hnodup, ?_, heq⟩
  intro k
  rw [hmem]
  constructor
  · rintro ⟨id, hid, e, he, rfl⟩
    exact ⟨id, hid, modelIndex?_eq he⟩
  · rintro ⟨id, hid, hindex⟩
    obtain ⟨e, he, hnode⟩ := Option.map_eq_some_iff.1 hindex
    exact ⟨id, hid, e, he, hnode⟩

section WithType

variable (g) (i : NodeIndex) (edge : SymbolEdge) (t : TypeUse) (targets : List NodeIndex)

/-- The new node is the use of the type, and no other is changed. -/
theorem node?_withType (k : NodeIndex) :
    (g.withType i edge t targets).node? k =
      if k = g.nextIndex then some (.type t) else g.node? k :=
  node?_addNode g (.type t) k

/-- The use of a type takes one index. -/
theorem nextIndex_withType : (g.withType i edge t targets).nextIndex = g.nextIndex + 1 := by
  simp [withType, nextIndex]

/-- Old nodes keep their edges, but the one that leads to the new use has one more. -/
theorem out_withType {k : NodeIndex} (hk : k < g.nextIndex) :
    (g.withType i edge t targets).out k =
      if k = i then g.out k ++ [⟨i, g.nextIndex, edge⟩] else g.out k := by
  have hlinks : (targets.map fun k => (⟨g.nextIndex, k, .references⟩ : GraphEdge)).filter
      (·.source == k) = [] := by
    rw [List.filter_eq_nil_iff]
    intro x hx
    obtain ⟨j, -, rfl⟩ := List.mem_map.1 hx
    simpa using (Nat.ne_of_lt hk).symm
  rw [withType, out, List.filter_append, hlinks, List.append_nil]
  exact out_addEdge g i g.nextIndex k edge

/-- The new node leads to its targets, and each edge is a reference. -/
theorem out_withType_new (hbare : g.out g.nextIndex = []) (hi : i < g.nextIndex) :
    (g.withType i edge t targets).out g.nextIndex =
      targets.map fun k => ⟨g.nextIndex, k, .references⟩ := by
  have hold : (g.addEdge i g.nextIndex edge).out g.nextIndex = [] := by
    rw [out_addEdge, if_neg (Nat.ne_of_gt hi)]
    exact hbare
  have hlinks : (targets.map fun k => (⟨g.nextIndex, k, .references⟩ : GraphEdge)).filter
      (·.source == g.nextIndex) = targets.map fun k => ⟨g.nextIndex, k, .references⟩ := by
    rw [List.filter_eq_self]
    intro x hx
    obtain ⟨k, -, rfl⟩ := List.mem_map.1 hx
    simp
  rw [withType, out, List.filter_append, hlinks]
  exact congrArg (· ++ _) hold

/-- The new use is found under its own node, and the others where they were. -/
theorem typeIndex?_withType (ht : g.typeIndex? t = none) (t' : TypeUse) :
    (g.withType i edge t targets).typeIndex? t' =
      if t' = t then some g.nextIndex else g.typeIndex? t' := by
  have hfind : (g.withType i edge t targets).typeIndex? t' =
      ((g.types ++ [(t, g.nextIndex)]).find? (·.1 == t')).map (·.2) := rfl
  rw [hfind, List.find?_append]
  by_cases htt : t' = t
  · subst htt
    have hnone : g.types.find? (·.1 == t') = none := by
      simpa [typeIndex?] using ht
    simp [hnone]
  · rw [if_neg htt, typeIndex?]
    cases g.types.find? (·.1 == t') with
    | some x => rfl
    | none => simp [Ne.symm htt]

/-- A graph with the use of a type holds the graph before, but for the node that uses it. -/
theorem extends_withType : Extends (· = i) g (g.withType i edge t targets) where
  node := fun _ _ hk _ => node?_of_concat rfl hk
  out := by
    intro k hk hki
    rw [out_withType g i edge t targets hk, if_neg hki]
  index := fun _ _ h => h
  controllers := fun _ h => h
  edges := by
    intro e he
    simp [withType, he]

end WithType

section NewType

variable {i : NodeIndex} {t : TypeUse} {targets : List NodeIndex}
  (hmem : ∀ k, k ∈ targets ↔ ∃ id ∈ t.referencedModels, g.modelIndex? id = some k)

/-- The uses of types are found under their nodes, the new one too. -/
theorem Shape.typeIndex?_withType_iff (h : Shape C pending g) (i : NodeIndex) (edge : SymbolEdge)
    (ht : g.typeIndex? t = none) (targets : List NodeIndex) (t' : TypeUse) (j : NodeIndex) :
    (g.withType i edge t targets).typeIndex? t' = some j ↔
      (g.withType i edge t targets).node? j = some (.type t') := by
  rw [typeIndex?_withType g i edge t targets ht, node?_withType]
  have hfree : g.typeIndex? t' ≠ some g.nextIndex := by
    intro hk
    exact Nat.lt_irrefl _ (lt_nextIndex ((h.types t' _).1 hk))
  have hunknown : g.node? j ≠ some (.type t) := by
    intro hk
    rw [(h.types t j).2 hk] at ht
    cases ht
  by_cases htt : t' = t
  · subst htt
    by_cases hj : j = g.nextIndex
    · simp [hj]
    · simp [hj, Ne.symm hj, hunknown]
  · by_cases hj : j = g.nextIndex
    · simp [hj, htt, Ne.symm htt, hfree]
    · simp [hj, htt, h.types t' j]

include hmem

/-- The new use leads to the models it refers to. -/
theorem refersTo_withType (edge : SymbolEdge) (hbare : g.out g.nextIndex = [])
    (hi : i < g.nextIndex) (hnodup : targets.Nodup)
    (hlive : ∀ id ∈ t.referencedModels, g.Live id) :
    (g.withType i edge t targets).RefersTo g.nextIndex t := by
  have hnew := out_withType_new g i edge t targets hbare hi
  refine ⟨?_, ?_, ?_⟩
  · intro e he
    rw [hnew] at he
    obtain ⟨j, hj, rfl⟩ := List.mem_map.1 he
    exact ⟨rfl, (hmem j).1 hj⟩
  · intro id hid
    obtain ⟨e, he, -⟩ := hlive id hid
    refine ⟨⟨g.nextIndex, e.node, .references⟩, ?_, modelIndex?_eq he⟩
    rw [hnew]
    exact List.mem_map.2 ⟨e.node, (hmem _).2 ⟨id, hid, modelIndex?_eq he⟩, rfl⟩
  · rw [hnew, List.map_map]
    simpa [Function.comp_def] using hnodup

/-- The shape of a graph with a new use of a type. -/
theorem Shape.withType (h : Shape C pending g) (edge : SymbolEdge) (hi : pending i)
    (ht : g.typeIndex? t = none) (hnodup : targets.Nodup)
    (hlive : ∀ id ∈ t.referencedModels, g.Live id) :
    Shape C pending (g.withType i edge t targets) := by
  have hin := h.lt_of_pending hi
  refine h.of_extends (extends_withType g i edge t targets) ?_
    (h.typeIndex?_withType_iff i edge ht targets) ?_ ?_ ?_ ?_ ?_
  · intro e he
    rw [nextIndex_withType]
    simp only [SymbolGraph.withType, List.mem_append, List.mem_singleton, List.mem_map] at he
    rcases he with (he | rfl) | ⟨k, hk, rfl⟩
    · have hb := h.bounded e he
      exact ⟨Nat.lt_succ_of_lt hb.1, Nat.lt_succ_of_lt hb.2⟩
    · exact ⟨Nat.lt_succ_of_lt hin, Nat.lt_succ_self _⟩
    · obtain ⟨id, -, hid⟩ := (hmem k).1 hk
      obtain ⟨e, he, rfl⟩ := Option.map_eq_some_iff.1 hid
      obtain ⟨m, hm, -⟩ := h.entries id e he
      exact ⟨Nat.lt_succ_self _, Nat.lt_succ_of_lt (lt_nextIndex hm)⟩
  · intro k hk
    obtain ⟨c, hc⟩ := h.controllers k hk
    exact ⟨c, node?_of_concat rfl hc⟩
  · intro id e he
    obtain ⟨m, hm, hid, hstate⟩ := h.entries id e he
    exact ⟨m, node?_of_concat rfl hm, hid, hstate⟩
  · intro k m hk
    rw [node?_withType] at hk
    by_cases hkn : k = g.nextIndex
    · simp [hkn] at hk
    · rw [if_neg hkn] at hk
      exact h.models k m hk
  · intro k hp
    obtain ⟨n, hn, hnt⟩ := h.working k hp
    exact ⟨n, node?_of_concat rfl hn, hnt⟩
  · intro k n hk hp
    rw [node?_withType] at hk
    by_cases hkn : k = g.nextIndex
    · right
      rw [if_pos hkn] at hk
      obtain rfl : n = .type t := by simpa using hk.symm
      exact hkn ▸ refersTo_withType hmem edge h.out_nextIndex hin hnodup hlive
    · left
      rw [if_neg hkn] at hk
      refine ⟨hk, hp, ?_⟩
      rintro rfl
      exact hp hi

end NewType

/-- Linking a pending node to the use of a type keeps the shape. -/
theorem Shape.attach (h : Shape C pending g) {i : NodeIndex} (edge : SymbolEdge)
    {t : TypeUse} (hi : pending i) (hlive : ∀ id ∈ t.referencedModels, g.Live id) :
    Shape C pending (g.attach i edge t) ∧
      GrowsAt i [(edge, .type t)] g (g.attach i edge t) := by
  have hin := h.lt_of_pending hi
  cases hj : g.typeIndex? t with
  | some j =>
    have hnode : g.node? j = some (.type t) := (h.types t j).1 hj
    rw [attach_of_known h edge hi hj]
    refine ⟨h.addEdge edge (.inl hi) hin (lt_nextIndex hnode), .addEdge g i j edge,
      extends_addEdge g i j edge, Nat.le_refl _, rfl, [⟨i, j, edge⟩], ?_, ?_⟩
    · rw [out_addEdge, if_pos rfl]
    · exact .cons ⟨rfl, hnode⟩ .nil
  | none =>
    obtain ⟨targets, hnodup, hmem, heq⟩ := attach_of_new h edge hi hj hlive
    rw [heq]
    have hsame : SameModels g (g.withType i edge t targets) :=
      ⟨(SameModels.addNode g (n := .type t) (by simp)).node, (SameModels.addNode g (by simp)).model,
        fun _ => rfl⟩
    refine ⟨h.withType hmem edge hi hj hnodup hlive, hsame, extends_withType g i edge t targets, ?_,
      rfl, [⟨i, g.nextIndex, edge⟩], ?_, ?_⟩
    · rw [nextIndex_withType]
      exact Nat.le_succ _
    · rw [out_withType g i edge t targets hin, if_pos rfl]
    · exact .cons ⟨rfl, by rw [node?_withType, if_pos rfl]⟩ .nil

/-- The graph with a node linked to the uses of several types. -/
def attachAll (g : SymbolGraph) (i : NodeIndex) (uses : List (SymbolEdge × TypeUse)) :
    SymbolGraph :=
  uses.foldl (fun g u => g.attach i u.1 u.2) g

/-- Linking a pending node to several types keeps the shape. -/
theorem Shape.attachAll (h : Shape C pending g) {i : NodeIndex} (hi : pending i)
    (uses : List (SymbolEdge × TypeUse))
    (hlive : ∀ u ∈ uses, ∀ id ∈ u.2.referencedModels, g.Live id) :
    Shape C pending (g.attachAll i uses) ∧
      GrowsAt i (uses.map fun u => (u.1, .type u.2)) g (g.attachAll i uses) := by
  induction uses generalizing g with
  | nil => exact ⟨h, .refl g i⟩
  | cons u uses ih =>
    obtain ⟨hs, hg⟩ := h.attach u.1 hi (hlive u (by simp))
    obtain ⟨hs', hg'⟩ := ih hs fun v hv id hid => hg.live (hlive v (by simp [hv]) id hid)
    exact ⟨hs', hg.trans hg'⟩

/-! ## Models -/

/-- Completing a model keeps the graph as it was but for that model. -/
theorem extends_completeModel {i : NodeIndex} {m : ModelNode} (hi : g.node? i = some (.model m))
    (hindex : g.modelIndex? m.id = some i) (metadata : ModelMetadata) :
    Extends (fun _ => False) g (g.completeModel i metadata) where
  node := by
    intro k n hk hn
    rw [node?_completeModel g hi]
    by_cases hki : k = i
    · subst hki
      rw [hi] at hk
      exact absurd (by simpa using hk.symm) (hn m)
    · rwa [if_neg hki]
  out := by
    intro k _ _
    simp [out]
  index := by
    intro id k hk
    rw [modelIndex?, modelEntry?_completeModel g hi]
    by_cases hid : id = m.id
    · subst hid
      rw [hindex] at hk
      simpa using hk
    · rw [if_neg hid]
      exact hk
  controllers := by simp
  edges := by simp

/-- A pending model that leads to the types in its metadata is complete. -/
theorem Shape.completeModel (h : Shape C pending g) {i : NodeIndex} {m : ModelNode}
    (hi : g.node? i = some (.model m)) {metadata : ModelMetadata}
    (hmodel : C.Model { m with metadata := some metadata })
    (hleads : g.LeadsToTypes i metadata.uses) :
    Shape C (fun k => pending k ∧ k ≠ i) (g.completeModel i metadata) := by
  have hindex : g.modelIndex? m.id = some i := h.models i m hi
  have hx := extends_completeModel hi hindex metadata
  refine h.of_extends hx ?_ ?_ ?_ ?_ ?_ ?_ ?_
  · rw [nextIndex_completeModel, edges_completeModel]
    exact h.bounded
  · intro t j
    have htype : (g.completeModel i metadata).typeIndex? t = g.typeIndex? t := by
      rw [typeIndex?, types_completeModel, typeIndex?]
    rw [htype, h.types, node?_completeModel g hi]
    by_cases hj : j = i
    · simp [hj, hi]
    · rw [if_neg hj]
  · intro k hk
    obtain ⟨c, hc⟩ := h.controllers k (by simpa using hk)
    exact ⟨c, hx.node k _ hc (by simp)⟩
  · intro id e he
    rw [modelEntry?_completeModel g hi] at he
    by_cases hid : id = m.id
    · rw [if_pos hid] at he
      obtain rfl : e = ⟨m.id, i, .complete⟩ := by simpa using he.symm
      exact ⟨{ m with metadata := some metadata }, by rw [node?_completeModel g hi, if_pos rfl],
        hid.symm, by simp⟩
    · rw [if_neg hid] at he
      obtain ⟨m', hm', hid', hstate⟩ := h.entries id e he
      refine ⟨m', ?_, hid', hstate⟩
      rw [node?_completeModel g hi, if_neg, hm']
      intro hei
      rw [hei, hi] at hm'
      cases hm'
      exact hid hid'.symm
  · intro k m' hk
    rw [node?_completeModel g hi] at hk
    by_cases hki : k = i
    · rw [if_pos hki] at hk
      obtain rfl : { m with metadata := some metadata } = m' := by simpa using hk
      subst hki
      exact hx.index _ _ hindex
    · rw [if_neg hki] at hk
      exact hx.index _ _ (h.models k m' hk)
  · rintro k ⟨hp, hki⟩
    obtain ⟨n, hn, ht⟩ := h.working k hp
    exact ⟨n, by rw [node?_completeModel g hi, if_neg hki, hn], ht⟩
  · intro k n hk hp
    rw [node?_completeModel g hi] at hk
    by_cases hki : k = i
    · right
      rw [if_pos hki] at hk
      obtain rfl : .model { m with metadata := some metadata } = n := by simpa using hk
      subst hki
      exact ⟨hmodel, hleads.extend hx (lt_nextIndex hi) id⟩
    · rw [if_neg hki] at hk
      exact .inl ⟨hk, fun hp' => hp ⟨hp', hki⟩, id⟩

end RouteAtlas.SymbolGraph
