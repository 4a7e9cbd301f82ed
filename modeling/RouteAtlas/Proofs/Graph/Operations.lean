import RouteAtlas.Build.Expansion
import Mathlib

/-!
# What the operations of the graph do

A graph is looked at through three views: the node of an index, the edges that leave a node, and
the entry of a model. There is one equation for each operation and each view it changes. Linking
a use of a type to the models it refers to happens all at once (`attach_of_new`), and a second time
nothing is linked again (`attach_of_known`).
-/

set_option autoImplicit false

namespace RouteAtlas.SymbolGraph

/-- The edges that leave a node, the oldest first. -/
def out (g : SymbolGraph) (i : NodeIndex) : List GraphEdge := g.edges.filter (·.source == i)

/-- Whether a model has an entry and its expansion has not failed. -/
def Live (g : SymbolGraph) (id : DeclId) : Prop :=
  ∃ e, g.modelEntry? id = some e ∧ e.state ≠ .failed

variable (g : SymbolGraph)

/-- The edges that leave a node are those of the graph with it as their source. -/
theorem mem_out {i : NodeIndex} {e : GraphEdge} : e ∈ g.out i ↔ e ∈ g.edges ∧ e.source = i := by
  simp [out]

/-- A new edge changes no node. -/
@[simp] theorem node?_addEdge (i j k : NodeIndex) (e : SymbolEdge) :
    (g.addEdge i j e).node? k = g.node? k := rfl

/-- A new edge changes no entry. -/
@[simp] theorem modelEntry?_addEdge (i j : NodeIndex) (e : SymbolEdge) (id : DeclId) :
    SymbolGraph.modelEntry? (g.addEdge i j e) id = g.modelEntry? id := rfl

/-- A new edge is the last that leaves its source. -/
theorem out_addEdge (i j k : NodeIndex) (e : SymbolEdge) :
    (g.addEdge i j e).out k = if k = i then g.out k ++ [⟨i, j, e⟩] else g.out k := by
  by_cases h : k = i
  · subst h
    simp [out, addEdge]
  · simp [out, addEdge, h, Ne.symm h]

/-- A new node has the next index, and no other node is changed. -/
theorem node?_addNode (n : SymbolNode) (k : NodeIndex) :
    (g.addNode n).node? k = if k = g.nextIndex then some n else g.node? k := by
  show (g.nodes ++ [n])[k]? = if k = g.nodes.length then some n else g.nodes[k]?
  rcases Nat.lt_trichotomy k g.nodes.length with h | h | h
  · rw [List.getElem?_append_left h, if_neg (Nat.ne_of_lt h)]
  · subst h
    simp
  · rw [if_neg (Nat.ne_of_gt h), List.getElem?_eq_none (by simp; omega),
      List.getElem?_eq_none (by omega)]

/-- The index of a node is below the next one. -/
theorem lt_nextIndex {g : SymbolGraph} {k : NodeIndex} {n : SymbolNode}
    (h : g.node? k = some n) : k < g.nextIndex := by
  rw [node?, List.getElem?_eq_some_iff] at h
  exact h.1

/-- A node stays where it is when another one comes behind the rest. -/
theorem node?_of_concat {g g' : SymbolGraph} {n n' : SymbolNode} (h : g'.nodes = g.nodes ++ [n])
    {k : NodeIndex} (hk : g.node? k = some n') : g'.node? k = some n' := by
  rw [node?, h, List.getElem?_append_left (lt_nextIndex hk)]
  exact hk

/-! ## Entries of models -/

/-- An entry is found under its own identity. -/
theorem id_of_modelEntry? {g : SymbolGraph} {id : DeclId} {e : ModelEntry}
    (h : g.modelEntry? id = some e) : e.id = id := by
  have := List.find?_some h
  simpa using this

/-- Entries after one of them has been set. -/
theorem find?_setEntry (e : ModelEntry) (l : List ModelEntry) (id : DeclId) :
    (setEntry e l).find? (·.id == id) = if id = e.id then some e else l.find? (·.id == id) := by
  induction l with
  | nil =>
    by_cases h : id = e.id
    · simp [setEntry, h]
    · simp [setEntry, h, Ne.symm h]
  | cons x rest ih =>
    rw [setEntry]
    by_cases hx : x.id = e.id
    · by_cases h : id = e.id
      · simp [hx, h]
      · simp [hx, h, Ne.symm h]
    · rw [if_neg hx, List.find?_cons, List.find?_cons, ih]
      by_cases hxi : x.id = id
      · have hne : id ≠ e.id := hxi ▸ hx
        simp only [if_neg hne]
      · simp only [beq_eq_false_iff_ne.2 hxi]

/-- Beginning a model sets its entry and no other. -/
theorem modelEntry?_beginModel (m : ModelNode) (id : DeclId) :
    SymbolGraph.modelEntry? (g.beginModel m).1 id =
      if id = m.id then some ⟨m.id, g.nextIndex, .inProgress⟩ else g.modelEntry? id :=
  find?_setEntry _ _ _

/-- Completing a model sets its entry and no other. -/
theorem modelEntry?_completeModel {i : NodeIndex} {m : ModelNode} (h : g.node? i = some (.model m))
    (metadata : ModelMetadata) (id : DeclId) :
    SymbolGraph.modelEntry? (g.completeModel i metadata) id =
      if id = m.id then some ⟨m.id, i, .complete⟩ else g.modelEntry? id := by
  rw [completeModel, h]
  exact find?_setEntry _ _ _

/-- Giving up on a model changes the state of its entry and no other. -/
theorem modelEntry?_failModel {id : DeclId} {e : ModelEntry} (h : g.modelEntry? id = some e)
    (id' : DeclId) :
    SymbolGraph.modelEntry? (g.failModel id) id' =
      if id' = id then some { e with state := .failed } else g.modelEntry? id' := by
  rw [failModel, h]
  have hid : e.id = id := id_of_modelEntry? h
  subst hid
  exact find?_setEntry { e with state := .failed } g.models id'

/-- Completing a model gives its node the metadata and changes no other. -/
theorem node?_completeModel {i : NodeIndex} {m : ModelNode} (h : g.node? i = some (.model m))
    (metadata : ModelMetadata) (k : NodeIndex) :
    (g.completeModel i metadata).node? k =
      if k = i then some (.model { m with metadata := some metadata }) else g.node? k := by
  have hlt : i < g.nodes.length := lt_nextIndex h
  rw [completeModel, h]
  simp only [node?, List.getElem?_set]
  by_cases hk : k = i
  · simp [hk, hlt]
  · simp [hk, Ne.symm hk]

/-- Completing a model changes no edge. -/
@[simp] theorem edges_completeModel (i : NodeIndex) (metadata : ModelMetadata) :
    (g.completeModel i metadata).edges = g.edges := by
  rw [completeModel]
  split <;> rfl

/-- Completing a model changes no use of a type. -/
@[simp] theorem types_completeModel (i : NodeIndex) (metadata : ModelMetadata) :
    (g.completeModel i metadata).types = g.types := by
  rw [completeModel]
  split <;> rfl

/-- Completing a model changes no controller. -/
@[simp] theorem controllerNodes_completeModel (i : NodeIndex) (metadata : ModelMetadata) :
    (g.completeModel i metadata).controllerNodes = g.controllerNodes := by
  rw [completeModel]
  split <;> rfl

/-- Completing a model takes no index. -/
@[simp] theorem nextIndex_completeModel (i : NodeIndex) (metadata : ModelMetadata) :
    (g.completeModel i metadata).nextIndex = g.nextIndex := by
  rw [completeModel]
  split
  · simp [nextIndex]
  · rfl

/-- A failure changes nothing but an entry. -/
theorem failModel_eq (id : DeclId) :
    ∃ models, g.failModel id = { g with models := models } := by
  rw [failModel]
  split
  · exact ⟨_, rfl⟩
  · exact ⟨g.models, rfl⟩

/-! ## Linking -/

/-- Replacing an edge by itself changes nothing. -/
theorem replaceEdge?_self (source target : NodeIndex) (e : SymbolEdge) (l : List GraphEdge)
    (hlabel : ∀ x ∈ l, x.source = source → x.edge = e)
    (hmem : ∃ x ∈ l, x.source = source ∧ x.target = target) :
    replaceEdge? source target e l = some l := by
  induction l with
  | nil => simp at hmem
  | cons x rest ih =>
    rw [replaceEdge?]
    by_cases hx : x.source = source ∧ x.target = target
    · have he : x.edge = e := hlabel x (by simp) hx.1
      obtain ⟨hs, ht⟩ := hx
      subst he hs ht
      simp
    · obtain ⟨y, hy, hys⟩ := hmem
      rcases List.mem_cons.1 hy with rfl | hy
      · exact absurd hys hx
      · simp only [Bool.and_eq_true, decide_eq_true_eq, hx, if_false]
        rw [ih (fun z hz => hlabel z (by simp [hz])) ⟨y, hy, hys⟩]
        rfl

/-- There is nothing to replace if no edge has the two ends. -/
theorem replaceEdge?_eq_none (source target : NodeIndex) (e : SymbolEdge) (l : List GraphEdge)
    (h : ∀ x ∈ l, ¬(x.source = source ∧ x.target = target)) :
    replaceEdge? source target e l = none := by
  induction l with
  | nil => rfl
  | cons x rest ih =>
    rw [replaceEdge?, if_neg (by simpa using h x (by simp)), ih fun y hy => h y (by simp [hy])]
    rfl

/-- Linking nodes that are linked in this way changes nothing. -/
theorem link_of_linked {source target : NodeIndex} {e : SymbolEdge}
    (hlabel : ∀ x ∈ g.edges, x.source = source → x.edge = e)
    (hmem : ∃ x ∈ g.edges, x.source = source ∧ x.target = target) :
    g.link source target e = g := by
  rw [link, replaceEdge?_self source target e g.edges.reverse]
  · simp
  · intro x hx
    exact hlabel x (by simpa using hx)
  · obtain ⟨x, hx, hxs⟩ := hmem
    exact ⟨x, by simpa using hx, hxs⟩

/-- Linking nodes that are not linked adds an edge. -/
theorem link_of_not_linked {source target : NodeIndex} (e : SymbolEdge)
    (h : ∀ x ∈ g.edges, ¬(x.source = source ∧ x.target = target)) :
    g.link source target e = g.addEdge source target e := by
  rw [link, replaceEdge?_eq_none source target e g.edges.reverse]
  intro x hx
  exact h x (by simpa using hx)

/-- Links the use of a type to a model, unless that has failed. -/
def linkModel (typeIndex : NodeIndex) (g : SymbolGraph) (id : DeclId) : SymbolGraph :=
  match g.modelEntry? id with
  | some e => if e.state = .failed then g else g.link typeIndex e.node .references
  | none => g

/-- The graph with a node linked to the use of a type, and that to the models it refers to. -/
def attach (g : SymbolGraph) (i : NodeIndex) (edge : SymbolEdge) (t : TypeUse) : SymbolGraph :=
  t.referencedModels.foldl (linkModel (g.internType t).2)
    ((g.internType t).1.addEdge i (g.internType t).2 edge)

/-- A build links a node to the use of a type in one go. -/
theorem attachType_eq (i : NodeIndex) (edge : SymbolEdge) (t : TypeUse) :
    Build.attachType i edge t = Build.updateGraph fun g => g.attach i edge t := rfl

section Bare

variable {g}
variable {n : NodeIndex} (hbare : ∀ x ∈ g.edges, x.source ≠ n) {targets : List NodeIndex}
  {k : NodeIndex}

include hbare

/-- Whatever a node without edges is linked to already is not linked again. -/
theorem link_withReferences_of_mem (hk : k ∈ targets) :
    SymbolGraph.link
        { g with edges := g.edges ++ targets.map fun k => ⟨n, k, .references⟩ } n k .references =
      { g with edges := g.edges ++ targets.map fun k => ⟨n, k, .references⟩ } := by
  apply link_of_linked
  · intro x hx hs
    rcases List.mem_append.1 hx with hx | hx
    · exact absurd hs (hbare x hx)
    · obtain ⟨k, -, rfl⟩ := List.mem_map.1 hx
      rfl
  · exact ⟨⟨n, k, .references⟩, by simp [hk], rfl, rfl⟩

/-- Anything else is linked behind it. -/
theorem link_withReferences_of_notMem (hk : k ∉ targets) :
    SymbolGraph.link
        { g with edges := g.edges ++ targets.map fun k => ⟨n, k, .references⟩ } n k .references =
      { g with edges := g.edges ++ (targets ++ [k]).map fun k => ⟨n, k, .references⟩ } := by
  rw [link_of_not_linked]
  · simp [addEdge]
  · rintro x hx ⟨hs, ht⟩
    rcases List.mem_append.1 hx with hx | hx
    · exact hbare x hx hs
    · obtain ⟨k', hk', rfl⟩ := List.mem_map.1 hx
      exact hk (ht ▸ hk')

/-- A node without edges is linked to each of some models once. -/
theorem foldl_linkModel_of_bare (ids : List DeclId) (hlive : ∀ id ∈ ids, g.Live id) :
    ∃ targets : List NodeIndex, targets.Nodup ∧
      (∀ k, k ∈ targets ↔ ∃ id ∈ ids, ∃ e, g.modelEntry? id = some e ∧ e.node = k) ∧
      ids.foldl (linkModel n) g =
        { g with edges := g.edges ++ targets.map fun k => ⟨n, k, .references⟩ } := by
  induction ids using List.reverseRecOn with
  | nil => exact ⟨[], by simp, by simp, by simp⟩
  | append_singleton ids id ih =>
    obtain ⟨targets, hnodup, hmem, heq⟩ := ih fun id hid => hlive id (by simp [hid])
    obtain ⟨e, he, hstate⟩ := hlive id (by simp)
    have hmore : ∀ k, (∃ id' ∈ ids ++ [id], ∃ e', g.modelEntry? id' = some e' ∧ e'.node = k) ↔
        k ∈ targets ∨ k = e.node := by
      intro k
      rw [hmem]
      simp [or_and_right, exists_or, he, eq_comm]
    have hentry : SymbolGraph.modelEntry?
        { g with edges := g.edges ++ targets.map fun k => ⟨n, k, .references⟩ } id = some e := he
    rw [List.foldl_append, heq, List.foldl_cons, List.foldl_nil, linkModel]
    simp only [hentry, if_neg hstate, hmore]
    by_cases hin : e.node ∈ targets
    · refine ⟨targets, hnodup, fun k => ?_, link_withReferences_of_mem hbare hin⟩
      exact ⟨.inl, fun h => h.elim (fun hk => hk) fun hk => hk ▸ hin⟩
    · refine ⟨targets ++ [e.node], ?_, by simp, link_withReferences_of_notMem hbare hin⟩
      exact hnodup.append (List.nodup_singleton _) (by simpa using hin)

end Bare

/-- Models that a node is linked to already are not linked again. -/
theorem foldl_linkModel_of_linked (n : NodeIndex)
    (hlabel : ∀ x ∈ g.edges, x.source = n → x.edge = .references) (ids : List DeclId)
    (hlinked : ∀ id ∈ ids, ∃ e, g.modelEntry? id = some e ∧ ∃ x ∈ g.out n, x.target = e.node) :
    ids.foldl (linkModel n) g = g := by
  induction ids with
  | nil => rfl
  | cons id ids ih =>
    obtain ⟨e, he, x, hx, ht⟩ := hlinked id (by simp)
    obtain ⟨hxmem, hs⟩ := (g.mem_out).1 hx
    have hstep : linkModel n g id = g := by
      rw [linkModel, he]
      simp only
      split
      · rfl
      · exact g.link_of_linked hlabel ⟨x, hxmem, hs, ht⟩
    rw [List.foldl_cons, hstep]
    exact ih fun id hid => hlinked id (by simp [hid])

end RouteAtlas.SymbolGraph
