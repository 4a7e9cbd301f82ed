import RouteAtlas.Proofs.Graph.Building

/-!
# Graphs and the operations that made them

A graph is more than its nodes and edges: it keeps the node of every use of a type, the entry of
every model and the list of its controllers. Whatever operations have been performed, in whatever
order, these agree with the nodes (`Consistent`). Each operation keeps the agreement
(`Consistent.apply`), so it holds after any number of them. Nodes are never removed, and nothing in
a node changes but the metadata of a model (`node?_apply`).
-/

set_option autoImplicit false

namespace RouteAtlas

/-- An operation that changes a graph. -/
inductive GraphOperation where
  | addController (c : ControllerNode)
  | addRoute (controller : NodeIndex) (ordinal : Nat) (r : RouteNode)
  | addParameter (route : NodeIndex) (p : ParamNode)
  | addReturn (route : NodeIndex) (r : ReturnNode)
  | internType (t : TypeUse)
  | link (source target : NodeIndex) (e : SymbolEdge)
  | addEdge (source target : NodeIndex) (e : SymbolEdge)
  | beginModel (m : ModelNode)
  | completeModel (i : NodeIndex) (metadata : ModelMetadata)
  | failModel (id : DeclId)

namespace GraphOperation

/-- The graph after an operation. -/
def apply (g : SymbolGraph) : GraphOperation → SymbolGraph
  | .addController c => (g.addController c).1
  | .addRoute controller ordinal r => (g.addRoute controller ordinal r).1
  | .addParameter route p => (g.addParameter route p).1
  | .addReturn route r => (g.addReturn route r).1
  | .internType t => (g.internType t).1
  | .link source target e => g.link source target e
  | .addEdge source target e => g.addEdge source target e
  | .beginModel m => (g.beginModel m).1
  | .completeModel i metadata => g.completeModel i metadata
  | .failModel id => g.failModel id

/-- The nodes that an operation is given. -/
def operands : GraphOperation → List NodeIndex
  | .addRoute controller _ _ => [controller]
  | .addParameter route _ => [route]
  | .addReturn route _ => [route]
  | .link source target _ => [source, target]
  | .addEdge source target _ => [source, target]
  | .completeModel i _ => [i]
  | .addController _ | .internType _ | .beginModel _ | .failModel _ => []

/-- An operation may be given nodes of the graph only. -/
def Applies (g : SymbolGraph) (op : GraphOperation) : Prop := ∀ i ∈ op.operands, i < g.nextIndex

instance (g : SymbolGraph) (op : GraphOperation) : Decidable (op.Applies g) :=
  inferInstanceAs (Decidable (∀ i ∈ op.operands, i < g.nextIndex))

end GraphOperation

/-- Some operations, one after the other, lead from a graph to another. -/
inductive Performs (g : SymbolGraph) : List GraphOperation → SymbolGraph → Prop
  | none : Performs g [] g
  | step {ops : List GraphOperation} {g' : SymbolGraph} (h : Performs g ops g')
      (op : GraphOperation) (happlies : op.Applies g') : Performs g (ops ++ [op]) (op.apply g')

namespace SymbolGraph

/-- The nodes that are controllers, in the order of their creation. -/
def controllersAmong (g : SymbolGraph) : List NodeIndex :=
  (List.range g.nextIndex).filter fun i => ((g.node? i).bind SymbolNode.controller?).isSome

/-- What a graph keeps about its nodes agrees with them. -/
structure Consistent (g : SymbolGraph) : Prop where
  bounded : ∀ e ∈ g.edges, e.source < g.nextIndex ∧ e.target < g.nextIndex
  types : ∀ t i, (t, i) ∈ g.types ↔ g.node? i = some (.type t)
  distinctTypes : (g.types.map (·.1)).Nodup
  controllers : g.controllerNodes = g.controllersAmong
  models : ∀ e ∈ g.models, ∃ m, g.node? e.node = some (.model m) ∧ m.id = e.id ∧
    (e.state = .complete → m.metadata.isSome = true)
  distinctModels : (g.models.map (·.id)).Nodup

variable {g g' : SymbolGraph} {t : TypeUse}

/-! ## Entries -/

/-- Behind setting an entry stand that entry and those from before. -/
theorem mem_setEntry {e x : ModelEntry} {l : List ModelEntry} (h : x ∈ setEntry e l) :
    x = e ∨ x ∈ l := by
  induction l with
  | nil => exact .inl (List.mem_singleton.1 h)
  | cons y rest ih =>
    unfold setEntry at h
    split at h
    · exact (List.mem_cons.1 h).imp_right (List.mem_cons_of_mem y)
    · rcases List.mem_cons.1 h with rfl | h
      · exact .inr List.mem_cons_self
      · exact (ih h).imp_right (List.mem_cons_of_mem y)

/-- A model that has an entry keeps its place, and any other comes last. -/
theorem map_id_setEntry (e : ModelEntry) (l : List ModelEntry) :
    (setEntry e l).map (·.id) =
      if e.id ∈ l.map (·.id) then l.map (·.id) else l.map (·.id) ++ [e.id] := by
  induction l with
  | nil => rfl
  | cons y rest ih =>
    unfold setEntry
    by_cases hy : y.id = e.id
    · simp [hy]
    · simp only [if_neg hy, List.map_cons, ih, List.mem_cons, Ne.symm hy, false_or]
      split <;> rfl

/-- Setting an entry gives no identity a second one. -/
theorem nodup_setEntry (e : ModelEntry) {l : List ModelEntry} (h : (l.map (·.id)).Nodup) :
    ((setEntry e l).map (·.id)).Nodup := by
  rw [map_id_setEntry]
  split
  · exact h
  · rename_i hnew
    exact h.append (List.nodup_singleton _) (by simpa using hnew)

/-- Setting the entry of a model that has a node keeps a graph consistent. -/
theorem Consistent.setEntry (h : g.Consistent) {e : ModelEntry}
    (he : ∃ m, g.node? e.node = some (.model m) ∧ m.id = e.id ∧
      (e.state = .complete → m.metadata.isSome = true)) :
    Consistent { g with models := SymbolGraph.setEntry e g.models } where
  bounded := h.bounded
  types := h.types
  distinctTypes := h.distinctTypes
  controllers := h.controllers
  models := by
    intro x hx
    rcases mem_setEntry hx with rfl | hx
    · exact he
    · exact h.models x hx
  distinctModels := nodup_setEntry e h.distinctModels

/-! ## Nodes and edges -/

/-- A new node is listed among the controllers if it is one. -/
theorem controllersAmong_addNode (g : SymbolGraph) (n : SymbolNode) :
    (g.addNode n).controllersAmong =
      g.controllersAmong ++ if n.controller?.isSome then [g.nextIndex] else [] := by
  have hold : ∀ i ∈ List.range g.nextIndex, (g.addNode n).node? i = g.node? i := by
    intro i hi
    have hlt : i < g.nextIndex := List.mem_range.1 hi
    rw [node?_addNode, if_neg (Nat.ne_of_lt hlt)]
  unfold controllersAmong
  rw [nextIndex_addNode, List.range_succ, List.filter_append]
  congr 1
  · apply List.filter_congr
    intro i hi
    rw [hold i hi]
  · simp [node?_addNode, List.filter_cons]

/-- A graph that has one more node and keeps what there is to keep about it. -/
structure Grown (n : SymbolNode) (g g' : SymbolGraph) : Prop where
  nodes : g'.nodes = g.nodes ++ [n]
  edges : g'.edges = g.edges
  types : g'.types = g.types ++ (n.type?.map fun t => (t, g.nextIndex)).toList
  models : g'.models = g.models
  controllers :
    g'.controllerNodes = g.controllerNodes ++ if n.controller?.isSome then [g.nextIndex] else []

/-- A new node keeps a graph consistent, unless it is the use of a type that has one. -/
theorem Consistent.grow (h : g.Consistent) {n : SymbolNode} (hgrown : Grown n g g')
    (hnew : ∀ t, n = .type t → t ∉ g.types.map (·.1)) : g'.Consistent := by
  have hnode : ∀ i, g'.node? i = if i = g.nextIndex then some n else g.node? i := by
    intro i
    rw [← node?_addNode, node?, node?, hgrown.nodes]
    rfl
  have hnext : g'.nextIndex = g.nextIndex + 1 := by
    rw [← nextIndex_addNode g n, nextIndex, nextIndex, hgrown.nodes]
    rfl
  refine ⟨?_, ?_, ?_, ?_, ?_, ?_⟩
  · intro e he
    obtain ⟨hsource, htarget⟩ := h.bounded e (hgrown.edges ▸ he)
    rw [hnext]
    exact ⟨Nat.lt_succ_of_lt hsource, Nat.lt_succ_of_lt htarget⟩
  · intro t i
    rw [hgrown.types, List.mem_append, h.types, hnode]
    by_cases hi : i = g.nextIndex
    · have hfresh : ¬g.node? i = some (.type t) :=
        fun ht => absurd (lt_nextIndex ht) (hi ▸ Nat.lt_irrefl _)
      rw [if_pos hi, or_iff_right hfresh]
      cases n <;> simp [SymbolNode.type?, hi, eq_comm]
    · rw [if_neg hi]
      cases n <;> simp [SymbolNode.type?, hi]
  · rw [hgrown.types, List.map_append]
    apply h.distinctTypes.append
    · cases n <;> simp [SymbolNode.type?]
    · cases n with
      | type t => simpa [SymbolNode.type?] using hnew t rfl
      | _ => simp [SymbolNode.type?]
  · rw [hgrown.controllers, h.controllers, ← controllersAmong_addNode]
    unfold controllersAmong node? nextIndex
    rw [hgrown.nodes]
    rfl
  · intro e he
    obtain ⟨m, hm, hid, hstate⟩ := h.models e (hgrown.models ▸ he)
    exact ⟨m, node?_of_concat hgrown.nodes hm, hid, hstate⟩
  · rw [hgrown.models]
    exact h.distinctModels

/-- About a route, a parameter, a result or a model nothing is kept. -/
theorem Consistent.addNode (h : g.Consistent) {n : SymbolNode} (hcontroller : n.controller? = none)
    (htype : n.type? = none) : (g.addNode n).Consistent := by
  have hgrown : Grown n g (g.addNode n) :=
    ⟨rfl, rfl, by simp [SymbolGraph.addNode, htype], rfl, by
      simp [SymbolGraph.addNode, hcontroller]⟩
  apply h.grow hgrown
  rintro t rfl
  cases htype

/-- The edges of a graph do not matter as long as they stay among its nodes. -/
theorem Consistent.withEdges (h : g.Consistent) {edges : List GraphEdge}
    (hedges : ∀ e ∈ edges, e.source < g.nextIndex ∧ e.target < g.nextIndex) :
    Consistent { g with edges := edges } :=
  ⟨hedges, h.types, h.distinctTypes, h.controllers, h.models, h.distinctModels⟩

/-- An edge between nodes keeps a graph consistent. -/
theorem Consistent.addEdge (h : g.Consistent) {i j : NodeIndex} (e : SymbolEdge)
    (hi : i < g.nextIndex) (hj : j < g.nextIndex) : (g.addEdge i j e).Consistent := by
  apply h.withEdges
  intro x hx
  rcases List.mem_append.1 hx with hx | hx
  · exact h.bounded x hx
  · obtain rfl : x = ⟨i, j, e⟩ := List.mem_singleton.1 hx
    exact ⟨hi, hj⟩

/-- Replacing the label of an edge leaves its ends as they are. -/
theorem ends_of_mem_replaceEdge? {i j : NodeIndex} {e : SymbolEdge} {l l' : List GraphEdge}
    (h : replaceEdge? i j e l = some l') {x : GraphEdge} (hx : x ∈ l') :
    ∃ y ∈ l, x.source = y.source ∧ x.target = y.target := by
  induction l generalizing l' with
  | nil => cases h
  | cons y rest ih =>
    unfold replaceEdge? at h
    split at h
    · obtain rfl := Option.some.inj h
      rcases List.mem_cons.1 hx with rfl | hx
      · exact ⟨y, List.mem_cons_self, rfl, rfl⟩
      · exact ⟨x, List.mem_cons_of_mem y hx, rfl, rfl⟩
    · obtain ⟨rest', hrest, rfl⟩ := Option.map_eq_some_iff.1 h
      rcases List.mem_cons.1 hx with rfl | hx
      · exact ⟨x, List.mem_cons_self, rfl, rfl⟩
      · obtain ⟨z, hz, hends⟩ := ih hrest hx
        exact ⟨z, List.mem_cons_of_mem y hz, hends⟩

/-- Linking two nodes keeps a graph consistent. -/
theorem Consistent.link (h : g.Consistent) {i j : NodeIndex} (e : SymbolEdge)
    (hi : i < g.nextIndex) (hj : j < g.nextIndex) : (g.link i j e).Consistent := by
  unfold SymbolGraph.link
  split
  · rename_i edges hedges
    apply h.withEdges
    intro x hx
    obtain ⟨y, hy, hsource, htarget⟩ := ends_of_mem_replaceEdge? hedges (List.mem_reverse.1 hx)
    rw [hsource, htarget]
    exact h.bounded y (List.mem_reverse.1 hy)
  · exact h.addEdge e hi hj

/-- A route, a parameter or a result is added together with the edge that leads to it. -/
theorem Consistent.hang (h : g.Consistent) {n : SymbolNode} (hcontroller : n.controller? = none)
    (htype : n.type? = none) {i : NodeIndex} (hi : i < g.nextIndex) (e : SymbolEdge) :
    ((g.addNode n).addEdge i g.nextIndex e).Consistent := by
  have hnext := nextIndex_addNode g n
  apply (h.addNode hcontroller htype).addEdge
  · rw [hnext]
    exact Nat.lt_succ_of_lt hi
  · rw [hnext]
    exact Nat.lt_succ_self _

/-- Adding a controller keeps a graph consistent. -/
theorem Consistent.addController (h : g.Consistent) (c : ControllerNode) :
    (g.addController c).1.Consistent := by
  have hgrown : Grown (.controller c) g (g.addController c).1 :=
    ⟨rfl, rfl, (List.append_nil _).symm, rfl, rfl⟩
  exact h.grow hgrown (by simp)

/-! ## Uses of types -/

/-- Looking up the node of a type keeps a graph consistent, whether it is new or not. -/
theorem Consistent.internType (h : g.Consistent) (t : TypeUse) :
    (g.internType t).1.Consistent := by
  unfold SymbolGraph.internType
  split
  · exact h
  · rename_i hnone
    have hgrown : Grown (.type t) g
        { g.addNode (.type t) with types := g.types ++ [(t, g.nextIndex)] } :=
      ⟨rfl, rfl, rfl, rfl, (List.append_nil _).symm⟩
    apply h.grow hgrown
    intro t' ht' hmem
    obtain rfl : t = t' := SymbolNode.type.inj ht'
    obtain ⟨x, hx, hxt⟩ := List.mem_map.1 hmem
    have hother := List.find?_eq_none.1 (Option.map_eq_none_iff.1 hnone) x hx
    simp [hxt] at hother

/-- In a consistent graph the index of a type is that of its node. -/
theorem Consistent.typeIndex?_eq_some (h : g.Consistent) {i : NodeIndex} :
    g.typeIndex? t = some i ↔ g.node? i = some (.type t) := by
  rw [← h.types, typeIndex?]
  constructor
  · intro hfound
    obtain ⟨⟨t', i'⟩, hfind, rfl⟩ := Option.map_eq_some_iff.1 hfound
    have heq : t' = t := by simpa using List.find?_some hfind
    exact heq ▸ List.mem_of_find?_eq_some hfind
  · intro hmem
    cases hfind : g.types.find? (·.1 == t) with
    | none =>
      have hother := List.find?_eq_none.1 hfind (t, i) hmem
      simp at hother
    | some x =>
      have heq : x.1 = t := by simpa using List.find?_some hfind
      have hsame := List.inj_on_of_nodup_map h.distinctTypes (List.mem_of_find?_eq_some hfind) hmem
        heq
      rw [hsame]
      rfl

/-! ## Models -/

/-- Beginning a model keeps a graph consistent. -/
theorem Consistent.beginModel (h : g.Consistent) (m : ModelNode) :
    (g.beginModel m).1.Consistent := by
  have hnode : (g.addNode (.model m)).node? g.nextIndex = some (.model m) := by
    rw [node?_addNode, if_pos rfl]
  exact (h.addNode rfl rfl).setEntry ⟨m, hnode, rfl, by simp⟩

/-- Completing something that is no model does nothing. -/
theorem completeModel_of_not_model {i : NodeIndex} (hi : ∀ m, g.node? i ≠ some (.model m))
    (metadata : ModelMetadata) : g.completeModel i metadata = g := by
  unfold completeModel
  split
  · rename_i m hm
    exact absurd hm (hi m)
  · rfl

/-- Any model may be completed, also one whose entry another node of the same model has taken. -/
theorem Consistent.completeModel (h : g.Consistent) (i : NodeIndex) (metadata : ModelMetadata) :
    (g.completeModel i metadata).Consistent := by
  by_cases hmodel : ∃ m, g.node? i = some (.model m)
  · obtain ⟨m, hi⟩ := hmodel
    have hnode := node?_completeModel g hi metadata
    have hmodels : (g.completeModel i metadata).models =
        SymbolGraph.setEntry ⟨m.id, i, .complete⟩ g.models := by
      rw [SymbolGraph.completeModel, hi]
    refine ⟨?_, ?_, ?_, ?_, ?_, ?_⟩
    · rw [edges_completeModel, nextIndex_completeModel]
      exact h.bounded
    · intro t k
      rw [types_completeModel, h.types, hnode]
      by_cases hk : k = i
      · rw [if_pos hk, hk, hi]
        simp
      · rw [if_neg hk]
    · rw [types_completeModel]
      exact h.distinctTypes
    · rw [controllerNodes_completeModel, h.controllers]
      unfold controllersAmong
      rw [nextIndex_completeModel]
      apply List.filter_congr
      intro k _
      rw [hnode]
      by_cases hk : k = i
      · rw [if_pos hk, hk, hi]
        rfl
      · rw [if_neg hk]
    · intro e he
      rw [hmodels] at he
      rw [hnode]
      by_cases hk : e.node = i
      · refine ⟨{ m with metadata := some metadata }, if_pos hk, ?_, by simp⟩
        rcases mem_setEntry he with rfl | he
        · rfl
        · obtain ⟨m', hm', hid, -⟩ := h.models e he
          obtain rfl : m = m' := by simpa [hk, hi] using hm'
          exact hid
      · rw [if_neg hk]
        rcases mem_setEntry he with rfl | he
        · exact absurd rfl hk
        · exact h.models e he
    · rw [hmodels]
      exact nodup_setEntry _ h.distinctModels
  · rw [completeModel_of_not_model (fun m hm => hmodel ⟨m, hm⟩)]
    exact h

/-- Giving up on a model keeps a graph consistent. -/
theorem Consistent.failModel (h : g.Consistent) (id : DeclId) : (g.failModel id).Consistent := by
  unfold SymbolGraph.failModel
  split
  · rename_i e he
    obtain ⟨m, hm, hid, -⟩ := h.models e (List.mem_of_find?_eq_some he)
    exact h.setEntry ⟨m, hm, hid, by simp⟩
  · exact h

/-! ## Operations -/

/-- Every operation keeps a graph consistent. -/
theorem Consistent.apply (h : g.Consistent) {op : GraphOperation} (happlies : op.Applies g) :
    (op.apply g).Consistent := by
  cases op with
  | addController c => exact h.addController c
  | addRoute controller ordinal r =>
    have hi : controller < g.nextIndex := happlies controller List.mem_cons_self
    exact h.hang rfl rfl hi _
  | addParameter route p =>
    have hi : route < g.nextIndex := happlies route List.mem_cons_self
    exact h.hang rfl rfl hi _
  | addReturn route r =>
    have hi : route < g.nextIndex := happlies route List.mem_cons_self
    exact h.hang rfl rfl hi _
  | internType t => exact h.internType t
  | link i j e =>
    have hi : i < g.nextIndex := happlies i List.mem_cons_self
    have hj : j < g.nextIndex := happlies j (List.mem_cons_of_mem _ List.mem_cons_self)
    exact h.link e hi hj
  | addEdge i j e =>
    have hi : i < g.nextIndex := happlies i List.mem_cons_self
    have hj : j < g.nextIndex := happlies j (List.mem_cons_of_mem _ List.mem_cons_self)
    exact h.addEdge e hi hj
  | beginModel m => exact h.beginModel m
  | completeModel i metadata => exact h.completeModel i metadata
  | failModel id => exact h.failModel id

/-- An operation leaves every node as it is, unless it gives metadata to a model. -/
theorem node?_apply (op : GraphOperation) {i : NodeIndex} {n : SymbolNode}
    (hi : g.node? i = some n) :
    (op.apply g).node? i = some n ∨ ∃ metadata m, op = .completeModel i metadata ∧
      n = .model m ∧ (op.apply g).node? i = some (.model { m with metadata := some metadata }) := by
  have hadd : ∀ n', (g.addNode n').node? i = some n := fun _ => node?_of_concat rfl hi
  cases op with
  | addController c => exact .inl (hadd _)
  | addRoute controller ordinal r => exact .inl (hadd _)
  | addParameter route p => exact .inl (hadd _)
  | addReturn route r => exact .inl (hadd _)
  | internType t =>
    left
    show (g.internType t).1.node? i = some n
    unfold internType
    split
    · exact hi
    · exact hadd _
  | link source target e =>
    left
    show (g.link source target e).node? i = some n
    unfold link
    split
    · exact hi
    · exact hi
  | addEdge source target e => exact .inl hi
  | beginModel m => exact .inl (hadd _)
  | completeModel k metadata =>
    by_cases hmodel : ∃ m, g.node? k = some (.model m)
    · obtain ⟨m, hk⟩ := hmodel
      have hnode := node?_completeModel g hk metadata i
      by_cases hik : i = k
      · subst hik
        obtain rfl : n = .model m := by simpa [hi] using hk
        exact .inr ⟨metadata, m, rfl, rfl, hnode.trans (if_pos rfl)⟩
      · exact .inl ((hnode.trans (if_neg hik)).trans hi)
    · left
      show (g.completeModel k metadata).node? i = some n
      rw [completeModel_of_not_model (fun m hm => hmodel ⟨m, hm⟩)]
      exact hi
  | failModel id =>
    left
    obtain ⟨models, heq⟩ := g.failModel_eq id
    show (g.failModel id).node? i = some n
    rw [heq]
    exact hi

/-- A use of a type has a node after an operation if it had one, or if that was its interning. -/
theorem mem_types_apply (op : GraphOperation) (t : TypeUse) :
    t ∈ (op.apply g).types.map (·.1) ↔ t ∈ g.types.map (·.1) ∨ op = .internType t := by
  cases op with
  | internType t' =>
    show t ∈ (g.internType t').1.types.map (·.1) ↔ _
    unfold internType
    split
    · rename_i i hi
      obtain ⟨x, hx, -⟩ := Option.map_eq_some_iff.1 hi
      have hmem : t' ∈ g.types.map (·.1) := by
        have heq : x.1 = t' := by simpa using List.find?_some hx
        exact heq ▸ List.mem_map_of_mem (List.mem_of_find?_eq_some hx)
      constructor
      · exact .inl
      · rintro (ht | ht)
        · exact ht
        · exact GraphOperation.internType.inj ht ▸ hmem
    · simp [eq_comm]
  | link source target e =>
    show t ∈ (g.link source target e).types.map (·.1) ↔ _
    unfold link
    split <;> simp [addEdge]
  | completeModel i metadata =>
    show t ∈ (g.completeModel i metadata).types.map (·.1) ↔ _
    simp
  | failModel id =>
    show t ∈ (g.failModel id).types.map (·.1) ↔ _
    obtain ⟨models, heq⟩ := g.failModel_eq id
    simp [heq]
  | _ => simp [GraphOperation.apply, addController, addRoute, addParameter, addReturn, beginModel,
      addNode, addEdge]

end SymbolGraph

namespace Performs

open SymbolGraph

variable {g g' : SymbolGraph} {ops : List GraphOperation}

/-- Whatever operations are performed, a consistent graph stays so. -/
theorem consistent (h : Performs g ops g') (hg : g.Consistent) : g'.Consistent := by
  induction h with
  | none => exact hg
  | step _ op happlies ih => exact ih.apply happlies

/-- The empty graph is consistent. -/
theorem consistent_empty : SymbolGraph.Consistent {} where
  bounded := by simp
  types := by simp [node?]
  distinctTypes := by simp
  controllers := rfl
  models := by simp
  distinctModels := by simp

/-- The uses of types that have nodes are those that were interned. -/
theorem mem_types_iff (h : Performs {} ops g) (t : TypeUse) :
    t ∈ g.types.map (·.1) ↔ .internType t ∈ ops := by
  induction h with
  | none => simp
  | step _ op _ ih => rw [mem_types_apply, ih, List.mem_append, List.mem_singleton, eq_comm]

/-- A use of a type keeps its node. -/
theorem node?_type (h : Performs g ops g') {i : NodeIndex} {t : TypeUse}
    (hi : g.node? i = some (.type t)) : g'.node? i = some (.type t) := by
  induction h with
  | none => exact hi
  | step _ op _ ih =>
    rcases node?_apply op ih with hsame | ⟨_, _, -, hmodel, -⟩
    · exact hsame
    · cases hmodel

/-- A use of a type that has a node is not given another one. -/
theorem internType_of_node? (hg : g.Consistent) {i : NodeIndex} {t : TypeUse}
    (hi : g.node? i = some (.type t)) : g.internType t = (g, i) := by
  have hindex := hg.typeIndex?_eq_some.2 hi
  rw [SymbolGraph.internType, hindex]

/-- The index that is given for a type is that of its node. -/
theorem node?_internType (hg : g.Consistent) (t : TypeUse) :
    (g.internType t).1.node? (g.internType t).2 = some (.type t) := by
  unfold SymbolGraph.internType
  split
  · rename_i i hi
    exact hg.typeIndex?_eq_some.1 hi
  · exact (node?_addNode g (.type t) g.nextIndex).trans (if_pos rfl)

/-- After any operations from the empty graph, what the graph keeps agrees with its nodes. The uses
of types that have been interned and the nodes that hold them stand one to one, and interning a use
once more gives its node again, however many operations have come between. The entry of a model
points at a node of that model, which has metadata if the entry is complete. Another operation
leaves every node as it is, unless it completes a model, and then it changes the metadata alone. -/
theorem graph_consistent (h : Performs {} ops g) :
    g.Consistent ∧
      (∀ t, (∃ i, g.typeIndex? t = some i) ↔ .internType t ∈ ops) ∧
      (∀ t i, g.typeIndex? t = some i ↔ g.node? i = some (.type t)) ∧
      (∀ t later g', Performs (g.internType t).1 later g' →
        g'.internType t = (g', (g.internType t).2)) ∧
      (∀ id e, g.modelEntry? id = some e → ∃ m, g.node? e.node = some (.model m) ∧ m.id = id ∧
        (e.state = .complete → m.metadata.isSome = true)) ∧
      ∀ op i n, g.node? i = some n → (GraphOperation.apply g op).node? i = some n ∨
        ∃ metadata m, op = .completeModel i metadata ∧ n = .model m ∧
          (op.apply g).node? i = some (.model { m with metadata := some metadata }) := by
  have hg : g.Consistent := h.consistent consistent_empty
  refine ⟨hg, fun t => ?_, fun t i => hg.typeIndex?_eq_some, ?_, ?_, fun op i n => node?_apply op⟩
  · rw [← h.mem_types_iff t, List.mem_map]
    constructor
    · rintro ⟨i, hi⟩
      exact ⟨(t, i), (hg.types t i).2 (hg.typeIndex?_eq_some.1 hi), rfl⟩
    · rintro ⟨⟨_, i⟩, hi, rfl⟩
      exact ⟨i, hg.typeIndex?_eq_some.2 ((hg.types _ i).1 hi)⟩
  · intro t later g' hlater
    have hg' := hlater.consistent (hg.internType t)
    exact internType_of_node? hg' (hlater.node?_type (node?_internType hg t))
  · intro id e he
    obtain ⟨m, hm, hid, hstate⟩ := hg.models e (List.mem_of_find?_eq_some he)
    have hentry : e.id = id := id_of_modelEntry? he
    exact ⟨m, hm, hid.trans hentry, hstate⟩

end Performs

/-! ## A history -/

namespace GraphOperation

/-- Maps from a type of a package to texts. Those of different packages have one name. -/
def keyedBy (package : String) : TypeUse :=
  (TypeUse.bare "string" .builtin true).within
    [.map { TypeUse.bare "K" .struct false with packagePath := package }]

/-- A model without metadata. -/
def emptyModel (name : String) : ModelNode where
  id := ⟨"p", name⟩
  kind := .struct
  file := ⟨"p.go"⟩
  version := none
  span := {}
  directives := {}
  fieldDirectives := []
  metadata := none

/-- Two uses that are told apart by the keys of maps only, and a model that is begun twice and
completed at its first node. -/
def history : List GraphOperation :=
  [.internType (keyedBy "a"), .internType (keyedBy "b"), .beginModel (emptyModel "M"),
   .beginModel (emptyModel "M"), .completeModel 2 (.struct ⟨⟨"p", "M"⟩, "", false, []⟩),
   .beginModel (emptyModel "L")]

/-- The graph after the operations. -/
def afterHistory : SymbolGraph := history.foldl apply {}

/-- The operations of the history can be performed one after the other. -/
theorem performs_history : Performs {} history afterHistory := by
  have hfirst := (Performs.none (g := {})).step (.internType (keyedBy "a")) (by decide)
  have hsecond := hfirst.step (.internType (keyedBy "b")) (by decide)
  have hbegun := hsecond.step (.beginModel (emptyModel "M")) (by decide)
  have htwice := hbegun.step (.beginModel (emptyModel "M")) (by decide)
  have hcomplete :=
    htwice.step (.completeModel 2 (.struct ⟨⟨"p", "M"⟩, "", false, []⟩)) (by decide)
  exact hcomplete.step (.beginModel (emptyModel "L")) (by decide)

end GraphOperation

/-- The model that was begun twice is complete at its first node, and that has metadata. -/
theorem Performs.graph_consistent_history :
    Performs {} GraphOperation.history GraphOperation.afterHistory ∧
      GraphOperation.afterHistory.modelEntry? ⟨"p", "M"⟩ = some ⟨⟨"p", "M"⟩, 2, .complete⟩ ∧
      GraphOperation.afterHistory.Consistent ∧
      ∃ m, GraphOperation.afterHistory.node? 2 = some (.model m) ∧ m.metadata.isSome = true := by
  have hperforms := GraphOperation.performs_history
  have hentry : GraphOperation.afterHistory.modelEntry? ⟨"p", "M"⟩ =
      some ⟨⟨"p", "M"⟩, 2, .complete⟩ := by decide
  obtain ⟨hg, -, -, -, hmodels, -⟩ := graph_consistent hperforms
  obtain ⟨m, hm, -, hstate⟩ := hmodels _ _ hentry
  exact ⟨hperforms, hentry, hg, m, hm, hstate rfl⟩

end RouteAtlas
