import RouteAtlas.Graph.Reach
import RouteAtlas.Proofs.Expansion.References
import RouteAtlas.Proofs.Graph.Building
import RouteAtlas.Proofs.Pairing

/-!
# Where type edges lead

In a well-shaped graph the type edges of a node can be read off the node: a value leads to its
type, a type to the models it refers to, and a model to the types in its metadata.
-/

set_option autoImplicit false

namespace RouteAtlas

/-- The types that a model leads to are those in its metadata. -/
theorem ModelMetadata.mem_types_iff (m : ModelMetadata) (t : TypeUse) :
    t ∈ m.types ↔ ∃ u ∈ m.uses, u.2 = t := by
  cases m with
  | struct r =>
    simp only [ModelMetadata.uses, ModelMetadata.types, List.mem_map]
    constructor
    · rintro ⟨f, hf, rfl⟩
      obtain ⟨ordinal, hlt, rfl⟩ := List.getElem_of_mem hf
      refine ⟨_, ⟨(r.fields[ordinal], ordinal), ?_, rfl⟩, rfl⟩
      exact List.mk_mem_zipIdx_iff_getElem?.2 (List.getElem?_eq_getElem hlt)
    · rintro ⟨_, ⟨⟨f, ordinal⟩, hf, rfl⟩, rfl⟩
      exact ⟨f, List.fst_mem_of_mem_zipIdx hf, rfl⟩
  | synonym a => simp [ModelMetadata.uses, ModelMetadata.types, eq_comm]
  | enum e => simp [ModelMetadata.uses, ModelMetadata.types]

/-- The edges from a model to the types that it uses are type edges. -/
theorem ModelMetadata.isTypeEdge_of_mem_uses {m : ModelMetadata} {u : SymbolEdge × TypeUse}
    (hu : u ∈ m.uses) : u.1.isTypeEdge = true := by
  cases m with
  | struct r =>
    simp only [ModelMetadata.uses, List.mem_map] at hu
    obtain ⟨⟨f, ordinal⟩, -, rfl⟩ := hu
    rfl
  | synonym a =>
    obtain rfl : u = (.underlying, a.underlying) := by simpa [ModelMetadata.uses] using hu
    rfl
  | enum e => simp [ModelMetadata.uses] at hu

namespace SymbolGraph

variable {C : Contents} {g : SymbolGraph} {i j : NodeIndex}

/-- The successors of a node are the targets of the type edges that leave it. -/
theorem mem_typeSuccessors :
    j ∈ g.typeSuccessors i ↔ ∃ e ∈ g.out i, e.edge.isTypeEdge = true ∧ e.target = j := by
  simp only [typeSuccessors, outgoing, List.mem_map, List.mem_filter, List.mem_reverse, out]
  constructor
  · rintro ⟨e, ⟨he, hedge⟩, rfl⟩
    exact ⟨e, he, hedge, rfl⟩
  · rintro ⟨e, he, hedge, rfl⟩
    exact ⟨e, ⟨he, hedge⟩, rfl⟩

/-- For everything that a node leads to there is an edge to it. -/
theorem Leads.exists_edge {targets : List (SymbolEdge × SymbolNode)} (h : g.Leads i targets)
    {x : SymbolEdge × SymbolNode} (hx : x ∈ targets) :
    ∃ e ∈ g.out i, e.edge = x.1 ∧ g.node? e.target = some x.2 :=
  List.Forall₂.exists_left_of_mem h hx

/-- Every edge that leaves a node goes where the node leads. -/
theorem Leads.exists_target {targets : List (SymbolEdge × SymbolNode)} (h : g.Leads i targets)
    {e : GraphEdge} (he : e ∈ g.out i) :
    ∃ x ∈ targets, e.edge = x.1 ∧ g.node? e.target = some x.2 :=
  List.Forall₂.exists_right_of_mem h he

namespace WellShaped

/-- A node that leads to types over type edges. -/
theorem mem_typeSuccessors_of_leads (h : WellShaped C g) {uses : List (SymbolEdge × TypeUse)}
    (hleads : g.LeadsToTypes i uses) (hedge : ∀ u ∈ uses, u.1.isTypeEdge = true) :
    j ∈ g.typeSuccessors i ↔ ∃ u ∈ uses, g.node? j = some (.type u.2) := by
  rw [mem_typeSuccessors]
  constructor
  · rintro ⟨e, he, -, rfl⟩
    obtain ⟨x, hx, -, hnode⟩ := hleads.exists_target he
    obtain ⟨u, hu, rfl⟩ := List.mem_map.1 hx
    exact ⟨u, hu, hnode⟩
  · rintro ⟨u, hu, hnode⟩
    obtain ⟨e, he, hlabel, htarget⟩ := hleads.exists_edge (List.mem_map.2 ⟨u, hu, rfl⟩)
    refine ⟨e, he, hlabel ▸ hedge u hu, ?_⟩
    -- There is one node for each use of a type.
    have hindex := (h.types u.2 e.target).2 htarget
    rw [(h.types u.2 j).2 hnode] at hindex
    simpa using hindex.symm

/-- The successor of a parameter is the node of its type. -/
theorem successors_parameter (h : WellShaped C g) {p : ParamNode}
    (hi : g.node? i = some (.parameter p)) :
    j ∈ g.typeSuccessors i ↔ g.node? j = some (.type p.type) := by
  rw [h.mem_typeSuccessors_of_leads (h.nodes i _ hi not_false) (by simp [SymbolEdge.isTypeEdge])]
  simp

/-- The successor of a result is the node of its type. -/
theorem successors_result (h : WellShaped C g) {r : ReturnNode}
    (hi : g.node? i = some (.result r)) :
    j ∈ g.typeSuccessors i ↔ g.node? j = some (.type r.type) := by
  rw [h.mem_typeSuccessors_of_leads (h.nodes i _ hi not_false) (by simp [SymbolEdge.isTypeEdge])]
  simp

/-- A type leads to the models it refers to. -/
theorem successors_type (h : WellShaped C g) {t : TypeUse} (hi : g.node? i = some (.type t)) :
    j ∈ g.typeSuccessors i ↔ ∃ id ∈ t.referencedModels, g.modelIndex? id = some j := by
  have hrefers : g.RefersTo i t := h.nodes i _ hi not_false
  rw [mem_typeSuccessors]
  constructor
  · rintro ⟨e, he, -, rfl⟩
    exact (hrefers.sound e he).2
  · rintro ⟨id, hid, hindex⟩
    obtain ⟨e, he, hindex'⟩ := hrefers.complete id hid
    refine ⟨e, he, ?_, ?_⟩
    · rw [(hrefers.sound e he).1]
      rfl
    · simpa [hindex] using hindex'.symm

/-- The successors of a complete model are the nodes of the types that it uses. -/
theorem successors_model (h : WellShaped C g) {m : ModelNode} {metadata : ModelMetadata}
    (hi : g.node? i = some (.model m)) (hm : m.metadata = some metadata) :
    j ∈ g.typeSuccessors i ↔ ∃ t ∈ metadata.types, g.node? j = some (.type t) := by
  have hleads : g.LeadsToTypes i metadata.uses := by
    have hnode := (h.nodes i _ hi not_false).2
    rwa [ModelNode.uses, hm] at hnode
  rw [h.mem_typeSuccessors_of_leads hleads fun u hu => ModelMetadata.isTypeEdge_of_mem_uses hu]
  constructor
  · rintro ⟨u, hu, hnode⟩
    exact ⟨u.2, (metadata.mem_types_iff u.2).2 ⟨u, hu, rfl⟩, hnode⟩
  · rintro ⟨t, ht, hnode⟩
    obtain ⟨u, hu, rfl⟩ := (metadata.mem_types_iff t).1 ht
    exact ⟨u, hu, hnode⟩

/-- The types that a node leads to have nodes. -/
theorem exists_type_of_leads {uses : List (SymbolEdge × TypeUse)} (hleads : g.LeadsToTypes i uses)
    {u : SymbolEdge × TypeUse} (hu : u ∈ uses) : ∃ j, g.node? j = some (.type u.2) := by
  obtain ⟨e, -, -, hnode⟩ := hleads.exists_edge (List.mem_map.2 ⟨u, hu, rfl⟩)
  exact ⟨e.target, hnode⟩

/-- The type of a parameter has a node. -/
theorem exists_type_of_parameter (h : WellShaped C g) {p : ParamNode}
    (hi : g.node? i = some (.parameter p)) : ∃ j, g.node? j = some (.type p.type) :=
  exists_type_of_leads (h.nodes i _ hi not_false) (List.mem_singleton.2 rfl)

/-- The type of a result has a node. -/
theorem exists_type_of_result (h : WellShaped C g) {r : ReturnNode}
    (hi : g.node? i = some (.result r)) : ∃ j, g.node? j = some (.type r.type) :=
  exists_type_of_leads (h.nodes i _ hi not_false) (List.mem_singleton.2 rfl)

/-- The types that a complete model uses have nodes. -/
theorem exists_type_of_model (h : WellShaped C g) {m : ModelNode} {metadata : ModelMetadata}
    (hi : g.node? i = some (.model m)) (hm : m.metadata = some metadata) {t : TypeUse}
    (ht : t ∈ metadata.types) : ∃ j, g.node? j = some (.type t) := by
  have hleads : g.LeadsToTypes i metadata.uses := by
    have hnode := (h.nodes i _ hi not_false).2
    rwa [ModelNode.uses, hm] at hnode
  obtain ⟨u, hu, rfl⟩ := (metadata.mem_types_iff t).1 ht
  exact exists_type_of_leads hleads hu

/-- The models that a type in the graph refers to are in the graph. -/
theorem exists_model_of_type (h : WellShaped C g) {t : TypeUse} (hi : g.node? i = some (.type t))
    {id : DeclId} (hid : id ∈ t.referencedModels) : ∃ k, g.modelIndex? id = some k := by
  have hrefers : g.RefersTo i t := h.nodes i _ hi not_false
  obtain ⟨e, -, hindex⟩ := hrefers.complete id hid
  exact ⟨e.target, hindex⟩

end WellShaped

end SymbolGraph

end RouteAtlas
