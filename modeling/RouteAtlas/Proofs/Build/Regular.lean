import RouteAtlas.Proofs.Build.Closure
import RouteAtlas.Proofs.Build.Layout
import RouteAtlas.Proofs.Build.Order

/-!
# The shape of every built graph

Edges are added in several places and while models are still being expanded, but in the end they can
be read off the nodes. `Regular` says how, node by node, and `regular_of_buildGraph` says it of every
graph that was built without a failure, whatever the cache held.
-/

set_option autoImplicit false

namespace RouteAtlas

/-- The types that a node uses, with the edges to them. -/
def SymbolNode.uses : SymbolNode → List (SymbolEdge × TypeUse)
  | .parameter p => [(.typeOf, p.type)]
  | .result r => [(.typeOf, r.type)]
  | .model m => m.uses
  | .controller _ | .route _ | .type _ => []

namespace SymbolGraph

/-- Over this edge a node uses a type. -/
def Uses (g : SymbolGraph) (e : GraphEdge) (t : TypeUse) : Prop :=
  e ∈ g.edges ∧ ∃ n, g.node? e.source = some n ∧ (e.edge, t) ∈ n.uses

/-- The only node of a model. -/
def IsNodeOf (g : SymbolGraph) (id : DeclId) (k : NodeIndex) : Prop :=
  ∀ j, (∃ m, g.node? j = some (.model m) ∧ m.id = id) ↔ j = k

/-- A graph whose edges can be read off its nodes. -/
structure Regular (g : SymbolGraph) : Prop where
  parameter : ∀ i p, g.node? i = some (.parameter p) →
    ∃ j, g.out i = [⟨i, j, .typeOf⟩] ∧ g.node? j = some (.type p.type)
  result : ∀ i r, g.node? i = some (.result r) →
    ∃ j, g.out i = [⟨i, j, .typeOf⟩] ∧ g.node? j = some (.type r.type)
  struct : ∀ i m, g.node? i = some (.model m) → m.kind = .struct →
    ∃ s, m.metadata = some (.struct s) ∧ List.Forall₂ (fun e x =>
      e.edge = .field x.2 x.1.name ∧ g.node? e.target = some (.type x.1.type))
      (g.out i) s.fields.zipIdx
  synonym : ∀ i m, g.node? i = some (.model m) → m.kind = .synonym →
    ∃ a j, m.metadata = some (.synonym a) ∧ g.out i = [⟨i, j, .underlying⟩] ∧
      g.node? j = some (.type a.underlying)
  enum : ∀ i m, g.node? i = some (.model m) → m.kind = .enum →
    (∃ e, m.metadata = some (.enum e)) ∧ g.out i = []
  sorts : ∀ i m, g.node? i = some (.model m) →
    m.kind = .struct ∨ m.kind = .synonym ∨ m.kind = .enum
  type : ∀ i t, g.node? i = some (.type t) →
    (∀ e ∈ g.out i, e.edge = .references ∧ ∃ id ∈ t.referencedModels, g.IsNodeOf id e.target) ∧
      ∀ id ∈ t.referencedModels, ∃ k, g.IsNodeOf id k ∧
        (g.out i).count ⟨i, k, .references⟩ = 1
  controller : ∀ i c, g.node? i = some (.controller c) →
    (g.out i).map (·.edge) = (List.range (g.out i).length).map .route
  shared : ∀ e e' t t', g.Uses e t → g.Uses e' t' → (e.target = e'.target ↔ t = t')

variable {C : Contents} {g : SymbolGraph} {i : NodeIndex}

/-- A node with one use of a type has one edge, to that use. -/
theorem LeadsToTypes.exists_single {edge : SymbolEdge} {t : TypeUse}
    (h : g.LeadsToTypes i [(edge, t)]) :
    ∃ j, g.out i = [⟨i, j, edge⟩] ∧ g.node? j = some (.type t) := by
  obtain ⟨e, rest, ⟨hedge, htarget⟩, hrest, hout⟩ := List.forall₂_cons_right_iff.1 h
  obtain rfl := List.forall₂_nil_right_iff.1 hrest
  have hsource : e.source = i := ((mem_out g).1 (hout ▸ List.mem_singleton.2 rfl)).2
  obtain ⟨source, target, label⟩ := e
  cases hsource
  cases hedge
  exact ⟨target, hout, htarget⟩

namespace WellShaped

variable (h : WellShaped C g)

include h

/-- A node that uses types leads to them. -/
theorem leadsToTypes {n : SymbolNode} (hi : g.node? i = some n) (huses : n.uses ≠ []) :
    g.LeadsToTypes i n.uses := by
  have hn := h.nodes i n hi not_false
  cases n with
  | parameter p => exact hn
  | result r => exact hn
  | model m => exact hn.2
  | controller c => exact absurd rfl huses
  | route r => exact absurd rfl huses
  | type t => exact absurd rfl huses

/-- The place noted for a model is the node of that model. -/
theorem isNodeOf {id : DeclId} {k : NodeIndex} (hk : g.modelIndex? id = some k) :
    g.IsNodeOf id k := by
  intro j
  constructor
  · rintro ⟨m, hm, rfl⟩
    have hindex := h.models j m hm
    simpa [hk] using hindex.symm
  · rintro rfl
    obtain ⟨e, he, rfl⟩ := Option.map_eq_some_iff.1 hk
    obtain ⟨m, hm, hid, -⟩ := h.entries id e he
    exact ⟨m, hm, hid⟩

/-- A use of a type leads to each model it refers to once. -/
theorem count_references {t : TypeUse} (hi : g.node? i = some (.type t)) {id : DeclId}
    (hid : id ∈ t.referencedModels) :
    ∃ k, g.IsNodeOf id k ∧ (g.out i).count ⟨i, k, .references⟩ = 1 := by
  have hrefers : g.RefersTo i t := h.nodes i _ hi not_false
  obtain ⟨e, he, hindex⟩ := hrefers.complete id hid
  have hedge := (hrefers.sound e he).1
  have hsource := ((mem_out g).1 he).2
  have heq : e = ⟨i, e.target, .references⟩ := by rw [← hsource, ← hedge]
  refine ⟨e.target, h.isNodeOf hindex, ?_⟩
  exact List.count_eq_one_of_mem hrefers.nodup.of_map (heq ▸ he)

end WellShaped

end SymbolGraph

/-- An edge to a type in metadata tells which type it is. -/
theorem ModelMetadata.type_of_mem_uses {m : ModelMetadata} {edge : SymbolEdge} {t t' : TypeUse}
    (ht : (edge, t) ∈ m.uses) (ht' : (edge, t') ∈ m.uses) : t = t' := by
  cases m with
  | enum e => simp [uses] at ht
  | synonym a =>
    simp only [uses, List.mem_singleton, Prod.mk.injEq] at ht ht'
    rw [ht.2, ht'.2]
  | struct s =>
    simp only [uses, List.mem_map, Prod.mk.injEq, Prod.exists] at ht ht'
    obtain ⟨f, ordinal, hf, rfl, rfl⟩ := ht
    obtain ⟨f', ordinal', hf', hedge, rfl⟩ := ht'
    obtain ⟨rfl, -⟩ := SymbolEdge.field.inj hedge
    have hplace := List.mk_mem_zipIdx_iff_getElem?.1 hf
    have hplace' := List.mk_mem_zipIdx_iff_getElem?.1 hf'
    rw [hplace] at hplace'
    rw [Option.some.inj hplace']

/-- No node has two uses with the same edge. -/
theorem SymbolNode.type_of_mem_uses {n : SymbolNode} {edge : SymbolEdge} {t t' : TypeUse}
    (ht : (edge, t) ∈ n.uses) (ht' : (edge, t') ∈ n.uses) : t = t' := by
  cases n with
  | parameter p =>
    simp only [uses, List.mem_singleton, Prod.mk.injEq] at ht ht'
    rw [ht.2, ht'.2]
  | result r =>
    simp only [uses, List.mem_singleton, Prod.mk.injEq] at ht ht'
    rw [ht.2, ht'.2]
  | model m =>
    cases hm : m.metadata with
    | none => simp [uses, ModelNode.uses, hm] at ht
    | some metadata =>
      simp only [uses, ModelNode.uses, hm, Option.map_some, Option.getD_some] at ht ht'
      exact ModelMetadata.type_of_mem_uses ht ht'
  | controller c => simp [uses] at ht
  | route r => simp [uses] at ht
  | type t => simp [uses] at ht

namespace SymbolGraph.WellShaped

variable {C : Contents} {g : SymbolGraph} (h : WellShaped C g)

include h

/-- The target of an edge for a use is that use. -/
theorem node?_of_uses {e : GraphEdge} {t : TypeUse} (hu : g.Uses e t) :
    g.node? e.target = some (.type t) := by
  obtain ⟨he, n, hn, ht⟩ := hu
  have hleads := h.leadsToTypes hn (List.ne_nil_of_mem ht)
  obtain ⟨x, hx, hedge, htarget⟩ := hleads.exists_target ((mem_out g).2 ⟨he, rfl⟩)
  obtain ⟨u, hu, rfl⟩ := List.mem_map.1 hx
  have hsame : t = u.2 := SymbolNode.type_of_mem_uses (hedge ▸ ht) hu
  rw [htarget, hsame]

/-- Uses share a node if and only if they are the same. -/
theorem target_eq_iff {e e' : GraphEdge} {t t' : TypeUse} (hu : g.Uses e t) (hu' : g.Uses e' t') :
    e.target = e'.target ↔ t = t' := by
  have htarget := h.node?_of_uses hu
  have htarget' := h.node?_of_uses hu'
  constructor
  · intro heq
    rw [heq, htarget'] at htarget
    simpa using htarget.symm
  · rintro rfl
    have hindex := (h.types t _).2 htarget
    rw [(h.types t _).2 htarget'] at hindex
    simpa using hindex.symm

end SymbolGraph.WellShaped

/-! ## Every build -/

namespace PackageSource

variable (source : PackageSource Id)

/-- The regime of builds with any cache, in which metadata is of the sort of its declaration. -/
def openRegime : Regime source where
  Known := fun d => d.kind.isModel = true
  Left := fun _ => True
  Fits := fun d m => m.kind = d.kind

/-- The metadata of a declaration has its kind. -/
theorem kind_metadata? {d : ResolvedDecl} {m : ModelMetadata} (h : source.metadata? d = some m) :
    m.kind = d.kind := by
  unfold metadata? at h
  cases hs : d.decl.shape with
  | interface => simp [hs] at h
  | struct fields =>
    rw [hs] at h
    cases h
    simp [ModelMetadata.kind, ResolvedDecl.kind, hs]
  | synonym e =>
    rw [hs] at h
    cases h
    simp [ModelMetadata.kind, ResolvedDecl.kind, hs, synonymOf]
  | named e =>
    rw [hs] at h
    simp only at h
    split at h
    · rename_i hk
      cases h
      exact hk.symm
    · rename_i hk
      cases h
      exact ((ResolvedDecl.kind_of_named hs).resolve_left hk).symm

/-- Cached metadata that is refreshed for a declaration has its kind. -/
theorem kind_refreshed? {d : ResolvedDecl} {cached m : ModelMetadata}
    (h : source.refreshed? d cached = some m) : m.kind = d.kind := by
  unfold refreshed? at h
  split at h
  · rename_i hs
    obtain ⟨fields, -, rfl⟩ := Option.map_eq_some_iff.1 h
    simp [ModelMetadata.kind, ResolvedDecl.kind, hs]
  · split at h
    · rename_i hk
      cases h
      exact hk.symm
    · cases h
  · split at h
    · rename_i hk
      cases h
      exact hk.symm
    · cases h
  · cases h

/-- The regime that allows everything is lawful. -/
theorem lawful_openRegime : source.openRegime.Lawful where
  isModel := fun _ hd => hd
  closed := fun _ _ _ _ _ _ _ hmentions => hmentions.1
  fits := by
    intro d cached m _ _ hm _
    cases cached with
    | none => exact source.kind_metadata? hm
    | some cached =>
      rcases Option.or_eq_some_iff.1 hm with hrefreshed | ⟨-, hread⟩
      · exact source.kind_refreshed? hrefreshed
      · exact source.kind_metadata? hread

/-- Under the regime that allows everything all routes may be built. -/
theorem roots_openRegime (config : Config) (files : List SourceFile) :
    source.openRegime.Roots config files :=
  fun _ _ _ _ _ _ _ _ _ hmentions => hmentions.1

end PackageSource

variable {source : PackageSource Id} {depth : Nat} {config : Config} {files : List SourceFile}
  {cache : MetadataCache} {g : SymbolGraph}

/-- What is known about every graph that was built without a failure. -/
theorem sound_of_built (hg : (buildGraph source depth config files cache).1 = .ok g) :
    source.openRegime.Sound config ⟨g, (buildGraph source depth config files cache).2⟩ ∧
      ∀ id e, g.modelEntry? id = some e → e.state = .complete := by
  obtain ⟨hsound, hcomplete, -⟩ := Regime.sound_of_buildGraph source.lawful_openRegime
    (source.roots_openRegime config files) (fun _ _ _ => trivial) hg
  exact ⟨hsound, hcomplete⟩

/-- A graph that was built lays out the controllers of the files one by one. -/
theorem laidOut_of_built (hg : (buildGraph source depth config files cache).1 = .ok g) :
    List.Forall₂ (source.LaidOut config g) g.controllerNodes
      (config.controllersIn source.importPathOf files) :=
  Regime.laidOut_of_buildGraph source.lawful_openRegime (source.roots_openRegime config files)
    (fun _ _ _ => trivial) hg

open SymbolGraph

/-- A model has metadata of its own sort, and leads to the types in it. -/
theorem exists_metadata_of_built (hg : (buildGraph source depth config files cache).1 = .ok g)
    {i : NodeIndex} {m : ModelNode} (hi : g.node? i = some (.model m)) :
    ∃ metadata, m.metadata = some metadata ∧ metadata.kind = m.kind ∧
      g.LeadsToTypes i metadata.uses := by
  obtain ⟨hsound, hcomplete⟩ := sound_of_built hg
  obtain ⟨metadata, hm, -⟩ := hsound.exists_metadata hcomplete hi
  obtain ⟨⟨d, -, heq, hfits⟩, hleads⟩ := hsound.shape.nodes i _ hi not_false
  rw [ModelNode.uses, hm] at hleads
  refine ⟨metadata, hm, ?_, hleads⟩
  rw [heq]
  exact hfits metadata hm

/-- The edges of a controller are numbered from nothing on. -/
theorem edges_controller_of_built (hg : (buildGraph source depth config files cache).1 = .ok g)
    {i : NodeIndex} {c : ControllerNode} (hi : g.node? i = some (.controller c)) :
    (g.out i).map (·.edge) = (List.range (g.out i).length).map .route := by
  obtain ⟨hsound, -⟩ := sound_of_built hg
  have hin : i ∈ g.controllerNodes := (hsound.shape.nodes i _ hi not_false).2
  obtain ⟨decl, -, -, package, -, hroutes⟩ := (laidOut_of_built hg).exists_right_of_mem hin
  have hlength := hroutes.length_eq
  have hedges := List.Forall₂.map_eq hroutes fun e x (he : g.LeadsToRoute x.1 x.2 e) => he.edge
  rw [hedges, hlength, List.length_zipIdx, List.range_eq_range', ← List.zipIdx_map_snd 0,
    List.map_map]
  rfl

/-- Every graph that was built without a failure is regular, whatever the cache held. -/
theorem regular_of_buildGraph (hg : (buildGraph source depth config files cache).1 = .ok g) :
    g.Regular where
  parameter := by
    intro i p hi
    have hleads := (sound_of_built hg).1.shape.leadsToTypes hi (by simp [SymbolNode.uses])
    exact hleads.exists_single
  result := by
    intro i r hi
    have hleads := (sound_of_built hg).1.shape.leadsToTypes hi (by simp [SymbolNode.uses])
    exact hleads.exists_single
  struct := by
    intro i m hi hkind
    obtain ⟨metadata, hm, hk, hleads⟩ := exists_metadata_of_built hg hi
    cases metadata with
    | struct s =>
      refine ⟨s, hm, ?_⟩
      simpa [LeadsToTypes, Leads, ModelMetadata.uses] using hleads
    | synonym a => simp [ModelMetadata.kind, hkind] at hk
    | enum e => simp [ModelMetadata.kind, hkind] at hk
  synonym := by
    intro i m hi hkind
    obtain ⟨metadata, hm, hk, hleads⟩ := exists_metadata_of_built hg hi
    cases metadata with
    | struct s => simp [ModelMetadata.kind, hkind] at hk
    | synonym a =>
      obtain ⟨j, hout, htarget⟩ := LeadsToTypes.exists_single hleads
      exact ⟨a, j, hm, hout, htarget⟩
    | enum e => simp [ModelMetadata.kind, hkind] at hk
  enum := by
    intro i m hi hkind
    obtain ⟨metadata, hm, hk, hleads⟩ := exists_metadata_of_built hg hi
    cases metadata with
    | struct s => simp [ModelMetadata.kind, hkind] at hk
    | synonym a => simp [ModelMetadata.kind, hkind] at hk
    | enum e => exact ⟨⟨e, hm⟩, List.forall₂_nil_right_iff.1 hleads⟩
  sorts := by
    intro i m hi
    obtain ⟨metadata, -, hk, -⟩ := exists_metadata_of_built hg hi
    rw [← hk]
    cases metadata <;> simp [ModelMetadata.kind]
  type := by
    intro i t hi
    have hshape := (sound_of_built hg).1.shape
    have hrefers : g.RefersTo i t := hshape.nodes i _ hi not_false
    refine ⟨fun e he => ?_, fun id hid => hshape.count_references hi hid⟩
    obtain ⟨hedge, id, hid, hindex⟩ := hrefers.sound e he
    exact ⟨hedge, id, hid, hshape.isNodeOf hindex⟩
  controller := fun i c hi => edges_controller_of_built hg hi
  shared := fun e e' t t' hu hu' => (sound_of_built hg).1.shape.target_eq_iff hu hu'

/-- The graph of the shop is regular; types and models in it are shared and refer to each other. -/
theorem regular_of_buildGraph_shop :
    ∃ g, (buildGraph Shop.packages 4 {} [Shop.orders, Shop.lines] {}).1 = .ok g ∧
      g.nodes.length = 22 ∧ g.edges.length = 27 ∧ g.Regular := by
  obtain ⟨g, hg, hsizes⟩ := exists_eq_ok
    (x := (buildGraph Shop.packages 4 {} [Shop.orders, Shop.lines] {}).1)
    (f := fun g => (g.nodes.length, g.edges.length)) (b := (22, 27)) (by decide +kernel)
  obtain ⟨hnodes, hedges⟩ := Prod.mk.inj hsizes
  exact ⟨g, hg, hnodes, hedges, regular_of_buildGraph hg⟩

end RouteAtlas
