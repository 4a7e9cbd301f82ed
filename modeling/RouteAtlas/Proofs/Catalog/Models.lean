import RouteAtlas.Proofs.Graph.Reach
import RouteAtlas.Proofs.Pipeline.Runs

/-!
# The models of a catalog

The models of a catalog are those that the types it shows refer to: every reference leads to exactly
one model, every model is referred to from a route by a chain of references, and each list is
strictly sorted.
-/

set_option autoImplicit false

namespace RouteAtlas

/-! ## What a catalog refers to -/

namespace CatalogModels

/-- All models of a catalog. -/
def all (m : CatalogModels) : List ModelMetadata :=
  m.structs.map .struct ++ m.enums.map .enum ++ m.synonyms.map .synonym

/-- Models are neither lost nor made up when they are listed by sort. -/
theorem perm_all_ofModels (models : List ModelMetadata) : (ofModels models).all.Perm models := by
  induction models with
  | nil => exact .refl _
  | cons m rest ih =>
    simp only [all, ofModels, List.append_assoc] at ih ⊢
    cases m with
    | struct s => exact ih.cons _
    | enum e => exact List.perm_middle.trans (ih.cons _)
    | synonym a =>
      refine .trans ?_ (ih.cons _)
      rw [← List.append_assoc, ← List.append_assoc]
      exact List.perm_middle

/-- What is in order stays so in each of the three lists. -/
theorem pairwise_ofModels {R : DeclId → DeclId → Prop} {models : List ModelMetadata}
    (h : models.Pairwise fun a b => R a.id b.id) :
    ((ofModels models).structs.Pairwise fun a b => R a.id b.id) ∧
      ((ofModels models).enums.Pairwise fun a b => R a.id b.id) ∧
      (ofModels models).synonyms.Pairwise fun a b => R a.id b.id := by
  refine ⟨h.filterMap _ ?_, h.filterMap _ ?_, h.filterMap _ ?_⟩
  all_goals
    intro a b hab x hx y hy
    cases a <;> simp_all
    cases b <;> simp_all [ModelMetadata.id]

end CatalogModels

namespace Catalog

/-- The types of the parameters and results of all routes. -/
def routeTypes (c : Catalog) : List TypeUse :=
  (c.controllers.flatMap (·.routes)).flatMap fun r =>
    r.params.map (·.type) ++ r.returns.map (·.type)

/-- All types that a catalog shows: those of its routes, and those in its models. -/
def types (c : Catalog) : List TypeUse :=
  c.routeTypes ++ c.models.all.flatMap ModelMetadata.types

/-- An identity that a chain of references leads to from the routes of a catalog. -/
inductive Refers (c : Catalog) : DeclId → Prop where
  | route {t : TypeUse} {id : DeclId} (ht : t ∈ c.routeTypes) (hid : id ∈ t.referencedModels) :
    Refers c id
  | model {m : ModelMetadata} {t : TypeUse} {id : DeclId} (hm : m ∈ c.models.all)
    (href : Refers c m.id) (ht : t ∈ m.types) (hid : id ∈ t.referencedModels) : Refers c id

end Catalog

namespace SymbolGraph

/-- Nothing is left out of a list without repetitions. -/
theorem lastOfEach_eq_self {l : List (DeclId × ModelMetadata)} (h : (l.map (·.1)).Nodup) :
    lastOfEach l = l := by
  fun_induction lastOfEach l with
  | case1 => rfl
  | case2 m => rfl
  | case3 m n rest heq ih => simp [heq] at h
  | case4 m n rest hne ih => rw [ih (List.nodup_cons.1 h).2]

/-- The parameters and results whose types a catalog shows. -/
def catalogRoots (g : SymbolGraph) (config : Config) : List NodeIndex :=
  (g.controllers.flatMap (g.keptRoutes config)).flatMap fun r =>
    (g.parameters r.1).map (·.1) ++ (g.returns r.1).map (·.1)

/-- The models of a catalog are those below its parameters and results. -/
theorem models_catalog (g : SymbolGraph) (config : Config) (cache : MetadataCache) :
    (g.catalog config cache).models =
      .ofModels (g.modelsBelow cache (g.catalogRoots config)) := rfl

/-- The types of the routes in a catalog, without the detour through its entries. -/
theorem routeTypes_catalog (g : SymbolGraph) (config : Config) (cache : MetadataCache) :
    (g.catalog config cache).routeTypes =
      (g.controllers.flatMap (g.keptRoutes config)).flatMap fun r =>
        (g.parameters r.1).map (·.2.type) ++ (g.returns r.1).map (·.2.type) := by
  simp only [Catalog.routeTypes, catalog, List.flatMap_map, catalogController,
    List.flatMap_assoc, catalogRoute, List.map_map]
  rfl

/-- The types of the routes in a catalog are those of its parameters and results. -/
theorem mem_routeTypes_catalog {g : SymbolGraph} {config : Config} {cache : MetadataCache}
    {t : TypeUse} :
    t ∈ (g.catalog config cache).routeTypes ↔ ∃ i ∈ g.catalogRoots config,
      (∃ p, g.node? i = some (.parameter p) ∧ p.type = t) ∨
        ∃ r, g.node? i = some (.result r) ∧ r.type = t := by
  simp only [routeTypes_catalog, catalogRoots, List.mem_flatMap (b := t), List.mem_append,
    List.mem_map]
  constructor
  · rintro ⟨r, hr, ⟨⟨i, p⟩, hp, rfl⟩ | ⟨⟨i, x⟩, hx, rfl⟩⟩
    · refine ⟨i, List.mem_flatMap.2 ⟨r, hr, ?_⟩, .inl ⟨p, (mem_parameters_iff.1 hp).2, rfl⟩⟩
      exact List.mem_append_left _ (List.mem_map.2 ⟨_, hp, rfl⟩)
    · refine ⟨i, List.mem_flatMap.2 ⟨r, hr, ?_⟩, .inr ⟨x, (mem_returns_iff.1 hx).2, rfl⟩⟩
      exact List.mem_append_right _ (List.mem_map.2 ⟨_, hx, rfl⟩)
  · rintro ⟨i, hi, htype⟩
    obtain ⟨r, hr, hi⟩ := List.mem_flatMap.1 hi
    simp only [List.mem_append, List.mem_map, Prod.exists, exists_and_right, exists_eq_right,
      mem_parameters_iff, mem_returns_iff] at hi
    refine ⟨r, hr, ?_⟩
    rcases htype with ⟨p, hp, rfl⟩ | ⟨x, hx, rfl⟩
    · rcases hi with ⟨p', hchild, hp'⟩ | ⟨x, -, hx⟩
      · exact .inl ⟨(i, p), mem_parameters_iff.2 ⟨hchild, hp⟩, rfl⟩
      · simp [hp] at hx
    · rcases hi with ⟨p, -, hp⟩ | ⟨x', hchild, hx'⟩
      · simp [hx] at hp
      · exact .inr ⟨(i, x), mem_returns_iff.2 ⟨hchild, hx⟩, rfl⟩

/-- The catalog starts from parameters and results. -/
theorem node?_of_mem_catalogRoots {g : SymbolGraph} {config : Config} {i : NodeIndex}
    (h : i ∈ g.catalogRoots config) :
    (∃ p, g.node? i = some (.parameter p)) ∨ ∃ r, g.node? i = some (.result r) := by
  simp only [catalogRoots, List.mem_flatMap, List.mem_append, List.mem_map] at h
  obtain ⟨r, -, ⟨⟨j, p⟩, hp, rfl⟩ | ⟨⟨j, x⟩, hx, rfl⟩⟩ := h
  · exact .inl ⟨p, (mem_parameters_iff.1 hp).2⟩
  · exact .inr ⟨x, (mem_returns_iff.1 hx).2⟩

/-- The identities of what a function keeps stand in the order of the list. -/
theorem sublist_keys {α : Type} (key : α → DeclId) (f : α → Option ModelMetadata) (l : List α) :
    ((l.filterMap fun a => (f a).map fun m => (key a, m)).map (·.1)).Sublist (l.map key) := by
  induction l with
  | nil => exact .slnil
  | cons a l ih =>
    rw [List.filterMap_cons, List.map_cons]
    cases f a with
    | none => exact ih.cons _
    | some m => exact ih.cons_cons _

section Shaped

variable {C : Contents} {g : SymbolGraph} (hg : g.WellShaped C)

include hg

/-- The models that can be reached are in strict order. -/
theorem pairwise_reachableModels (roots : List NodeIndex) :
    (g.reachableModels roots).Pairwise fun a b => a.2.id.Before b.2.id := by
  have hsorted : (g.reachableModels roots).Pairwise fun a b => a.2.id.le b.2.id = true :=
    @Sorting.pairwise_sorted (NodeIndex × ModelNode) (fun a b => a.2.id.le b.2.id)
      (fun a b c => DeclId.trans_le a.2.id b.2.id c.2.id)
      (fun a b => DeclId.total_le a.2.id b.2.id) _
  have hnodup := (nodup_reachableModels (g := g) roots).of_map
  refine (hsorted.and hnodup).imp_of_mem ?_
  rintro ⟨i, m⟩ ⟨j, m'⟩ hi hj ⟨hle, hne⟩
  refine ⟨hle, fun hid => hne ?_⟩
  -- Two models with one identity have one node.
  have hm := (mem_reachableModels_iff.1 hi).2
  have hm' := (mem_reachableModels_iff.1 hj).2
  have hindex := hg.models i m hm
  simp only at hid
  rw [hid, hg.models j m' hm'] at hindex
  obtain rfl : j = i := by simpa using hindex
  simp_all

/-- The models below some nodes are the reachable ones whose metadata is current. -/
theorem modelsBelow_eq (cache : MetadataCache) (roots : List NodeIndex) :
    g.modelsBelow cache roots =
      (g.reachableModels roots).filterMap fun m => currentMetadata? cache m.2 := by
  have hnodup : ((g.reachableModels roots).map (·.2.id)).Nodup :=
    List.pairwise_map.2 ((pairwise_reachableModels hg roots).imp fun h => h.2)
  rw [modelsBelow, lastOfEach_eq_self (hnodup.sublist (sublist_keys _ _ _)), List.map_filterMap]
  simp

variable {cache : MetadataCache}
  (hmodels : ∀ i m, g.node? i = some (.model m) →
    ∃ metadata, m.metadata = some metadata ∧ metadata.id = m.id ∧
      currentMetadata? cache m = some metadata)

include hmodels

/-- A model is below some nodes if it is reachable and its node holds the metadata. -/
theorem mem_modelsBelow_iff {roots : List NodeIndex} {metadata : ModelMetadata} :
    metadata ∈ g.modelsBelow cache roots ↔
      ∃ i ∈ g.reachable roots, ∃ m, g.node? i = some (.model m) ∧
        m.metadata = some metadata ∧ metadata.id = m.id := by
  rw [modelsBelow_eq hg, List.mem_filterMap]
  constructor
  · rintro ⟨⟨i, m⟩, hx, hcurrent⟩
    obtain ⟨hi, hnode⟩ := mem_reachableModels_iff.1 hx
    obtain ⟨metadata', hm, hid, hcurrent'⟩ := hmodels i m hnode
    obtain rfl : metadata' = metadata := Option.some.inj (hcurrent'.symm.trans hcurrent)
    exact ⟨i, hi, m, hnode, hm, hid⟩
  · rintro ⟨i, hi, m, hnode, hm, -⟩
    obtain ⟨metadata', hm', -, hcurrent⟩ := hmodels i m hnode
    obtain rfl : metadata' = metadata := Option.some.inj (hm'.symm.trans hm)
    exact ⟨(i, m), mem_reachableModels_iff.2 ⟨hi, hnode⟩, hcurrent⟩

omit hg in
/-- The current metadata of a model node is about that model. -/
theorem id_of_current {i : NodeIndex} {m : ModelNode} (hi : g.node? i = some (.model m))
    {metadata : ModelMetadata} (h : currentMetadata? cache m = some metadata) :
    metadata.id = m.id := by
  obtain ⟨metadata', -, hid, hcurrent⟩ := hmodels i m hi
  obtain rfl : metadata' = metadata := Option.some.inj (hcurrent.symm.trans h)
  exact hid

/-- The models below some nodes are in strict order. -/
theorem pairwise_modelsBelow (roots : List NodeIndex) :
    (g.modelsBelow cache roots).Pairwise fun a b => a.id.Before b.id := by
  rw [modelsBelow_eq hg, List.pairwise_filterMap]
  refine (pairwise_reachableModels hg roots).imp_of_mem ?_
  rintro ⟨i, m⟩ ⟨j, m'⟩ hi hj hbefore a ha b hb
  rw [id_of_current hmodels (mem_reachableModels_iff.1 hi).2 ha,
    id_of_current hmodels (mem_reachableModels_iff.1 hj).2 hb]
  exact hbefore

variable {config : Config}

/-- The models of a catalog, read off the graph. -/
theorem mem_all_catalog_iff {metadata : ModelMetadata} :
    metadata ∈ (g.catalog config cache).models.all ↔
      ∃ i ∈ g.reachable (g.catalogRoots config), ∃ m, g.node? i = some (.model m) ∧
        m.metadata = some metadata ∧ metadata.id = m.id := by
  rw [models_catalog, (CatalogModels.perm_all_ofModels _).mem_iff, mem_modelsBelow_iff hg hmodels]

/-- Every type use in a catalog is a node that can be reached from a parameter or a result. -/
theorem exists_reachable_type {t : TypeUse} (ht : t ∈ (g.catalog config cache).types) :
    ∃ j ∈ g.reachable (g.catalogRoots config), g.node? j = some (.type t) := by
  rcases List.mem_append.1 ht with ht | ht
  · obtain ⟨i, hi, ⟨p, hp, rfl⟩ | ⟨r, hr, rfl⟩⟩ := mem_routeTypes_catalog.1 ht
    · obtain ⟨j, hj⟩ := hg.exists_type_of_parameter hp
      exact ⟨j, mem_reachable_iff.2 ⟨i, hi, .single ((hg.successors_parameter hp).2 hj)⟩, hj⟩
    · obtain ⟨j, hj⟩ := hg.exists_type_of_result hr
      exact ⟨j, mem_reachable_iff.2 ⟨i, hi, .single ((hg.successors_result hr).2 hj)⟩, hj⟩
  · obtain ⟨metadata, hmem, ht⟩ := List.mem_flatMap.1 ht
    obtain ⟨i, hi, m, hnode, hm, -⟩ := (mem_all_catalog_iff hg hmodels).1 hmem
    obtain ⟨root, hroot, hreach⟩ := mem_reachable_iff.1 hi
    obtain ⟨j, hj⟩ := hg.exists_type_of_model hnode hm ht
    have hstep := (hg.successors_model hnode hm).2 ⟨t, ht, hj⟩
    exact ⟨j, mem_reachable_iff.2 ⟨root, hroot, hreach.tail hstep⟩, hj⟩

/-- Every reference in a catalog leads to exactly one of its models. -/
theorem count_references {t : TypeUse} (ht : t ∈ (g.catalog config cache).types) {id : DeclId}
    (hid : id ∈ t.referencedModels) :
    ((g.catalog config cache).models.all.map (·.id)).count id = 1 := by
  have hperm : ((g.catalog config cache).models.all.map (·.id)).Perm
      ((g.modelsBelow cache (g.catalogRoots config)).map (·.id)) :=
    (CatalogModels.perm_all_ofModels _).map _
  have hnodup : ((g.catalog config cache).models.all.map (·.id)).Nodup := by
    rw [hperm.nodup_iff]
    exact List.pairwise_map.2 ((pairwise_modelsBelow hg hmodels _).imp fun h => h.2)
  refine List.count_eq_one_of_mem hnodup ?_
  obtain ⟨j, hj, htype⟩ := exists_reachable_type hg hmodels ht
  obtain ⟨root, hroot, hreach⟩ := mem_reachable_iff.1 hj
  obtain ⟨k, hk⟩ := hg.exists_model_of_type htype hid
  have hstep := (hg.successors_type htype).2 ⟨id, hid, hk⟩
  obtain ⟨e, he, rfl⟩ := Option.map_eq_some_iff.1 hk
  obtain ⟨m, hnode, rfl, -⟩ := hg.entries id e he
  obtain ⟨metadata, hm, hid', -⟩ := hmodels _ m hnode
  refine List.mem_map.2 ⟨metadata, (mem_all_catalog_iff hg hmodels).2 ?_, hid'⟩
  exact ⟨e.node, mem_reachable_iff.2 ⟨root, hroot, hreach.tail hstep⟩, m, hnode, hm, hid'⟩

/-- What a node has to do with a catalog if it can be reached: a type stands in a route or in a
model that is referred to, and a model is referred to itself. -/
def Shown (g : SymbolGraph) (config : Config) (c : Catalog) (i : NodeIndex) : SymbolNode → Prop
  | .parameter _ | .result _ => i ∈ g.catalogRoots config
  | .type t => t ∈ c.routeTypes ∨ ∃ m ∈ c.models.all, c.Refers m.id ∧ t ∈ m.types
  | .model m => c.Refers m.id
  | .controller _ | .route _ => False

/-- All models of a catalog are referred to from its routes. -/
theorem refers_of_reachable {i : NodeIndex} (hi : i ∈ g.reachable (g.catalogRoots config)) :
    ∃ n, g.node? i = some n ∧ Shown g config (g.catalog config cache) i n := by
  obtain ⟨root, hroot, hreach⟩ := mem_reachable_iff.1 hi
  clear hi
  induction hreach with
  | refl =>
    rcases node?_of_mem_catalogRoots hroot with ⟨p, hp⟩ | ⟨r, hr⟩
    · exact ⟨_, hp, hroot⟩
    · exact ⟨_, hr, hroot⟩
  | @tail j k hreach hstep ih =>
    obtain ⟨n, hn, hshown⟩ := ih
    cases n with
    | parameter p =>
      have hk := (hg.successors_parameter hn).1 hstep
      exact ⟨_, hk, .inl (mem_routeTypes_catalog.2 ⟨j, hshown, .inl ⟨p, hn, rfl⟩⟩)⟩
    | result r =>
      have hk := (hg.successors_result hn).1 hstep
      exact ⟨_, hk, .inl (mem_routeTypes_catalog.2 ⟨j, hshown, .inr ⟨r, hn, rfl⟩⟩)⟩
    | type t =>
      obtain ⟨id, hid, hk⟩ := (hg.successors_type hn).1 hstep
      obtain ⟨e, he, rfl⟩ := Option.map_eq_some_iff.1 hk
      obtain ⟨m, hm, rfl, -⟩ := hg.entries id e he
      rcases hshown with ht | ⟨metadata, hmetadata, href, ht⟩
      · exact ⟨_, hm, .route ht hid⟩
      · exact ⟨_, hm, .model hmetadata href ht hid⟩
    | model m =>
      obtain ⟨metadata, hm, hid, -⟩ := hmodels j m hn
      obtain ⟨t, ht, hk⟩ := (hg.successors_model hn hm).1 hstep
      have hmem : metadata ∈ (g.catalog config cache).models.all :=
        (mem_all_catalog_iff hg hmodels).2
          ⟨j, mem_reachable_iff.2 ⟨root, hroot, hreach⟩, m, hn, hm, hid⟩
      exact ⟨_, hk, .inr ⟨metadata, hmem, by rw [hid]; exact hshown, ht⟩⟩
    | controller c => exact hshown.elim
    | route r => exact hshown.elim

/-- All models of a catalog are referred to from its routes. -/
theorem refers_of_mem_all {metadata : ModelMetadata}
    (h : metadata ∈ (g.catalog config cache).models.all) :
    (g.catalog config cache).Refers metadata.id := by
  obtain ⟨i, hi, m, hnode, -, hid⟩ := (mem_all_catalog_iff hg hmodels).1 h
  obtain ⟨n, hn, hshown⟩ := refers_of_reachable hg hmodels hi
  obtain rfl : n = .model m := Option.some.inj (hn.symm.trans hnode)
  rw [hid]
  exact hshown

end Shaped

end SymbolGraph

namespace Pipeline

variable {p : Pipeline} {t : FileTree} {catalog : Catalog} {trees : Set FileTree}

/-- Every model in the graph of a run has metadata with its identity, also if it is taken from the
cache. -/
theorem Ran.exists_metadata {filter : PathFilter} {g : SymbolGraph}
    (h : Ran p t catalog filter g) (hp : Written trees p.cache) (i : NodeIndex) (m : ModelNode)
    (hi : g.node? i = some (.model m)) :
    ∃ metadata, m.metadata = some metadata ∧ metadata.id = m.id ∧
      SymbolGraph.currentMetadata? (p.run t).2.cache m = some metadata := by
  obtain ⟨hsound, hcomplete⟩ := h.sound hp
  obtain ⟨metadata, hmetadata, hcurrent⟩ := hsound.exists_metadata hcomplete hi
  obtain ⟨⟨d, -, heq, hfits⟩, -⟩ := hsound.shape.nodes i _ hi not_false
  refine ⟨metadata, hmetadata, ?_, hcurrent⟩
  rw [heq]
  exact hfits metadata hmetadata

/-- The models of a catalog are closed, minimal and without repetitions, whatever runs have written
the cache: each model that a type in the catalog refers to is exactly one of its models, each of
its models is referred to by a chain that starts in the type of a parameter or a result, and each
list of models is strictly sorted by identity. -/
theorem models_exact (hp : Written trees p.cache) (h : (p.run t).1 = .ok catalog) :
    (∀ u ∈ catalog.types, ∀ id ∈ u.referencedModels,
      (catalog.models.all.map (·.id)).count id = 1) ∧
    (∀ m ∈ catalog.models.all, catalog.Refers m.id) ∧
    (catalog.models.structs.Pairwise fun a b => a.id.Before b.id) ∧
    (catalog.models.enums.Pairwise fun a b => a.id.Before b.id) ∧
    catalog.models.synonyms.Pairwise fun a b => a.id.Before b.id := by
  obtain ⟨filter, g, hran⟩ := exists_ran h
  have hshape := (hran.sound hp).1.shape
  have hmodels := hran.exists_metadata hp
  rw [hran.made]
  refine ⟨?_, ?_, ?_⟩
  · intro u hu id hid
    exact SymbolGraph.count_references hshape hmodels hu hid
  · intro m hm
    exact SymbolGraph.refers_of_mem_all hshape hmodels hm
  · exact CatalogModels.pairwise_ofModels (SymbolGraph.pairwise_modelsBelow hshape hmodels _)

/-- The struct of the small project is referred to, and all references lead to it. -/
theorem models_exact_smallProject :
    ∃ catalog, (Pipeline.run { root := ⟨"/p"⟩ } smallProject).1 = .ok catalog ∧
      catalog.models.structs.length = 1 ∧
      (∀ u ∈ catalog.types, ∀ id ∈ u.referencedModels,
        (catalog.models.all.map (·.id)).count id = 1) ∧
      ∀ m ∈ catalog.models.all, catalog.Refers m.id := by
  obtain ⟨catalog, hrun, -, hstructs⟩ := exists_catalog_smallProject
  obtain ⟨hclosed, hminimal, -⟩ := models_exact (.empty : Written ∅ _) hrun
  exact ⟨catalog, hrun, hstructs, hclosed, hminimal⟩

end Pipeline

end RouteAtlas
