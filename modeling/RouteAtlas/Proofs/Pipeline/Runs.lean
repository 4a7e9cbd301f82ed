import RouteAtlas.Pipeline
import RouteAtlas.Proofs.Build.Controllers

/-!
# Runs of the pipeline

A run that succeeds has built a graph, found no error in it and made the catalog of it. The cache
outlives a run whether it succeeds or not, so what can be found in the cache is said about all
caches that some runs have written (`Written`).
-/

set_option autoImplicit false

namespace RouteAtlas

/-- A cache that runs on some trees have written, whether they succeeded or not, and for whatever
project and configuration. -/
inductive Written (trees : Set FileTree) : MetadataCache → Prop where
  | empty : Written trees {}
  | run (p : Pipeline) {t : FileTree} (ht : t ∈ trees) (hp : Written trees p.cache) :
    Written trees (p.run t).2.cache

namespace Pipeline

variable {p : Pipeline} {t : FileTree}

/-- A run ends with the cache and the graph that the build has left. -/
theorem run_snd (p : Pipeline) (t : FileTree) : (p.run t).2 = (p.generate t).2 := by
  rw [run]
  rcases p.generate t with ⟨e | g, q⟩
  · rfl
  · simp only
    split <;> rfl

/-- A run either builds nothing or leaves the cache of its build. -/
theorem cache_run (p : Pipeline) (t : FileTree) :
    (p.run t).2.cache = p.cache ∨ ∃ filter, p.config.pathFilter = .ok filter ∧
      (p.run t).2.cache = ((Snapshot.ofTree t p.root filter).buildGraph p.config p.cache).2 := by
  rw [run_snd, generate]
  cases hfilter : p.config.pathFilter with
  | error e => exact .inl rfl
  | ok filter =>
    refine .inr ⟨filter, rfl, ?_⟩
    simp only
    rcases (Snapshot.ofTree t p.root filter).buildGraph p.config p.cache with ⟨e | g, cache⟩
    · rfl
    · rfl

/-- A build that gives a graph keeps it, and leaves its cache. -/
theorem exists_built {g : SymbolGraph} (h : (p.generate t).1 = .ok g) :
    ∃ filter, p.config.pathFilter = .ok filter ∧
      ((Snapshot.ofTree t p.root filter).buildGraph p.config p.cache).1 = .ok g ∧
      (p.generate t).2 = { p with
        cache := ((Snapshot.ofTree t p.root filter).buildGraph p.config p.cache).2
        graph := some g } := by
  rw [generate] at h ⊢
  cases hfilter : p.config.pathFilter with
  | error e => simp [hfilter] at h
  | ok filter =>
    simp only [hfilter] at h ⊢
    refine ⟨filter, rfl, ?_⟩
    rcases hbuild : (Snapshot.ofTree t p.root filter).buildGraph p.config p.cache with
      ⟨e | g', cache⟩
    · simp [hbuild] at h
    · simp only [hbuild, Except.ok.injEq] at h
      rw [h]
      exact ⟨rfl, rfl⟩

/-- What a run has done that gives a catalog. -/
structure Ran (p : Pipeline) (t : FileTree) (catalog : Catalog) (filter : PathFilter)
    (g : SymbolGraph) : Prop where
  accepted : p.config.pathFilter = .ok filter
  built : ((Snapshot.ofTree t p.root filter).buildGraph p.config p.cache).1 = .ok g
  cache : ((Snapshot.ofTree t p.root filter).buildGraph p.config p.cache).2 = (p.run t).2.cache
  kept : (p.run t).2.graph = some g
  valid : ValidationFailure.ofEntities? g.validate = none
  made : catalog = g.catalog p.config (p.run t).2.cache

/-- A run that gives a catalog has built a graph without errors, and the catalog is made of it. -/
theorem exists_ran {catalog : Catalog} (h : (p.run t).1 = .ok catalog) :
    ∃ filter g, Ran p t catalog filter g := by
  have hsnd := run_snd p t
  rw [run] at h
  rcases hgenerate : p.generate t with ⟨e | g, q⟩
  · simp [hgenerate] at h
  · obtain ⟨filter, hfilter, hbuilt, hleft⟩ := exists_built (congrArg Prod.fst hgenerate)
    rw [hgenerate] at h hsnd hleft
    obtain rfl : q = _ := hleft
    simp only at h hsnd
    cases hvalid : ValidationFailure.ofEntities? g.validate with
    | some failure => simp [hvalid] at h
    | none =>
      rw [hvalid] at h
      refine ⟨filter, g, hfilter, hbuilt, by rw [hsnd], by rw [hsnd], hvalid, ?_⟩
      rw [hsnd]
      exact (Except.ok.inj h).symm

end Pipeline

/-! ## Identities in the cache -/

namespace PackageSource

variable (source : PackageSource Id)

/-- The metadata read off a declaration has its identity. -/
theorem id_metadata? {d : ResolvedDecl} {m : ModelMetadata} (h : source.metadata? d = some m) :
    m.id = d.id := by
  unfold metadata? at h
  cases hs : d.decl.shape with
  | struct fields =>
    rw [hs] at h
    cases h
    rfl
  | interface => simp [hs] at h
  | synonym e =>
    rw [hs] at h
    cases h
    rfl
  | named e =>
    rw [hs] at h
    simp only at h
    split at h
    · cases h
      rfl
    · cases h
      rfl

/-- Refreshed metadata keeps its identity. -/
theorem id_refreshed? {d : ResolvedDecl} {cached m : ModelMetadata}
    (h : source.refreshed? d cached = some m) : m.id = cached.id := by
  unfold refreshed? at h
  split at h
  · obtain ⟨fields, -, rfl⟩ := Option.map_eq_some_iff.1 h
    rfl
  · split at h
    · cases h
      rfl
    · cases h
  · split at h
    · cases h
      rfl
    · cases h
  · cases h

/-- The regime in which all metadata has the identity that it is stored under. -/
def identityRegime : Regime source where
  Known := fun d => d.kind.isModel = true
  Left := fun e => e.metadata.id = e.id
  Fits := fun d m => m.id = d.id

/-- Any declaration may stand where an identity is all that is asked for. -/
theorem lawful_identityRegime : source.identityRegime.Lawful where
  isModel := fun _ hd => hd
  closed := fun _ _ _ _ _ _ _ hmentions => hmentions.1
  fits := by
    intro d cached m _ husable hm _
    cases cached with
    | none => exact source.id_metadata? hm
    | some cached =>
      rcases Option.or_eq_some_iff.1 hm with hrefreshed | ⟨-, hread⟩
      · obtain ⟨e, _, hleft, hid, rfl, -⟩ := husable cached rfl
        exact (source.id_refreshed? hrefreshed).trans (hleft.trans hid)
      · exact source.id_metadata? hread

/-- Every declaration that a route mentions is known if nothing is asked of it. -/
theorem roots_identityRegime (config : Config) (files : List SourceFile) :
    source.identityRegime.Roots config files :=
  fun _ _ _ _ _ _ _ _ _ hmentions => hmentions.1

end PackageSource

/-- What the entries that a build finds have in common, and those that it leaves then too, all
entries have that runs have written. -/
theorem Written.forall_entries {trees : Set FileTree} {cache : MetadataCache}
    (h : Written trees cache) {P : CacheEntry → Prop}
    (hbuild : ∀ t ∈ trees, ∀ (root : PathName) (filter : PathFilter) (config : Config)
      (before : MetadataCache), (∀ id e, before.get? id = some e → P e) →
      ∀ id e, ((Snapshot.ofTree t root filter).buildGraph config before).2.get? id = some e → P e) :
    ∀ id e, cache.get? id = some e → P e := by
  induction h with
  | empty => simp [MetadataCache.get?]
  | @run p t ht hp ih =>
    rcases p.cache_run t with hsame | ⟨filter, -, hcache⟩
    · exact hsame ▸ ih
    · exact hcache ▸ hbuild t ht p.root filter p.config p.cache ih

/-- In a cache that runs have written, metadata has the identity it is stored under. -/
theorem Written.id_metadata {trees : Set FileTree} {cache : MetadataCache}
    (h : Written trees cache) : ∀ id e, cache.get? id = some e → e.metadata.id = e.id := by
  refine h.forall_entries ?_
  intro t _ root filter config before hbefore id e he
  rcases Regime.left_or_produced_of_buildGraph (PackageSource.lawful_identityRegime _)
    (PackageSource.roots_identityRegime _ _ _) hbefore he with hleft | ⟨d, -, hid, -, hfits⟩
  · exact hleft
  · exact hfits.trans hid

namespace Pipeline

/-- A run that gives a catalog leaves a sound state in which every model is complete. -/
theorem Ran.sound {p : Pipeline} {t : FileTree} {catalog : Catalog} {filter : PathFilter}
    {g : SymbolGraph} (h : Ran p t catalog filter g) {trees : Set FileTree}
    (hp : Written trees p.cache) :
    (Snapshot.ofTree t p.root filter).source.identityRegime.Sound p.config
        ⟨g, (p.run t).2.cache⟩ ∧
      ∀ id e, g.modelEntry? id = some e → e.state = .complete := by
  obtain ⟨hsound, hcomplete, -⟩ := Regime.sound_of_buildGraph
    (PackageSource.lawful_identityRegime _) (PackageSource.roots_identityRegime _ _ _)
    hp.id_metadata h.built
  exact ⟨h.cache ▸ hsound, hcomplete⟩

end Pipeline

/-! ## A small project -/

/-- A project of one file: a route with a parameter in its path, and a struct that holds itself. -/
def smallProject : FileTree where
  entries :=
    [(["p"], .directory),
     (["p", "a.go"], .file
      ("package p\n// @Route(/v)\ntype C struct\x7b ControllerBase \x7d\n" ++
       "// @Method(GET)\n// @Route(/x/\x7bid\x7d)\n// @Path(id)\n" ++
       "func (c *C) Get(id string) (A, error) \x7b\x7d\n" ++
       "type A struct \x7b N *A \x7d\n").toUTF8 0)]
  workDir := ["p"]

/-- The catalog of the small project has one route and one model. -/
theorem exists_catalog_smallProject :
    ∃ catalog, (Pipeline.run { root := ⟨"/p"⟩ } smallProject).1 = .ok catalog ∧
      catalog.controllers.map (·.routes.length) = [1] ∧ catalog.models.structs.length = 1 := by
  obtain ⟨catalog, hrun, hlengths⟩ := exists_eq_ok
    (x := (Pipeline.run { root := ⟨"/p"⟩ } smallProject).1)
    (f := fun catalog =>
      (catalog.controllers.map (·.routes.length), catalog.models.structs.length))
    (b := ([1], 1)) (by decide +kernel)
  exact ⟨catalog, hrun, Prod.mk.inj hlengths⟩

end RouteAtlas
