import RouteAtlas.Proofs.Build.Order
import RouteAtlas.Proofs.Build.Exact
import RouteAtlas.Proofs.Catalog.Models
import RouteAtlas.Proofs.Pipeline.Incremental

/-!
# Pipelines that share a cache

The catalog of a graph takes the metadata of a model from the cache for as long as the version of
its file there is that of the graph. Another pipeline on the same project may have stored it in the
meantime, after other files were edited, so the catalog can show something that the graph does not
(`catalog_disturbed`). Nothing else can happen: everything but the metadata of such models stays
what the graph says, and so does everything if the other pipelines read the same files
(`catalog_shared`).
-/

set_option autoImplicit false

namespace RouteAtlas

namespace PackageSource

variable {source : PackageSource Id}

/-- Metadata that a declaration is given when some entries may be found in the cache. Those that
were read off declarations make no difference. -/
structure Makes (source : PackageSource Id) (Left : CacheEntry → Prop) (d : ResolvedDecl)
    (m : ModelMetadata) : Prop where
  planned : ∃ cached, source.planned? d cached = some m
  read : ∀ trees, Unambiguous trees → (∀ e, Left e → Recorded trees e) → StandsIn trees d →
    source.metadata? d = some m

/-- The regime of builds that make metadata from declarations and from what they find. -/
def declaredRegime (source : PackageSource Id) (Left : CacheEntry → Prop) : Regime source where
  Known := fun d => source.Declares d ∧ d.kind.isModel = true
  Left := Left
  Fits := source.Makes Left

variable (hs : source.Lawful) (Left : CacheEntry → Prop)

include hs

/-- What a declaration mentions is declared in the module. -/
theorem declared_of_mentions {file : SourceFile} {packagePath : String} {leaves : List TypeExpr}
    {d : ResolvedDecl} (h : source.Mentions file packagePath leaves d) :
    (source.declaredRegime Left).Known d := by
  obtain ⟨hmodel, leaf, -, hr⟩ := h
  exact ⟨(finds_of_resolve hs hr).declares, hmodel⟩

/-- Metadata that is made of declared models keeps to them. -/
theorem lawful_declaredRegime : (source.declaredRegime Left).Lawful where
  isModel := fun _ hd => hd.2
  closed := fun _ _ _ _ _ _ _ hmentions => declared_of_mentions hs Left hmentions
  fits := by
    intro d cached m hd husable hm _
    refine ⟨⟨cached, hm⟩, fun trees hu hleft hstands => ?_⟩
    have husable' : (source.historyRegime trees).Usable d cached := by
      intro found hfound
      obtain ⟨e, version, he, hfresh⟩ := husable found hfound
      exact ⟨e, version, hleft e he, hfresh⟩
    rw [← (transparent_historyRegime hu d cached ⟨hstands, hd.2⟩ husable').2]
    exact hm

/-- What the routes mention is declared in the module. -/
theorem roots_declaredRegime (config : Config) (files : List SourceFile) :
    (source.declaredRegime Left).Roots config files :=
  fun _ _ _ _ _ _ _ _ _ hmentions => declared_of_mentions hs Left hmentions

end PackageSource

namespace Pipeline

open SymbolGraph

/-! ## What a build makes -/

/-- The metadata that a build has made from a declaration in the files. If files can be told apart
and runs have written the cache, it is read off the declaration. -/
structure Made (p : Pipeline) (t : FileTree) (filter : PathFilter) (d : ResolvedDecl)
    (m : ModelMetadata) : Prop where
  accepted : p.config.pathFilter = .ok filter
  declared : (Snapshot.ofTree t p.root filter).source.Declares d
  planned : ∃ cached, (Snapshot.ofTree t p.root filter).source.planned? d cached = some m
  read : ∀ trees, Unambiguous trees → Written trees p.cache → t ∈ trees →
    (Snapshot.ofTree t p.root filter).source.metadata? d = some m

variable {p : Pipeline} {t : FileTree} {g : SymbolGraph}

/-- Metadata that is made in a snapshot is made in a build of the pipeline. -/
theorem made_of_makes {filter : PathFilter} {d : ResolvedDecl} {m : ModelMetadata}
    (haccepted : p.config.pathFilter = .ok filter)
    (hdeclared : (Snapshot.ofTree t p.root filter).source.Declares d)
    (hmakes : (Snapshot.ofTree t p.root filter).source.Makes
      (fun e => p.cache.get? e.id = some e) d m) : Made p t filter d m where
  accepted := haccepted
  declared := hdeclared
  planned := hmakes.planned
  read := fun trees hu hp ht => hmakes.read trees hu (fun e he => hp.recorded hu _ e he)
    (Snapshot.standsIn_of_declares ht hdeclared)

/-- An entry is found under its own identity. -/
theorem get?_id_of_get? {cache : MetadataCache} (id : DeclId) (e : CacheEntry)
    (he : cache.get? id = some e) : cache.get? e.id = some e := by
  rw [MetadataCache.id_of_get? he]
  exact he

/-- What is in the cache after a build was there before, or the build has made it. -/
theorem get?_generate {id : DeclId} {e : CacheEntry}
    (he : (p.generate t).2.cache.get? id = some e) :
    p.cache.get? id = some e ∨ ∃ filter d, Made p t filter d e.metadata ∧ d.id = id ∧
      d.file.version = some e.version := by
  rw [← run_snd] at he
  rcases cache_run p t with hsame | ⟨filter, hfilter, hcache⟩
  · rw [hsame] at he
    exact .inl he
  · rw [hcache] at he
    have hs := (Snapshot.ofTree t p.root filter).lawful_source
    have hid := MetadataCache.id_of_get? he
    rcases Regime.left_or_produced_of_buildGraph (PackageSource.lawful_declaredRegime hs _)
      (PackageSource.roots_declaredRegime hs _ _ _) get?_id_of_get? he with
      hold | ⟨d, ⟨hdeclared, -⟩, hd, hversion, hmakes⟩
    · exact .inl (hid ▸ hold)
    · exact .inr ⟨filter, d, made_of_makes hfilter hdeclared hmakes, hd.trans hid, hversion⟩

/-- The graph that a pipeline builds and its cache are sound, and every model in it is complete. -/
theorem exists_sound (h : (p.generate t).1 = .ok g) :
    ∃ filter, p.config.pathFilter = .ok filter ∧
      ((Snapshot.ofTree t p.root filter).source.declaredRegime
        fun e => p.cache.get? e.id = some e).Sound p.config ⟨g, (p.generate t).2.cache⟩ ∧
      ∀ id e, g.modelEntry? id = some e → e.state = .complete := by
  obtain ⟨filter, haccepted, hbuilt, hleft⟩ := exists_built h
  have hs := (Snapshot.ofTree t p.root filter).lawful_source
  obtain ⟨hsound, hcomplete, -⟩ := Regime.sound_of_buildGraph
    (PackageSource.lawful_declaredRegime hs _) (PackageSource.roots_declaredRegime hs _ _ _)
    get?_id_of_get? hbuilt
  rw [hleft]
  exact ⟨filter, haccepted, hsound, hcomplete⟩

/-- The models of a graph that was built have been made from declarations. -/
theorem exists_made (h : (p.generate t).1 = .ok g) {i : NodeIndex} {m : ModelNode}
    (hi : g.node? i = some (.model m)) :
    ∃ filter d own, Made p t filter d own ∧ m = d.completeNode own ∧
      currentMetadata? (p.generate t).2.cache m = some own := by
  obtain ⟨filter, haccepted, hsound, hcomplete⟩ := exists_sound h
  obtain ⟨own, hown, hcurrent⟩ := hsound.exists_metadata hcomplete hi
  obtain ⟨⟨d, ⟨hdeclared, -⟩, heq, hmakes⟩, -⟩ := hsound.shape.nodes i _ hi not_false
  refine ⟨filter, d, own, made_of_makes haccepted hdeclared (hmakes own hown), ?_, hcurrent⟩
  rw [heq, hown]
  rfl

/-! ## Builds one after the other -/

/-- The cache after some builds of the project at a root, each with a configuration and on the files
as they were then. -/
def cacheAfter (root : PathName) (builds : List (Config × FileTree)) (cache : MetadataCache) :
    MetadataCache :=
  builds.foldl (fun cache b =>
    (Pipeline.generate { root := root, config := b.1, cache := cache } b.2).2.cache) cache

/-- What is in the cache after some builds was there before, or one of them has made it. -/
theorem get?_cacheAfter {root : PathName} {builds : List (Config × FileTree)}
    {cache : MetadataCache} {id : DeclId} {e : CacheEntry}
    (he : (cacheAfter root builds cache).get? id = some e) :
    cache.get? id = some e ∨ ∃ before b after, builds = before ++ b :: after ∧
      ∃ filter d, Made { root := root, config := b.1, cache := cacheAfter root before cache } b.2
        filter d e.metadata ∧ d.id = id ∧ d.file.version = some e.version := by
  induction builds generalizing cache with
  | nil => exact .inl he
  | cons b builds ih =>
    rcases ih he with hold | ⟨before, b', after, rfl, hmade⟩
    · rcases get?_generate hold with hbefore | hmade
      · exact .inl hbefore
      · exact .inr ⟨[], b, builds, rfl, hmade⟩
    · exact .inr ⟨b :: before, b', after, rfl, hmade⟩

/-- A build leaves a cache that runs can leave. -/
theorem written_generate {trees : Set FileTree} (hp : Written trees p.cache) (ht : t ∈ trees) :
    Written trees (p.generate t).2.cache := by
  rw [← run_snd]
  exact .run p ht hp

/-- Some builds leave a cache that runs can leave. -/
theorem written_cacheAfter {trees : Set FileTree} {cache : MetadataCache}
    (hcache : Written trees cache) (root : PathName) {builds : List (Config × FileTree)}
    (hbuilds : ∀ b ∈ builds, b.2 ∈ trees) : Written trees (cacheAfter root builds cache) := by
  induction builds generalizing cache with
  | nil => exact hcache
  | cons b builds ih =>
    have hb : Written trees
        (Pipeline.generate { root := root, config := b.1, cache := cache } b.2).2.cache :=
      written_generate hcache (hbuilds b List.mem_cons_self)
    exact ih hb fun b' hb' => hbuilds b' (List.mem_cons_of_mem b hb')

/-! ## Catalogs made after other builds -/

/-- A pipeline that has the cache of another one after the build of that one and some more. -/
def sharing (p : Pipeline) (t : FileTree) (builds : List (Config × FileTree)) (config : Config) :
    Pipeline :=
  { root := p.root, config := config, cache := cacheAfter p.root builds (p.generate t).2.cache }

/-- The metadata of a model, as one of the builds after that of its graph has made it: that build
found a declaration with the identity of the model in a file with the contents of the model's file.
If files can be told apart, it is the same declaration. -/
def Superseded (p : Pipeline) (t : FileTree) (builds : List (Config × FileTree))
    (later own : ModelMetadata) : Prop :=
  ∃ filter mine, p.Made t filter mine own ∧ ∃ before b after, builds = before ++ b :: after ∧
    ∃ filter' d, (p.sharing t before b.1).Made b.2 filter' d later ∧ d.id = mine.id ∧
      (∃ version version', mine.file.version = some version ∧ d.file.version = some version' ∧
        version'.hasChanged version = false) ∧
      ∀ trees, Unambiguous trees → t ∈ trees → b.2 ∈ trees → d.decl = mine.decl

/-- A catalog that was made with a shared cache, against the one that the graph alone gives. -/
structure SharedCatalog (p : Pipeline) (t : FileTree) (builds : List (Config × FileTree))
    (shared alone : Catalog) : Prop where
  controllers : shared.controllers = alone.controllers
  hasErrorTypes : shared.hasErrorTypes = alone.hasErrorTypes
  models : ∃ later own : List ModelMetadata,
    shared.models = .ofModels later ∧ alone.models = .ofModels own ∧
      List.Forall₂ (fun a b => a = b ∨ Superseded p t builds a b) later own
  unedited : ∀ trees, Unambiguous trees → Written trees p.cache → t ∈ trees →
    (∀ b ∈ builds, b.2 = t ∧ b.1.pathFilter = p.config.pathFilter) → shared = alone

/-- If nothing is edited and all builds read the same files, they make the same metadata. -/
theorem Superseded.eq_of_unedited {builds : List (Config × FileTree)} {later own : ModelMetadata}
    (h : Superseded p t builds later own) {trees : Set FileTree} (hu : Unambiguous trees)
    (hp : Written trees p.cache) (ht : t ∈ trees)
    (hsame : ∀ b ∈ builds, b.2 = t ∧ b.1.pathFilter = p.config.pathFilter) : later = own := by
  obtain ⟨filter, mine, hmine, before, b, after, rfl, filter', d, hd, hid, -⟩ := h
  obtain ⟨htree, hconfig⟩ := hsame b (by simp)
  have hread := hmine.read trees hu hp ht
  have hbefore : Written trees (cacheAfter p.root before (p.generate t).2.cache) := by
    refine written_cacheAfter (written_generate hp ht) p.root fun b' hb' => ?_
    rw [(hsame b' (by simp [hb'])).1]
    exact ht
  have hread' := hd.read trees hu hbefore (htree ▸ ht)
  have hfilter : filter' = filter :=
    Except.ok.inj ((hd.accepted.symm.trans hconfig).trans hmine.accepted)
  have hdeclared := hd.declared
  rw [htree, hfilter] at hread' hdeclared
  rw [hmine.declared.eq_with hdeclared hid.symm] at hread'
  exact Option.some.inj (hread'.symm.trans hread)

/-- What the catalog shows of a model: what the graph says, or what a later build has made. -/
theorem current_or_superseded (h : (p.generate t).1 = .ok g) (builds : List (Config × FileTree))
    {i : NodeIndex} {m : ModelNode} (hi : g.node? i = some (.model m)) :
    ∃ later own, currentMetadata? (cacheAfter p.root builds (p.generate t).2.cache) m = some later ∧
      m.metadata = some own ∧ (later = own ∨ Superseded p t builds later own) := by
  obtain ⟨filter, mine, own, hmine, rfl, hcurrent⟩ := exists_made h hi
  rcases currentMetadata?_cases (cacheAfter p.root builds (p.generate t).2.cache)
    (mine.completeNode own) with hown | ⟨e, version, hget, hversion, hsame, hlater⟩
  · exact ⟨own, own, hown, rfl, .inl rfl⟩
  · rcases get?_cacheAfter hget with hold | ⟨before, b, after, heq, filter', d, hd, hid, hversion'⟩
    · -- The cache says what it said after the build of the graph.
      refine ⟨own, own, ?_, rfl, .inl rfl⟩
      rw [← hcurrent]
      exact currentMetadata?_congr (hget.trans hold.symm)
    · refine ⟨e.metadata, own, hlater, rfl, .inr ⟨filter, mine, hmine, before, b, after, heq,
        filter', d, hd, hid, ⟨version, e.version, hversion, hversion', hsame⟩, ?_⟩⟩
      intro trees hu ht hb
      have hstands := Snapshot.standsIn_of_declares hb hd.declared
      have hstands' := Snapshot.standsIn_of_declares ht hmine.declared
      exact hstands.decl_eq hstands' hu hid hversion' hversion hsame

/-- The catalog of a graph, made with a cache that other builds of the project have used since, is
the one that the graph alone gives, apart from models that one of these builds has made again while
their files were unchanged. -/
theorem catalog_shared (h : (p.generate t).1 = .ok g) (builds : List (Config × FileTree)) :
    SharedCatalog p t builds
      (g.catalog p.config (cacheAfter p.root builds (p.generate t).2.cache))
      (g.catalog p.config {}) where
  controllers := rfl
  hasErrorTypes := rfl
  models := by
    obtain ⟨filter, -, hsound, -⟩ := exists_sound h
    refine ⟨_, _, models_catalog _ _ _, models_catalog _ _ _, ?_⟩
    rw [modelsBelow_eq hsound.shape, modelsBelow_eq hsound.shape]
    -- Both catalogs go through the same models and differ at most in what they show of each.
    refine List.rel_filterMap
      (R := fun x y => x = y ∧ x ∈ g.reachableModels (g.catalogRoots p.config))
      ?_ (List.forall₂_same.2 fun x hx => ⟨rfl, hx⟩)
    rintro ⟨i, m⟩ _ ⟨rfl, hx⟩
    obtain ⟨later, own, hlater, hown, hcase⟩ :=
      current_or_superseded h builds (mem_reachableModels_iff.1 hx).2
    have halone : currentMetadata? {} m = some own := hown
    simp only [hlater, halone]
    exact .some hcase
  unedited := by
    intro trees hu hp ht hsame
    refine catalog_congr (fun i m hi => ?_) p.config
    obtain ⟨later, own, hlater, hown, rfl | hsuperseded⟩ := current_or_superseded h builds hi
    · exact hlater.trans hown.symm
    · rw [hlater, hsuperseded.eq_of_unedited hu hp ht hsame]
      exact hown.symm

/-! ## A project that is edited between two builds -/

/-- A project of two files: a route and a struct in the one, and a type that the struct holds, to be
edited, in the other. -/
def heldProject (held : String) : FileTree where
  entries :=
    [(["p"], .directory),
     (["p", "a.go"], .file
      ("package p\ntype C struct\x7bControllerBase\x7d\n// @Method(GET)\n// @Route(/g)\n" ++
        "func (C) G() (A, error) \x7b\x7d\ntype A struct\x7bB B\x7d\n").toUTF8 0),
     (["p", "b.go"], .file ("package p\ntype B " ++ held ++ "\n").toUTF8 0)]
  workDir := ["p"]

/-- The analysis of the project before the edit. -/
def heldPipeline : Pipeline := { root := ⟨"/p"⟩ }

/-- What the catalog may show after another pipeline has made the struct hold a synonym. -/
theorem catalog_shared_heldProject :
    ∃ g, (heldPipeline.generate (heldProject "struct\x7b\x7d")).1 = .ok g ∧
      SharedCatalog heldPipeline (heldProject "struct\x7b\x7d") [({}, heldProject "int")]
        (g.catalog {} (cacheAfter ⟨"/p"⟩ [({}, heldProject "int")]
          (heldPipeline.generate (heldProject "struct\x7b\x7d")).2.cache))
        (g.catalog {} {}) := by
  obtain ⟨g, hg, -⟩ := exists_eq_ok
    (x := (heldPipeline.generate (heldProject "struct\x7b\x7d")).1) (f := fun _ => ())
    (b := ()) (by decide +kernel)
  exact ⟨g, hg, catalog_shared hg [({}, heldProject "int")]⟩

/-- The catalog shows that the struct holds a synonym, which the graph does not say. -/
theorem catalog_disturbed :
    ∃ g, (heldPipeline.generate (heldProject "struct\x7b\x7d")).1 = .ok g ∧
      g.catalog {} (cacheAfter ⟨"/p"⟩ [({}, heldProject "int")]
        (heldPipeline.generate (heldProject "struct\x7b\x7d")).2.cache) ≠ g.catalog {} {} := by
  obtain ⟨g, hg, hne⟩ := exists_eq_ok
    (x := (heldPipeline.generate (heldProject "struct\x7b\x7d")).1)
    (f := fun g => decide (g.catalog {} (cacheAfter ⟨"/p"⟩ [({}, heldProject "int")]
        (heldPipeline.generate (heldProject "struct\x7b\x7d")).2.cache) = g.catalog {} {}))
    (b := false) (by decide +kernel)
  exact ⟨g, hg, of_decide_eq_false hne⟩

end Pipeline

end RouteAtlas
