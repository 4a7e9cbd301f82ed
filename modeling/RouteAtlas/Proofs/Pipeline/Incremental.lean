import RouteAtlas.Proofs.Build.Agreement
import RouteAtlas.Proofs.Expansion.Refresh
import RouteAtlas.Proofs.Graph.Reach
import RouteAtlas.Proofs.Pipeline.Runs
import RouteAtlas.Proofs.Project.Files

/-!
# Incremental runs

A run with a cache that earlier runs have written gives what a run with an empty cache gives. What
the cache holds was read off declarations, and is used for a declaration only while its file is the
same; so it describes that declaration, and refreshing it visits the same types and gives the same
metadata as computing it anew.
-/

set_option autoImplicit false

namespace RouteAtlas

/-- Trees in which files can be told apart: a path and a digest determine the contents, and no
struct in a source file gives two of its fields the same name, blank ones aside. -/
structure Unambiguous (trees : Set FileTree) : Prop where
  contents : ∀ t ∈ trees, ∀ t' ∈ trees, ∀ p p' contents contents' modified modified',
    t.fileAt p = .ok (contents, modified) → t'.fileAt p' = .ok (contents', modified') →
    p.same p' = true →
    Digest.hexDigest contents.toList = Digest.hexDigest contents'.toList → contents = contents'
  fields : ∀ t ∈ trees, ∀ x ∈ t.sources, ∀ decl ∈ x.2.types, decl.DistinctFields

/-- A declaration that stands in a source file of one of some trees. -/
structure StandsIn (trees : Set FileTree) (d : ResolvedDecl) : Prop where
  file : ∃ t ∈ trees, t.Reads d.file
  found : d.file.findType? d.id.name = some d.decl

/-- An entry that was made from a declaration in one of some trees. -/
def Recorded (trees : Set FileTree) (e : CacheEntry) : Prop :=
  ∃ (source : PackageSource Id) (d : ResolvedDecl), StandsIn trees d ∧ d.id = e.id ∧
    d.file.version = some e.version ∧ source.metadata? d = some e.metadata

/-- What a file declares depends on its contents only. -/
theorem types_sourceOf (p q : PathName) (contents : ByteArray) (modified modified' : Int) :
    (ModuleRoot.sourceOf p contents modified).types =
      (ModuleRoot.sourceOf q contents modified').types := by
  have hread := congrArg SourceFile.types (SourceFile.read_path p q contents)
  exact hread.symm

namespace StandsIn

variable {trees : Set FileTree} {d d₀ : ResolvedDecl}

/-- A declaration in unambiguous trees has distinct fields. -/
theorem distinctFields (h : StandsIn trees d) (hu : Unambiguous trees) :
    d.decl.DistinctFields := by
  obtain ⟨⟨t, ht, p, contents, modified, l, -, hfile, hsource⟩, hfound⟩ := h
  refine hu.fields t ht _ hsource d.decl ?_
  rw [types_sourceOf (.ofLocation l) p contents modified modified, ← hfile]
  exact List.mem_of_find?_eq_some hfound

/-- Declarations with one identity whose files have not changed are the same. -/
theorem decl_eq (h₀ : StandsIn trees d₀) (h : StandsIn trees d) (hu : Unambiguous trees)
    (hid : d₀.id = d.id) {v₀ v : FileVersion} (hv₀ : d₀.file.version = some v₀)
    (hv : d.file.version = some v) (hsame : v₀.hasChanged v = false) : d₀.decl = d.decl := by
  obtain ⟨⟨t₀, ht₀, p₀, contents₀, modified₀, -, hat₀, hfile₀, -⟩, hfound₀⟩ := h₀
  obtain ⟨⟨t, ht, p, contents, modified, -, hat, hfile, -⟩, hfound⟩ := h
  rw [hfile₀] at hv₀
  rw [hfile] at hv
  obtain rfl := Option.some.inj hv₀
  obtain rfl := Option.some.inj hv
  simp only [FileVersion.hasChanged, Bool.or_eq_false_iff, Bool.not_eq_false',
    bne_eq_false_iff_eq] at hsame
  have hcontents : contents₀ = contents :=
    hu.contents t₀ ht₀ t ht p₀ p _ _ _ _ hat₀ hat hsame.1 hsame.2
  have htypes : d₀.file.types = d.file.types := by
    rw [hfile₀, hfile, hcontents]
    exact types_sourceOf _ _ _ _ _
  rw [SourceFile.findType?, htypes, hid] at hfound₀
  exact Option.some.inj (hfound₀.symm.trans hfound)

end StandsIn

namespace PackageSource

variable {source : PackageSource Id} {trees : Set FileTree}

/-- The regime of builds with a cache that builds on some trees have written. -/
def historyRegime (source : PackageSource Id) (trees : Set FileTree) : Regime source where
  Known := fun d => StandsIn trees d ∧ d.kind.isModel = true
  Left := Recorded trees
  Fits := fun d m => source.metadata? d = some m

/-- What the cache tells about a declaration describes it. -/
theorem describedBy_of_usable (hu : Unambiguous trees) {d : ResolvedDecl}
    (hd : StandsIn trees d) {m : ModelMetadata}
    (h : (source.historyRegime trees).Usable d (some m)) : d.DescribedBy m := by
  obtain ⟨e, version, ⟨source₀, d₀, hd₀, hid, hversion, hm⟩, hid', rfl, hversion', hsame⟩ := h m rfl
  have hids : d₀.id = d.id := hid.trans hid'
  exact ⟨source₀, d₀, hids, hd₀.decl_eq hd hu hids hversion hversion' hsame, hm⟩

/-- It makes no difference what the cache tells. -/
theorem transparent_historyRegime (hu : Unambiguous trees) :
    (source.historyRegime trees).Transparent := by
  rintro d cached ⟨hd, hmodel⟩ husable
  cases cached with
  | none => exact ⟨rfl, rfl⟩
  | some m =>
    have hdescribed := describedBy_of_usable hu hd husable
    have hdistinct := hd.distinctFields hu
    exact ⟨source.plan_of_describedBy hmodel hdistinct hdescribed,
      source.planned?_of_describedBy hdistinct hdescribed⟩

section Lawful

variable (hs : source.Lawful) (hstands : ∀ d, source.Declares d → StandsIn trees d)

include hs hstands

/-- What a declaration mentions is known in the history. -/
theorem known_of_mentions {file : SourceFile} {packagePath : String} {leaves : List TypeExpr}
    {d : ResolvedDecl} (h : source.Mentions file packagePath leaves d) :
    (source.historyRegime trees).Known d := by
  obtain ⟨hmodel, leaf, -, hr⟩ := h
  exact ⟨hstands d (finds_of_resolve hs hr).declares, hmodel⟩

/-- Expansions give metadata that is read off declarations in the trees. -/
theorem lawful_historyRegime (hu : Unambiguous trees) : (source.historyRegime trees).Lawful where
  isModel := fun _ hd => hd.2
  closed := fun _ _ _ _ _ _ _ hmentions => known_of_mentions hs hstands hmentions
  fits := by
    intro d cached m hd husable hm _
    rw [(transparent_historyRegime hu d cached hd husable).2] at hm
    exact hm

/-- The routes of controllers mention declarations in the trees only. -/
theorem roots_historyRegime (config : Config) (files : List SourceFile) :
    (source.historyRegime trees).Roots config files :=
  fun _ _ _ _ _ _ _ _ _ hmentions => known_of_mentions hs hstands hmentions

end Lawful

end PackageSource

/-- The declarations of a module stand in its tree. -/
theorem Snapshot.standsIn_of_declares {trees : Set FileTree} {t : FileTree} (ht : t ∈ trees)
    {root : PathName} {filter : PathFilter} {d : ResolvedDecl}
    (h : (ofTree t root filter).source.Declares d) : StandsIn trees d := by
  obtain ⟨f, hf, hdecl⟩ := List.exists_of_findSome?_eq_some h.found
  obtain ⟨decl, hfind, heq⟩ := Option.map_eq_some_iff.1 hdecl
  simp only [Prod.mk.injEq] at heq
  obtain ⟨rfl, rfl⟩ := heq
  exact ⟨⟨t, ht, reads_of_mem_files h.package hf⟩, hfind⟩

/-- In a cache that runs have written, every entry was made from a declaration. -/
theorem Written.recorded {trees : Set FileTree} {cache : MetadataCache} (h : Written trees cache)
    (hu : Unambiguous trees) : ∀ id e, cache.get? id = some e → Recorded trees e := by
  refine h.forall_entries ?_
  intro t ht root filter config before hbefore id e he
  have hs := (Snapshot.ofTree t root filter).lawful_source
  have hstands : ∀ d, (Snapshot.ofTree t root filter).source.Declares d → StandsIn trees d :=
    fun d hd => Snapshot.standsIn_of_declares ht hd
  rcases Regime.left_or_produced_of_buildGraph (PackageSource.lawful_historyRegime hs hstands hu)
    (PackageSource.roots_historyRegime hs hstands _ _) hbefore he with
    hleft | ⟨d, hd, hid, hversion, hfits⟩
  · exact hleft
  · exact ⟨_, d, hd.1, hid, hversion, hfits⟩

/-- The cache matters to a catalog only for the models in the graph. -/
theorem SymbolGraph.catalog_congr {g : SymbolGraph} {cache cache' : MetadataCache}
    (h : ∀ i m, g.node? i = some (.model m) → currentMetadata? cache m = currentMetadata? cache' m)
    (config : Config) : g.catalog config cache = g.catalog config cache' := by
  have hmodels : ∀ roots, g.modelsBelow cache roots = g.modelsBelow cache' roots := by
    intro roots
    rw [modelsBelow, modelsBelow]
    congr 2
    refine List.filterMap_congr ?_
    rintro ⟨i, m⟩ hx
    simp only [h i m (mem_reachableModels_iff.1 hx).2]
  rw [catalog, catalog, hmodels]

/-- Builds of a module with a cache that runs have written and with an empty one give the same graph
or the same failures, and the same catalog. -/
theorem Snapshot.buildGraph_fresh {trees : Set FileTree} (hu : Unambiguous trees)
    {cache : MetadataCache} (hcache : Written trees cache) {t : FileTree} (ht : t ∈ trees)
    (root : PathName) (filter : PathFilter) (config : Config) :
    ((ofTree t root filter).buildGraph config cache).1 =
        ((ofTree t root filter).buildGraph config {}).1 ∧
      ∀ g, ((ofTree t root filter).buildGraph config cache).1 = .ok g →
        g.catalog config ((ofTree t root filter).buildGraph config cache).2 =
          g.catalog config ((ofTree t root filter).buildGraph config {}).2 := by
  have hs := (ofTree t root filter).lawful_source
  have hstands : ∀ d, (ofTree t root filter).source.Declares d → StandsIn trees d :=
    fun d hd => standsIn_of_declares ht hd
  have hR := PackageSource.lawful_historyRegime hs hstands hu
  have hroots := PackageSource.roots_historyRegime hs hstands config (ofTree t root filter).files
  have hleft := hcache.recorded hu
  have hleft' := (Written.empty : Written trees {}).recorded hu
  have hbuilt : ((ofTree t root filter).buildGraph config cache).1 =
      ((ofTree t root filter).buildGraph config {}).1 :=
    Regime.buildGraph_agrees hR (PackageSource.transparent_historyRegime hu) hroots hleft hleft'
  refine ⟨hbuilt, fun g hg => SymbolGraph.catalog_congr (fun i m hi => ?_) config⟩
  obtain ⟨hsound, hcomplete, -⟩ := Regime.sound_of_buildGraph hR hroots hleft hg
  obtain ⟨hsound', -, -⟩ := Regime.sound_of_buildGraph hR hroots hleft' (hbuilt ▸ hg)
  obtain ⟨metadata, hm, hcurrent⟩ := hsound.exists_metadata hcomplete hi
  obtain ⟨metadata', hm', hcurrent'⟩ := hsound'.exists_metadata hcomplete hi
  exact (hcurrent.trans hm.symm).trans (hm'.trans hcurrent'.symm)

namespace Pipeline

variable {trees : Set FileTree} {p : Pipeline} {t : FileTree}

/-- The pipeline without what runs have left. -/
def fresh (p : Pipeline) : Pipeline := { p with cache := {}, graph := none }

/-- A run with a cache that earlier runs have written, whether they succeeded or failed and whatever
was edited between them, gives exactly what a run with an empty cache gives: the same catalog or the
same error, and it keeps the same graph. -/
theorem run_eq_fresh (hu : Unambiguous trees) (hp : Written trees p.cache) (ht : t ∈ trees) :
    (p.run t).1 = (p.fresh.run t).1 ∧ (p.run t).2.graph = (p.fresh.run t).2.graph := by
  cases hfilter : p.config.pathFilter with
  | error e => simp [run, generate, fresh, hfilter]
  | ok filter =>
    obtain ⟨hbuilt, hcatalog⟩ := Snapshot.buildGraph_fresh hu hp ht p.root filter p.config
    simp only [run, generate, fresh, hfilter]
    rcases hx : (Snapshot.ofTree t p.root filter).buildGraph p.config p.cache with ⟨e | g, cache⟩
    all_goals
      rcases hx' : (Snapshot.ofTree t p.root filter).buildGraph p.config {} with ⟨e' | g', cache'⟩
      all_goals rw [hx, hx'] at hbuilt hcatalog
    · cases hbuilt
      exact ⟨rfl, rfl⟩
    · cases hbuilt
    · cases hbuilt
    · cases hbuilt
      cases hvalid : ValidationFailure.ofEntities? g.validate with
      | some failure => simp [hvalid]
      | none => simpa [hvalid, Pipeline.catalog, currentGraph, Except.map] using hcatalog g rfl

/-- The contents of the files of a project of two files: a route and a struct in the one, and a
struct that it holds, with a field to be edited, in the other. -/
def editedFiles (field : String) : List ByteArray :=
  [("package p\ntype C struct\x7bControllerBase\x7d\n// @Method(GET)\n// @Route(/g)\n" ++
      "func (C) G() (A, error) \x7b\x7d\ntype A struct\x7bB B\x7d\n").toUTF8,
   ("package p\ntype B struct\x7b" ++ field ++ " int\x7d\n").toUTF8]

/-- The project of these files. -/
def editedProject (field : String) : FileTree where
  entries := (["p"], .directory) ::
    (["a.go", "b.go"].zip (editedFiles field)).map fun x => (["p", x.1], .file x.2 0)
  workDir := ["p"]

/-- The project has no contents but those of its two files. -/
theorem mem_editedFiles {field : String} {p : PathName} {contents : ByteArray} {modified : Int}
    (h : (editedProject field).fileAt p = .ok (contents, modified)) :
    contents ∈ editedFiles field := by
  obtain ⟨l, -, hentry⟩ := (editedProject field).exists_place_of_fileAt h
  have hin := List.mem_of_find?_eq_some hentry
  rw [editedProject, List.mem_cons] at hin
  rcases hin with hdirectory | hfile
  · cases hdirectory
  · obtain ⟨⟨name, contents'⟩, hzip, heq⟩ := List.mem_map.1 hfile
    cases heq
    exact (List.of_mem_zip hzip).2

/-- The files of the project can be told apart before and after an edit. -/
theorem unambiguous_editedProject : Unambiguous {editedProject "X", editedProject "Y"} where
  contents := by
    have hdigests : ((editedFiles "X" ++ (editedFiles "Y").tail).map fun contents =>
        Digest.hexDigest contents.toList).Nodup := by
      decide +kernel
    have hmem : ∀ t ∈ ({editedProject "X", editedProject "Y"} : Set FileTree),
        ∀ p contents modified, t.fileAt p = .ok (contents, modified) →
          contents ∈ editedFiles "X" ++ (editedFiles "Y").tail := by
      rintro t (rfl | rfl) p contents modified hat
      · exact List.mem_append_left _ (mem_editedFiles hat)
      · -- the first file is not edited
        rcases List.mem_cons.1 (mem_editedFiles hat) with rfl | htail
        · exact List.mem_cons_self
        · exact List.mem_append_right _ htail
    intro t ht t' ht' p p' contents contents' modified modified' hat hat' _ hdigest
    exact List.inj_on_of_nodup_map hdigests (hmem t ht p _ _ hat) (hmem t' ht' p' _ _ hat') hdigest
  fields := by
    rintro t (rfl | rfl)
    · decide +kernel
    · decide +kernel

/-- What a run of the project before the edit leaves. -/
def beforeEdit : Pipeline := (Pipeline.run { root := ⟨"/p"⟩ } (editedProject "X")).2

/-- A run after the edit gives what a run without a cache gives. -/
theorem run_eq_fresh_editedProject :
    (beforeEdit.run (editedProject "Y")).1 = (beforeEdit.fresh.run (editedProject "Y")).1 ∧
      (beforeEdit.run (editedProject "Y")).2.graph =
        (beforeEdit.fresh.run (editedProject "Y")).2.graph := by
  have hwritten : Written {editedProject "X", editedProject "Y"} beforeEdit.cache := by
    unfold beforeEdit
    exact Written.run { root := ⟨"/p"⟩ } (Or.inl rfl) .empty
  exact run_eq_fresh unambiguous_editedProject hwritten (Or.inr rfl)

end Pipeline

end RouteAtlas
