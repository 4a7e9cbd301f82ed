import RouteAtlas.Proofs.Build.Success
import RouteAtlas.Proofs.Project.Files

/-!
# Builds are exact

A build with an empty cache succeeds exactly when the packages of the controllers load and all types
that can be reached from the routes refer to something. Then the graph holds one complete model for
each declaration that can be reached, with the metadata read off the declaration, and no other.
-/

set_option autoImplicit false

namespace RouteAtlas

/-- The controllers of a snapshot. -/
def Snapshot.controllers (s : Snapshot) (config : Config) : List ControllerDecl :=
  config.controllersIn s.source.importPathOf s.files

namespace PackageSource

variable {source : PackageSource Id} {controllers : List ControllerDecl} {config : Config}

/-- Two declarations with one identity differ in the way their names came into a file only. -/
theorem Declares.eq_with {d d' : ResolvedDecl} (h : source.Declares d) (h' : source.Declares d')
    (hid : d.id = d'.id) : d' = { d with importKind := d'.importKind } := by
  obtain ⟨hpackage, hfile, hdecl⟩ := h.unique h' hid
  cases d
  cases d'
  simp_all

/-- What the closure holds is declared. -/
theorem InClosure.declares (hs : source.Lawful) {d : ResolvedDecl}
    (h : source.InClosure controllers d) : source.Declares d := by
  obtain ⟨_, _, _, -, hd⟩ := h
  exact (finds_of_resolve hs hd).declares

/-! ## What a build that succeeds has visited -/

section Settled

variable (hs : source.Lawful) {g : SymbolGraph} {cache : MetadataCache}
  (hsound : (source.closureRegime controllers).Sound config ⟨g, cache⟩)

include hs hsound

/-- The model of a declaration whose entry is complete. -/
theorem exists_model_of_complete {d : ResolvedDecl} (hd : source.Declares d) {e : ModelEntry}
    (he : g.modelEntry? d.id = some e) (hcomplete : e.state = .complete) :
    ∃ m metadata, g.node? e.node = some (.model m) ∧ m.id = d.id ∧ m.metadata = some metadata ∧
      source.metadata? d = some metadata ∧
      ∀ part ∈ d.parts, source.Resolves d.file d.package.importPath part.2 := by
  obtain ⟨m, hm, hid, hstate⟩ := hsound.shape.entries d.id e he
  obtain ⟨metadata, hmetadata⟩ := Option.isSome_iff_exists.1 (hstate.1 hcomplete)
  obtain ⟨⟨d', hknown, heq, hfits⟩, -⟩ := hsound.shape.nodes e.node _ hm not_false
  have hid' : d.id = d'.id := by
    rw [← hid, heq]
    rfl
  have hsame := hd.eq_with (hknown.1.declares hs) hid'
  obtain ⟨hfits, hresolves⟩ := hfits metadata hmetadata
  rw [hsame] at hfits hresolves
  exact ⟨m, metadata, hm, hid, hmetadata, hfits, hresolves⟩

variable (hcomplete : ∀ id e, g.modelEntry? id = some e → e.state = .complete)

include hcomplete

/-- The model of a declaration in the closure, if it is in the graph. -/
theorem exists_model {d : ResolvedDecl} (hd : source.InClosure controllers d) {i : NodeIndex}
    (hi : g.modelIndex? d.id = some i) :
    ∃ m metadata, g.node? i = some (.model m) ∧ m.id = d.id ∧ m.metadata = some metadata ∧
      source.metadata? d = some metadata ∧
      ∀ part ∈ d.parts, source.Resolves d.file d.package.importPath part.2 := by
  obtain ⟨e, he, rfl⟩ := Option.map_eq_some_iff.1 hi
  exact exists_model_of_complete hs hsound (hd.declares hs) he (hcomplete d.id e he)

/-- What the metadata of a live model is made from is settled. -/
theorem settled_part {d : ResolvedDecl} (hd : source.InClosure controllers d)
    (hlive : g.Live d.id) {part : TypePart} (hpart : part ∈ d.parts) :
    ∀ leaf ∈ part.2.leaves, source.Settled d.file d.package.importPath g leaf := by
  intro leaf hleaf
  obtain ⟨e, he, -⟩ := hlive
  obtain ⟨m, metadata, hm, -, hmetadata, hread, hresolves⟩ :=
    exists_model hs hsound hcomplete hd (SymbolGraph.modelIndex?_eq he)
  obtain ⟨r, hr, hresolved⟩ := hresolves part hpart leaf hleaf
  refine ⟨r, hr, hresolved, ?_⟩
  rintro d' rfl hk
  -- The use of the type leads to the model.
  have htype : source.useIn d part.2 ∈ metadata.types := by
    rw [source.types_metadata? hread]
    exact List.mem_map.2 ⟨part, hpart, rfl⟩
  have href : d'.id ∈ (source.useIn d part.2).referencedModels :=
    (source.mem_referencedModels_useOf _ _ _ _).2 ⟨d', ⟨hk, leaf, hleaf, hr⟩, rfl⟩
  obtain ⟨j, hj⟩ := hsound.shape.exists_type_of_model hm hmetadata htype
  obtain ⟨k, hk'⟩ := hsound.shape.exists_model_of_type hj href
  obtain ⟨e', he', -⟩ := Option.map_eq_some_iff.1 hk'
  exact ⟨e', he', by simp [hcomplete _ e' he']⟩

/-- Everything that can be reached is settled. -/
theorem settled_of_reached (hroots : ∀ c ∈ controllers, source.ControllerSettled g c)
    {file : SourceFile} {path : String} {e : TypeExpr}
    (h : source.Reached controllers file path e) :
    ∀ leaf ∈ e.leaves, source.Settled file path g leaf := by
  have hmodel : ∀ {file path e} {d : ResolvedDecl}, source.Reached controllers file path e →
      source.resolve file path e = .ok (.declared d) →
      (∀ leaf ∈ e.leaves, source.Settled file path g leaf) → d.kind.isModel = true →
      source.InClosure controllers d ∧ g.Live d.id := by
    intro file path e d he hd hsettled hk
    refine ⟨⟨file, path, e, he, hd⟩, ?_⟩
    have hmem : e ∈ e.leaves := by
      rw [TypeExpr.leaves, base_of_resolve hd]
      exact List.mem_cons_self
    obtain ⟨r, hr, -, hlive⟩ := hsettled e hmem
    exact hlive d (Except.ok.inj (hr.symm.trans hd)) hk
  induction h with
  | @signature c package file m p hc hpackage hm hexported hannotated hp =>
    obtain ⟨package', hpackage', hroutes⟩ := hroots c hc
    obtain rfl : package = package' := Except.ok.inj (hpackage.symm.trans hpackage')
    have hr : (⟨file, m, .ofDoc m.doc⟩ : RouteDecl) ∈ c.routes package :=
      (c.mem_routes_iff package _).2 ⟨hm, hexported, rfl, hannotated⟩
    obtain ⟨part, hpart, heq⟩ :=
      RouteDecl.exists_part (r := ⟨file, m, .ofDoc m.doc⟩) (p := p) hp
    rw [← heq]
    exact hroutes _ hr part hpart
  | pointer _ ih => exact ih
  | slice _ ih => exact ih
  | array _ ih => exact ih
  | chan _ ih => exact ih
  | key _ ih => exact fun leaf hleaf => ih leaf (TypeExpr.mem_leaves_key hleaf)
  | value _ ih => exact fun leaf hleaf => ih leaf (TypeExpr.mem_leaves_value hleaf)
  | @field file path e d fields f he hd hshape hf hwire ih =>
    have hkind : d.kind = .struct := by simp [ResolvedDecl.kind, hshape]
    obtain ⟨hclosure, hlive⟩ := hmodel he hd ih (by simp [hkind, SymbolKind.isModel])
    obtain ⟨part, hpart, heq⟩ :=
      (d.mem_parts_iff f.type).2 (.inl ⟨fields, hshape, f, hf, hwire, rfl⟩)
    rw [← heq]
    exact settled_part hs hsound hcomplete hclosure hlive hpart
  | @underlying file path e d t he hd hkind hshape ih =>
    obtain ⟨hclosure, hlive⟩ := hmodel he hd ih (by simp [hkind, SymbolKind.isModel])
    obtain ⟨part, hpart, heq⟩ := (d.mem_parts_iff t).2 (.inr ⟨hkind, hshape⟩)
    rw [← heq]
    exact settled_part hs hsound hcomplete hclosure hlive hpart

end Settled

end PackageSource

/-! ## The identities of a snapshot -/

namespace Snapshot

variable (s : Snapshot)

/-- All files that a snapshot has read. -/
def allFiles : List SourceFile := s.sources.map (·.2) ++ s.files

/-- The import paths that packages of a snapshot can be known by. -/
def knownPaths : List String :=
  s.allFiles.flatMap (fun f => f.imports.map (·.path)) ++
    s.allFiles.map fun f => s.base.importPathOf f.path

/-- The names that types of a snapshot can have. -/
def knownNames : List String := s.allFiles.flatMap fun f => f.types.map (·.name)

/-- The identities that declarations of a snapshot can have. -/
def knownIds : Finset DeclId :=
  ((s.knownPaths ×ˢ s.knownNames).map fun x => (⟨x.1, x.2⟩ : DeclId)).toFinset

/-- A known path and a known name make a known identity. -/
theorem mem_knownIds {id : DeclId} (hpackage : id.package ∈ s.knownPaths)
    (hname : id.name ∈ s.knownNames) : id ∈ s.knownIds := by
  rw [knownIds, List.mem_toFinset, List.mem_map]
  exact ⟨(id.package, id.name), List.mem_product.2 ⟨hpackage, hname⟩, rfl⟩

/-- There are fewer identities than the bound says. -/
theorem card_knownIds_lt : s.knownIds.card < s.declarationBound := by
  have hcard : s.knownIds.card ≤ s.knownPaths.length * s.knownNames.length := by
    refine Nat.le_trans (List.toFinset_card_le _) ?_
    rw [List.length_map, List.length_product]
  have hpaths : s.knownPaths.length =
      (s.allFiles.flatMap (·.imports)).length + s.allFiles.length := by
    simp [knownPaths, List.length_flatMap]
  have hnames : s.knownNames.length = (s.allFiles.flatMap (·.types)).length := by
    simp [knownNames, List.length_flatMap]
  rw [hpaths, hnames] at hcard
  refine Nat.lt_of_le_of_lt (Nat.le_trans hcard ?_) (Nat.lt_succ_self _)
  exact Nat.mul_le_mul_right _ (Nat.le_succ _)

/-- A file declares and imports what one of the files of the snapshot does. -/
def Covers (f : SourceFile) : Prop :=
  ∃ f' ∈ s.allFiles, f.imports = f'.imports ∧ f.types = f'.types

/-- A snapshot covers the files of its packages. -/
theorem covers_of_mem_files {importPath : String} {package : Package}
    (h : s.package importPath = .ok package) {f : SourceFile} (hf : f ∈ package.files) :
    s.Covers f := by
  rcases of_mem_files h hf with hf | ⟨p, contents, modified, l, -, rfl, hsource⟩
  · exact ⟨f, List.mem_append_right _ hf, rfl, rfl⟩
  · refine ⟨_, List.mem_append_left _ (List.mem_map.2 ⟨_, s.sources_eq ▸ hsource, rfl⟩), ?_⟩
    rw [← renamed_sourceOf (.ofLocation l) p]
    exact ⟨rfl, rfl⟩

variable {s} {file : SourceFile} {path : String} {d : ResolvedDecl}

/-- What is found from a covered file is known and covered in turn. -/
theorem known_of_finds (hfile : s.Covers file) (hpath : path ∈ s.knownPaths)
    (h : s.source.Finds file path d) :
    d.id.package ∈ s.knownPaths ∧ d.id.name ∈ s.knownNames ∧ s.Covers d.file := by
  have hfound := h.declares.found
  obtain ⟨f, hf, hdecl⟩ := List.exists_of_findSome?_eq_some hfound
  obtain ⟨decl, hfind, heq⟩ := Option.map_eq_some_iff.1 hdecl
  simp only [Prod.mk.injEq] at heq
  obtain ⟨rfl, rfl⟩ := heq
  have hcovers := s.covers_of_mem_files h.declares.package hf
  refine ⟨?_, ?_, hcovers⟩
  · rcases h.near with hnear | ⟨i, hi, hnear⟩
    · rwa [hnear]
    · obtain ⟨f', hf', himports, -⟩ := hfile
      rw [hnear]
      refine List.mem_append_left _ (List.mem_flatMap.2 ⟨f', hf', ?_⟩)
      exact List.mem_map.2 ⟨i, himports ▸ hi, rfl⟩
  · obtain ⟨f', hf', -, htypes⟩ := hcovers
    have hname : d.decl.name = d.id.name := by simpa using List.find?_some hfind
    refine List.mem_flatMap.2 ⟨f', hf', ?_⟩
    exact List.mem_map.2 ⟨d.decl, htypes ▸ List.mem_of_find?_eq_some hfind, hname⟩

/-- The methods of a controller stand in covered files of a known package. -/
theorem covers_of_method {config : Config} {c : ControllerDecl} (hc : c ∈ s.controllers config)
    {package : Package} (hpackage : s.package c.id.package = .ok package) {m : MethodDecl}
    (hm : (file, m) ∈ package.methodsOf c.decl.name) :
    s.Covers file ∧ c.id.package ∈ s.knownPaths := by
  simp only [Package.methodsOf, List.mem_flatMap, List.mem_map] at hm
  obtain ⟨f, hf, _, -, heq⟩ := hm
  obtain rfl : f = file := (Prod.mk.inj heq).1
  refine ⟨s.covers_of_mem_files hpackage hf, ?_⟩
  simp only [controllers, Config.controllersIn, Sorting.mem_sorted, List.mem_flatMap,
    List.mem_map] at hc
  obtain ⟨f', hf', decl, -, rfl⟩ := hc
  exact List.mem_append_right _ (List.mem_map.2 ⟨f', List.mem_append_right _ hf', rfl⟩)

/-- The types that can be reached stand in covered files of known packages. -/
theorem covers_of_reached {config : Config} {e : TypeExpr}
    (h : s.source.Reached (s.controllers config) file path e) :
    s.Covers file ∧ path ∈ s.knownPaths := by
  induction h with
  | signature hc hpackage hm _ _ _ => exact covers_of_method hc hpackage hm
  | pointer _ ih => exact ih
  | slice _ ih => exact ih
  | array _ ih => exact ih
  | chan _ ih => exact ih
  | key _ ih => exact ih
  | value _ ih => exact ih
  | @field file path e d fields f he hd hshape hf hwire ih =>
    have hfinds := PackageSource.finds_of_resolve s.lawful_source hd
    obtain ⟨hpackage, -, hcovers⟩ := known_of_finds ih.1 ih.2 hfinds
    exact ⟨hcovers, hfinds.declares.importPath ▸ hpackage⟩
  | @underlying file path e d t he hd hkind hshape ih =>
    have hfinds := PackageSource.finds_of_resolve s.lawful_source hd
    obtain ⟨hpackage, -, hcovers⟩ := known_of_finds ih.1 ih.2 hfinds
    exact ⟨hcovers, hfinds.declares.importPath ▸ hpackage⟩

/-- The closure holds only known identities. -/
theorem mem_knownIds_of_inClosure {config : Config}
    (h : s.source.InClosure (s.controllers config) d) : d.id ∈ s.knownIds := by
  obtain ⟨file, path, e, he, hd⟩ := h
  obtain ⟨hcovers, hpath⟩ := covers_of_reached he
  obtain ⟨hpackage, hname, -⟩ :=
    known_of_finds hcovers hpath (PackageSource.finds_of_resolve s.lawful_source hd)
  exact s.mem_knownIds hpackage hname

/-- After a build that succeeds the state is sound, every model is complete and every controller is
settled. -/
theorem sound_of_ok {config : Config} {g : SymbolGraph}
    (hg : (s.buildGraph config {}).1 = .ok g) :
    (s.source.closureRegime (s.controllers config)).Sound config
        ⟨g, (s.buildGraph config {}).2⟩ ∧
      (∀ id e, g.modelEntry? id = some e → e.state = .complete) ∧
      ∀ c ∈ s.controllers config, s.source.ControllerSettled g c :=
  Regime.sound_of_buildGraph PackageSource.lawful_closureRegime
    (PackageSource.roots_closureRegime config s.files) (by simp [MetadataCache.get?]) hg

/-- A build that succeeds has settled everything that can be reached. -/
theorem settled_of_ok {config : Config} {g : SymbolGraph}
    (hg : (s.buildGraph config {}).1 = .ok g) {e : TypeExpr}
    (he : s.source.Reached (s.controllers config) file path e) :
    ∀ leaf ∈ e.leaves, s.source.Settled file path g leaf := by
  obtain ⟨hsound, hcomplete, hroots⟩ := sound_of_ok hg
  exact PackageSource.settled_of_reached s.lawful_source hsound hcomplete hroots he

/-- A build that succeeds has completed every model in the closure. -/
theorem exists_entry_of_ok {config : Config} {g : SymbolGraph}
    (hg : (s.buildGraph config {}).1 = .ok g)
    (hd : s.source.InClosure (s.controllers config) d) (hk : d.kind.isModel = true) :
    ∃ i, g.modelEntry? d.id = some ⟨d.id, i, .complete⟩ := by
  obtain ⟨file, path, e, he, hd⟩ := hd
  have hmem : e ∈ e.leaves := by
    rw [TypeExpr.leaves, PackageSource.base_of_resolve hd]
    exact List.mem_cons_self
  obtain ⟨r, hr, -, hlive⟩ := settled_of_ok hg he e hmem
  obtain ⟨⟨id, i, state⟩, hentry, -⟩ := hlive d (Except.ok.inj (hr.symm.trans hd)) hk
  obtain rfl : id = d.id := SymbolGraph.id_of_modelEntry? hentry
  obtain rfl : state = .complete := (sound_of_ok hg).2.1 _ _ hentry
  exact ⟨i, hentry⟩

/-- A build succeeds when nothing is missing. -/
theorem exists_ok {config : Config}
    (hpackages : ∀ c ∈ s.controllers config, ∃ package, s.package c.id.package = .ok package)
    (hresolve : s.source.AllResolve (s.controllers config)) :
    ∃ g, (s.buildGraph config {}).1 = .ok g := by
  have hnone := outcome_eq_nil hresolve (fun d hd => mem_knownIds_of_inClosure hd)
    s.card_knownIds_lt hpackages
  rw [buildGraph, Build.buildGraph_eq, if_pos hnone]
  exact ⟨_, rfl⟩

/-! ## The theorem -/

/-- A build with an empty cache succeeds exactly when the packages of all controllers load and all
types without containers that can be reached refer to something. If it succeeds, the models in the
graph are the declarations of structs, enums and synonyms in the closure: each has one node, its
entry is complete, its metadata is the one read off the declaration, and the types in that depend on
file, package and type expression alone. -/
theorem buildGraph_exact (s : Snapshot) (config : Config) :
    ((∃ g, (s.buildGraph config {}).1 = .ok g) ↔
      (∀ c ∈ s.controllers config, ∃ package, s.package c.id.package = .ok package) ∧
        s.source.AllResolve (s.controllers config)) ∧
    ∀ g, (s.buildGraph config {}).1 = .ok g →
      (∀ id, (∃ i m, g.node? i = some (.model m) ∧ m.id = id) ↔
        ∃ d, s.source.InClosure (s.controllers config) d ∧ d.kind.isModel = true ∧ d.id = id) ∧
      ∀ d, s.source.InClosure (s.controllers config) d → d.kind.isModel = true →
        ∃ i m metadata, g.node? i = some (.model m) ∧ m.id = d.id ∧
          (∀ i' m', g.node? i' = some (.model m') → m'.id = d.id → i' = i) ∧
          g.modelEntry? d.id = some ⟨d.id, i, .complete⟩ ∧
          m.metadata = some metadata ∧ s.source.metadata? d = some metadata ∧
          metadata.types =
            d.parts.map fun part => s.source.useOf d.file d.package.importPath part.2 := by
  refine ⟨⟨?_, ?_⟩, ?_⟩
  · rintro ⟨g, hg⟩
    obtain ⟨-, -, hroots⟩ := sound_of_ok hg
    refine ⟨fun c hc => ?_, fun file path e he hbase => ?_⟩
    · obtain ⟨package, hpackage, -⟩ := hroots c hc
      exact ⟨package, hpackage⟩
    · have hmem : e ∈ e.leaves := by
        rw [TypeExpr.leaves, hbase]
        exact List.mem_cons_self
      obtain ⟨r, hr, hresolved, -⟩ := settled_of_ok hg he e hmem
      exact ⟨r, hr, hresolved⟩
  · rintro ⟨hpackages, hresolve⟩
    exact exists_ok hpackages hresolve
  · intro g hg
    obtain ⟨hsound, hcomplete, -⟩ := sound_of_ok hg
    have hmodel : ∀ d, s.source.InClosure (s.controllers config) d → d.kind.isModel = true →
        ∃ i, g.modelEntry? d.id = some ⟨d.id, i, .complete⟩ :=
      fun d hd hk => exists_entry_of_ok hg hd hk
    refine ⟨fun id => ⟨?_, ?_⟩, fun d hd hk => ?_⟩
    · rintro ⟨i, m, hm, rfl⟩
      obtain ⟨⟨d, hknown, heq, -⟩, -⟩ := hsound.shape.nodes i _ hm not_false
      exact ⟨d, hknown.1, hknown.2, by rw [heq]; rfl⟩
    · rintro ⟨d, hd, hk, rfl⟩
      obtain ⟨i, hi⟩ := hmodel d hd hk
      obtain ⟨m, _, hm, hid, -⟩ := PackageSource.exists_model s.lawful_source hsound hcomplete hd
        (SymbolGraph.modelIndex?_eq hi)
      exact ⟨i, m, hm, hid⟩
    · obtain ⟨i, hi⟩ := hmodel d hd hk
      obtain ⟨m, metadata, hm, hid, hmetadata, hread, -⟩ := PackageSource.exists_model
        s.lawful_source hsound hcomplete hd (SymbolGraph.modelIndex?_eq hi)
      refine ⟨i, m, metadata, hm, hid, fun i' m' hm' hid' => ?_, hi, hmetadata, hread,
        s.source.types_metadata? hread⟩
      have hindex := hsound.shape.models i' m' hm'
      rw [hid', SymbolGraph.modelIndex?_eq hi] at hindex
      simpa using hindex.symm

end Snapshot

end RouteAtlas
