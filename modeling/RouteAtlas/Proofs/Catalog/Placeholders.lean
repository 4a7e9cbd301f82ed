import RouteAtlas.Proofs.Build.RouteFailures
import RouteAtlas.Proofs.Catalog.Controllers
import RouteAtlas.Proofs.Catalog.Routes
import RouteAtlas.Proofs.Route.Deciding

/-!
# Parameters in the path

When a run succeeds, every placeholder has a parameter, and every parameter in the path has a
placeholder. Nothing ensures that there is only one parameter for a placeholder: two directives may
bind different parameters and give them the same name. Whether this is so can be told from the
directives, since the name of a parameter is the one that the directive which decides gives.
-/

set_option autoImplicit false

namespace RouteAtlas

namespace CatalogRoute

/-- The names in requests of the parameters in the path. -/
def pathNames (r : CatalogRoute) : List String :=
  (r.params.filter fun p => p.location == some .path).map (·.wireName)

/-- No two parameters in the path have one name in requests. -/
def BoundOnce (r : CatalogRoute) : Prop :=
  r.params.Pairwise fun p q =>
    p.location = some .path → q.location = some .path → p.wireName ≠ q.wireName

/-- Placeholders are bound once if no two path parameters share a name. -/
theorem boundOnce_iff_nodup (r : CatalogRoute) : r.BoundOnce ↔ r.pathNames.Nodup := by
  rw [pathNames, List.Nodup, List.pairwise_map, List.pairwise_filter]
  simp [BoundOnce]

/-- In a reliable route, parameters in the path have different names if and only if each placeholder
is bound by exactly one parameter. -/
theorem Reliable.boundOnce_iff_count {r : CatalogRoute} (h : r.Reliable) :
    r.BoundOnce ↔ ∀ slot ∈ Route.placeholders r.path, r.pathNames.count slot = 1 := by
  have hmem : ∀ name, name ∈ r.pathNames ↔ name ∈ Route.placeholders r.path := by
    intro name
    simp only [pathNames, List.mem_map, List.mem_filter, beq_iff_eq]
    constructor
    · rintro ⟨p, ⟨hp, hpath⟩, rfl⟩
      exact h.inPath p hp hpath
    · intro hslot
      obtain ⟨p, hp, hpath, hname⟩ := h.placeholders name hslot
      exact ⟨p, ⟨hp, hpath⟩, hname⟩
  rw [r.boundOnce_iff_nodup, List.nodup_iff_count_eq_one]
  exact forall_congr' fun name => by rw [hmem]

end CatalogRoute

/-- The names that the directives of a route give to its parameters in the path. -/
def PackageSource.pathNamesOf (source : PackageSource Id) (packagePath : String) (r : RouteDecl) :
    List String :=
  (source.paramsOf packagePath r).filterMap (Route.pathName? r.directives.locations)

namespace SymbolGraph

variable {source : PackageSource Id} {config : Config} {g : SymbolGraph}

/-- The names of path parameters in a catalog are those that the declaration gives. -/
theorem pathNames_catalogRoute {c : ControllerNode} {r : RouteDecl} {x : NodeIndex × RouteNode}
    (hleads : g.Leads x.1 (source.routePartsOf config c r).targets) :
    (g.catalogRoute c x).pathNames = source.pathNamesOf c.id.package r := by
  have hunbound : ∀ p ∈ source.paramsOf c.id.package r, p.location = none := by
    intro p hp
    obtain ⟨_, -, rfl⟩ := List.mem_map.1 hp
    rfl
  have hparams := map_snd_parameters hleads (source.numbered_routePartsOf config c r)
  have hnames := Route.pathNames_bindAll r.directives hunbound
  have hnodes : (g.catalogRoute c x).params =
      ((g.parameters x.1).map (·.2)).map CatalogParam.ofNode := by
    rw [List.map_map]
    rfl
  rw [CatalogRoute.pathNames, hnodes, hparams, List.filter_map, List.map_map,
    PackageSource.pathNamesOf, ← hnames]
  rfl

/-- A route in the catalog is one of the declared routes. -/
theorem exists_declared {files : List SourceFile} {depth : Nat} {cache : MetadataCache}
    (hg : (buildGraph source depth config files cache).1 = .ok g)
    {c : NodeIndex × ControllerNode} (hc : c ∈ g.controllers) {x : NodeIndex × RouteNode}
    (hx : x ∈ g.routes c.1) :
    ∃ d ∈ config.controllersIn source.importPathOf files, ∃ r, (d, r) ∈ source.routesOf d ∧
      c.2 = d.node ∧ x.2 = (source.routePartsOf config d.node r).route ∧
      g.Leads x.1 (source.routePartsOf config d.node r).targets := by
  obtain ⟨i, node⟩ := c
  obtain ⟨hin, hnode⟩ := mem_controllers_iff.1 hc
  obtain ⟨d, hd, hlaid⟩ := (laidOut_of_built hg).exists_right_of_mem hin
  obtain ⟨hnode', package, hpackage, hroutes⟩ := hlaid
  obtain rfl : node = d.node := by simpa [hnode] using hnode'
  obtain ⟨parts, hparts, hroute, hleads⟩ := hroutes.routes.exists_right_of_mem hx
  obtain ⟨r, hr, rfl⟩ := List.mem_map.1 hparts
  refine ⟨d, hd, r, ?_, rfl, hroute, hleads⟩
  rw [PackageSource.routesOf, hpackage]
  exact List.mem_map.2 ⟨r, hr, rfl⟩

end SymbolGraph

namespace Pipeline

variable {p : Pipeline} {t : FileTree} {catalog : Catalog}

/-- If a run succeeds, every route of the catalog is a declared one, and the names of its parameters
in the path are those that the deciding directives give. These are different if and only if no two
of the parameters have one name in requests, and if and only if each placeholder is bound by exactly
one of them. -/
theorem boundOnce_iff (h : (p.run t).1 = .ok catalog) :
    ∃ filter, p.config.pathFilter = .ok filter ∧
      let s := Snapshot.ofTree t p.root filter
      ∀ c ∈ catalog.controllers, ∀ route ∈ c.routes, ∃ declared ∈ s.routes p.config,
        declared.1.id = ⟨c.package, c.name⟩ ∧ declared.2.method.name = route.operationId ∧
        route.pathNames = s.source.pathNamesOf c.package declared.2 ∧
        (route.BoundOnce ↔ (s.source.pathNamesOf c.package declared.2).Nodup) ∧
        (route.BoundOnce ↔
          ∀ slot ∈ Route.placeholders route.path, route.pathNames.count slot = 1) := by
  obtain ⟨filter, g, hran⟩ := exists_ran h
  have hg := (sound_of_built hran.built).1.shape
  refine ⟨filter, hran.accepted, ?_⟩
  rw [hran.made]
  intro s c hc route hroute
  obtain ⟨⟨i, controller⟩, hcontroller, rfl⟩ := List.mem_map.1 hc
  obtain ⟨x, hx, rfl⟩ := List.mem_map.1 hroute
  have hr := (List.mem_filter.1 hx).1
  have hreliable := SymbolGraph.reliable_of_valid hg hran.valid hcontroller hr
  obtain ⟨d, hd, r, hmem, hnode, hpart, hleads⟩ :=
    SymbolGraph.exists_declared hran.built hcontroller hr
  obtain rfl : controller = d.node := hnode
  have hnames := SymbolGraph.pathNames_catalogRoute hleads
  refine ⟨(d, r), List.mem_flatMap.2 ⟨d, hd, hmem⟩, rfl, ?_, hnames, ?_,
    hreliable.boundOnce_iff_count⟩
  · rw [SymbolGraph.catalogRoute, hpart]
    rfl
  · rw [CatalogRoute.boundOnce_iff_nodup, hnames]
    rfl

/-! ## A placeholder that is bound twice -/

/-- A project of one file: a route in which two parameters are bound to the only placeholder. -/
def twiceProject : FileTree where
  entries :=
    [(["p"], .directory),
     (["p", "a.go"], .file
      ("package p\ntype C struct\x7b ControllerBase \x7d\n" ++
       "// @Method(GET)\n// @Route(/x/\x7bid\x7d)\n" ++
       "// @Path(a, \x7bname: \"id\"\x7d)\n// @Path(b, \x7bname: \"id\"\x7d)\n" ++
       "func (C) G(a string, b string) error \x7b\x7d\n").toUTF8 0)]
  workDir := ["p"]

/-- The project has a catalog, with a route that binds its placeholder twice. -/
theorem exists_catalog_twiceProject :
    ∃ catalog, (Pipeline.run { root := ⟨"/p"⟩ } twiceProject).1 = .ok catalog ∧
      catalog.controllers.map (fun c => c.routes.map (·.pathNames)) = [[["id", "id"]]] :=
  exists_eq_ok (by decide +kernel)

/-- The names of the path parameters decide about the catalog of a project. -/
theorem boundOnce_iff_twiceProject :
    ∃ catalog, (Pipeline.run { root := ⟨"/p"⟩ } twiceProject).1 = .ok catalog ∧
      ∀ c ∈ catalog.controllers, ∀ route ∈ c.routes,
        (route.BoundOnce ↔
          ∀ slot ∈ Route.placeholders route.path, route.pathNames.count slot = 1) := by
  obtain ⟨catalog, hrun, -⟩ := exists_catalog_twiceProject
  obtain ⟨filter, -, hroutes⟩ := boundOnce_iff hrun
  refine ⟨catalog, hrun, fun c hc route hroute => ?_⟩
  obtain ⟨_, -, -, -, -, -, honce⟩ := hroutes c hc route hroute
  exact honce

/-- A run succeeds though two parameters in the path of a route have one name in requests. -/
theorem placeholder_boundTwice :
    ∃ catalog, (Pipeline.run { root := ⟨"/p"⟩ } twiceProject).1 = .ok catalog ∧
      ∃ c ∈ catalog.controllers, ∃ route ∈ c.routes, ¬ route.BoundOnce := by
  obtain ⟨catalog, hrun, hnames⟩ := exists_catalog_twiceProject
  have hmem : [["id", "id"]] ∈ catalog.controllers.map (fun c => c.routes.map (·.pathNames)) := by
    simp [hnames]
  obtain ⟨c, hc, hroutes⟩ := List.mem_map.1 hmem
  have hmem' : ["id", "id"] ∈ c.routes.map (·.pathNames) := by simp [hroutes]
  obtain ⟨route, hroute, htwice⟩ := List.mem_map.1 hmem'
  refine ⟨catalog, hrun, c, hc, route, hroute, ?_⟩
  rw [CatalogRoute.boundOnce_iff_nodup, htwice]
  decide

end Pipeline

end RouteAtlas
