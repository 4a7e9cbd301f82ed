import RouteAtlas.Catalog.OfGraph
import RouteAtlas.Proofs.Build.Regular
import RouteAtlas.Proofs.Directive.Tidy
import RouteAtlas.Proofs.Graph.Children

/-!
# The controllers of a catalog

A catalog lists what the files declare: every controller once, its routes in the order of their
methods, and the parameters and results of a route as they stand in the signature. The order
survives because the edges of a node are numbered; which methods are listed is decided in part by
the build and in part by the catalog.
-/

set_option autoImplicit false

namespace RouteAtlas

/-! ## Which methods are listed -/

namespace DocComment

/-- Whether a line of the comment begins with the mark of directives. -/
def isMarked (doc : DocComment) : Bool := doc.lines.any (·.isMarked)

/-- Whether a line of the comment is a well-formed directive that hides. -/
def hides (doc : DocComment) : Bool :=
  doc.lines.any fun line => line.isMarked &&
    (match line.read with
     | .ok a => a.kind == .hidden
     | .error _ => false)

end DocComment

/-- The methods of a controller that belong into the catalog, with their files. -/
def ControllerDecl.listed (config : Config) (c : ControllerDecl) (package : Package) :
    List (SourceFile × MethodDecl) :=
  package.files.flatMap fun f => (f.methods.filter fun m =>
    m.receiver == c.decl.name && m.isExported && m.doc.isMarked &&
      !(config.excludeHidden && (m.doc.hides || c.decl.doc.hides))).map fun m => (f, m)

namespace DirectiveSet

/-- The set of a comment is annotated if the comment is marked. -/
theorem isAnnotated_ofDoc (doc : DocComment) : (ofDoc doc).isAnnotated = doc.isMarked := by
  rw [Bool.eq_iff_iff, isAnnotated_ofDoc_iff, DocComment.isMarked, List.any_eq_true]
  simp only [isDirectiveLine_eq]

/-- The set of a comment hides what the comment hides. -/
theorem has_hidden_ofDoc (doc : DocComment) : (ofDoc doc).has .hidden = doc.hides := by
  rw [Bool.eq_iff_iff, has_ofDoc_iff, DocComment.hides, List.any_eq_true]
  simp only [isDirectiveLine_eq, Bool.and_eq_true, CommentLine.Says]
  refine exists_congr fun line => and_congr_right fun _ => and_congr_right fun _ => ?_
  cases line.read <;> simp

end DirectiveSet

namespace ControllerDecl

/-- Whether a route of a controller belongs into the catalog. -/
def isShown (config : Config) (c : ControllerDecl) (r : RouteDecl) : Bool :=
  !(config.excludeHidden && (r.directives.has .hidden || c.node.hidden))

/-- The routes that belong into the catalog are the listed methods. -/
theorem map_filter_routes (config : Config) (c : ControllerDecl) (package : Package) :
    ((c.routes package).filter (c.isShown config)).map (fun r => (r.file, r.method)) =
      c.listed config package := by
  have hnode : c.node.hidden = c.decl.doc.hides := DirectiveSet.has_hidden_ofDoc c.decl.doc
  have hempty : ∀ doc : DocComment, doc.isMarked = true → doc.isEmpty = false := by
    rintro ⟨_ | ⟨line, lines⟩⟩ hmarked
    · simp [DocComment.isMarked] at hmarked
    · rfl
  unfold routes listed Package.methodsOf
  simp only [List.filter_flatMap, List.map_flatMap, List.filter_map, List.map_map,
    List.filter_filter, Function.comp_def, isShown, hnode, DirectiveSet.isAnnotated_ofDoc,
    DirectiveSet.has_hidden_ofDoc]
  congr 1
  funext f
  congr 1
  refine List.filter_congr fun m _ => ?_
  cases hmarked : m.doc.isMarked with
  | false => simp
  | true =>
    rw [hempty _ hmarked]
    grind

end ControllerDecl

/-! ## What the catalog shows -/

variable (source : PackageSource Id)

/-- An entry shows a declared parameter at its place. -/
structure CatalogParam.Shows (file : SourceFile) (packagePath : String) (x : ParamDecl × Nat)
    (p : CatalogParam) : Prop where
  ordinal : p.ordinal = x.2
  name : p.name = Route.paramName x.1 x.2
  type : p.type = source.useOf file packagePath x.1.type

/-- An entry shows a declared result at its place. -/
structure CatalogReturn.Shows (file : SourceFile) (packagePath : String) (x : ParamDecl × Nat)
    (r : CatalogReturn) : Prop where
  ordinal : r.ordinal = x.2
  type : r.type = source.useOf file packagePath x.1.type

/-- An entry shows a method with its whole signature. -/
structure CatalogRoute.Shows (packagePath : String) (m : SourceFile × MethodDecl)
    (r : CatalogRoute) : Prop where
  name : r.operationId = m.2.name
  params : List.Forall₂ (CatalogParam.Shows source m.1 packagePath) m.2.params.zipIdx r.params
  returns : List.Forall₂ (CatalogReturn.Shows source m.1 packagePath) m.2.results.zipIdx r.returns

/-- An entry shows a controller with all its listed methods. -/
structure CatalogController.Shows (config : Config) (c : ControllerDecl)
    (entry : CatalogController) : Prop where
  name : entry.name = c.id.name
  package : entry.package = c.id.package
  routes : ∃ package, (source.package c.id.package).run = .ok package ∧
    List.Forall₂ (CatalogRoute.Shows source c.id.package) (c.listed config package) entry.routes

variable {source}

/-- The parameters and the results of a route are numbered from nothing on. -/
structure RouteParts.Numbered (parts : RouteParts) : Prop where
  params : parts.params.map (·.ordinal) = List.range parts.params.length
  returns : parts.returns.map (·.ordinal) = List.range parts.returns.length

/-- What is numbered from zero on is in order of its numbers. -/
theorem pairwise_of_map_eq_range {α : Type} {key : α → Nat} {l : List α} {n : Nat}
    (h : l.map key = List.range n) : l.Pairwise fun a b => key a < key b := by
  rw [← List.pairwise_map, h]
  exact List.pairwise_lt_range

namespace SymbolGraph

variable {g : SymbolGraph} {i : NodeIndex} {parts : RouteParts}

/-- The parameters below a route are those of its declaration, in order. -/
theorem map_snd_parameters (h : g.Leads i parts.targets) (hn : parts.Numbered) :
    (g.parameters i).map (·.2) = parts.params := by
  rw [parameters, map_snd_childrenOf h]
  · simp [RouteParts.targets, List.filterMap_append, List.filterMap_map, SymbolNode.parameter?]
  · have hgrow := pairwise_of_map_eq_range hn.params
    simpa [RouteParts.targets, List.filter_append, List.filter_map, Function.comp_def,
      SymbolNode.parameter?, List.pairwise_map, SymbolEdge.ordinal] using hgrow

/-- The results below a route are those of its declaration, in order. -/
theorem map_snd_returns (h : g.Leads i parts.targets) (hn : parts.Numbered) :
    (g.returns i).map (·.2) = parts.returns := by
  rw [returns, map_snd_childrenOf h]
  · simp [RouteParts.targets, List.filterMap_append, List.filterMap_map, SymbolNode.result?]
  · have hgrow := pairwise_of_map_eq_range hn.returns
    simpa [RouteParts.targets, List.filter_append, List.filter_map, Function.comp_def,
      SymbolNode.result?, List.pairwise_map, SymbolEdge.ordinal] using hgrow

/-- The routes of a controller come out as they were added. -/
theorem LeadsToRoutes.routes {routes : List RouteParts} (h : g.LeadsToRoutes i routes) :
    List.Forall₂ (fun x parts => x.2 = parts.route ∧ g.Leads x.1 parts.targets)
      (g.routes i) routes := by
  have hordinals : (g.out i).map (·.edge.ordinal) = List.range routes.length := by
    have hnumbers := List.Forall₂.map_eq h fun e x (he : g.LeadsToRoute x.1 x.2 e) =>
      congrArg SymbolEdge.ordinal he.edge
    rw [hnumbers, List.range_eq_range', ← List.zipIdx_map_snd 0]
    rfl
  have hgrow := (pairwise_of_map_eq_range hordinals).filter
    fun e => ((g.node? e.target).bind SymbolNode.route?).isSome
  -- The edges are in the order of their ordinals already, so sorting them changes nothing.
  rw [SymbolGraph.routes, childrenOf_eq hgrow]
  have hroutes : routes = routes.zipIdx.map Prod.fst := (List.zipIdx_map_fst 0 routes).symm
  rw [hroutes, List.forall₂_map_right_iff]
  refine List.Forall₂.filterMap_left h fun e x he => ⟨(e.target, x.1.route), ?_, rfl, he.leads⟩
  rw [he.node]
  rfl

end SymbolGraph

namespace PackageSource

variable (source) (config : Config) (c : ControllerNode) (r : RouteDecl)

/-- The parameters of a route show those of its method one by one. -/
theorem shows_params : List.Forall₂ (fun x p =>
    CatalogParam.Shows source r.file c.id.package x (.ofNode p)) r.method.params.zipIdx
    (source.routePartsOf config c r).params := by
  have hrebound := Route.rebound_bindAll r.directives (source.paramsOf c.id.package r)
  rw [paramsOf, List.forall₂_map_left_iff] at hrebound
  exact hrebound.imp fun x p h => ⟨h.ordinal, h.name, h.type⟩

/-- The results of a route show those of its method one by one. -/
theorem shows_returns : List.Forall₂ (fun x p =>
    CatalogReturn.Shows source r.file c.id.package x (.ofNode p)) r.method.results.zipIdx
    (source.routePartsOf config c r).returns := by
  have hreturns : (source.routePartsOf config c r).returns =
      source.returnsOf config c.id.package r := rfl
  rw [hreturns, returnsOf, List.forall₂_map_right_iff, List.forall₂_same]
  exact fun x _ => ⟨rfl, rfl⟩

/-- The parameters and the results of a declared route are numbered from zero on. -/
theorem numbered_routePartsOf : (source.routePartsOf config c r).Numbered := by
  have hparams := source.shows_params config c r
  have hreturns := source.shows_returns config c r
  constructor
  · rw [← hparams.length_eq, List.length_zipIdx, List.range_eq_range', ← List.zipIdx_map_snd 0]
    exact (hparams.map_eq fun x p h => h.ordinal.symm).symm
  · rw [← hreturns.length_eq, List.length_zipIdx, List.range_eq_range', ← List.zipIdx_map_snd 0]
    exact (hreturns.map_eq fun x p h => h.ordinal.symm).symm

end PackageSource

namespace SymbolGraph

variable {config : Config} {g : SymbolGraph} {i : NodeIndex}

/-- The entry of a route shows the method it was made of. -/
theorem shows_catalogRoute {c : ControllerNode} {r : RouteDecl} {x : NodeIndex × RouteNode}
    (hroute : x.2 = (source.routePartsOf config c r).route)
    (hleads : g.Leads x.1 (source.routePartsOf config c r).targets) :
    CatalogRoute.Shows source c.id.package (r.file, r.method) (g.catalogRoute c x) := by
  have hnumbered := source.numbered_routePartsOf config c r
  refine ⟨?_, ?_, ?_⟩
  · rw [catalogRoute, hroute]
    rfl
  · have hparams := source.shows_params config c r
    rw [← map_snd_parameters hleads hnumbered, List.forall₂_map_right_iff] at hparams
    exact List.forall₂_map_right_iff.2 hparams
  · have hreturns := source.shows_returns config c r
    rw [← map_snd_returns hleads hnumbered, List.forall₂_map_right_iff] at hreturns
    exact List.forall₂_map_right_iff.2 hreturns

/-- The entry of a controller shows it with its listed methods. -/
theorem shows_catalogController {c : ControllerDecl} {x : NodeIndex × ControllerNode}
    (hnode : x.2 = c.node) (h : source.LaidOut config g x.1 c) :
    CatalogController.Shows source config c (g.catalogController config x) := by
  obtain ⟨-, package, hpackage, hroutes⟩ := h
  refine ⟨by rw [catalogController, hnode]; rfl, by rw [catalogController, hnode]; rfl, package,
    hpackage, ?_⟩
  have hkept := List.rel_filter (p := fun r => !(config.excludeHidden && (r.2.hidden || x.2.hidden)))
    (q := c.isShown config) ?_ (List.forall₂_map_right_iff.1 hroutes.routes)
  · rw [← c.map_filter_routes config package, List.forall₂_map_left_iff]
    refine List.forall₂_map_right_iff.2 (hkept.flip.imp fun r y hy => ?_)
    rw [hnode]
    exact shows_catalogRoute hy.1 hy.2
  · rintro ⟨k, node⟩ r ⟨hroute, -⟩
    obtain rfl : node = (source.routePartsOf config c.node r).route := hroute
    rw [hnode]
    exact Iff.rfl

/-- The controllers of a graph come out as they were added, if that was in order. -/
theorem controllers_of_laidOut {declared : List ControllerDecl}
    (h : List.Forall₂ (source.LaidOut config g) g.controllerNodes declared)
    (hsorted : declared.Pairwise fun a b => a.id.le b.id = true) :
    List.Forall₂ (fun x c => x.2 = c.node ∧ source.LaidOut config g x.1 c) g.controllers
      declared := by
  have hnodes := h.filterMap_left (S := fun x c => x.2 = c.node ∧ source.LaidOut config g x.1 c)
    (f := fun i => ((g.node? i).bind SymbolNode.controller?).map fun c => (i, c)) ?_
  · rw [controllers, Sorting.sorted_of_pairwise]
    · exact hnodes
    · have hids := hnodes.map_eq fun (x : NodeIndex × ControllerNode) (c : ControllerDecl) hx =>
        (congrArg ControllerNode.id hx.1 : x.2.id = c.id)
      rw [← List.pairwise_map (f := fun x : NodeIndex × ControllerNode => x.2.id) (R := fun a b =>
        a.le b = true), hids, List.pairwise_map]
      exact hsorted
  · intro i c hi
    refine ⟨(i, c.node), ?_, rfl, hi⟩
    rw [hi.node]
    rfl

end SymbolGraph

variable {depth : Nat} {config : Config} {files : List SourceFile} {cache : MetadataCache}
  {g : SymbolGraph}

/-- The catalog of a graph that was built without a failure lists every declared controller once, in
the order of their identities, with the listed methods of each in the order of the files of its
package and of their places in them, and with all parameters and results in the order of the
signature. -/
theorem catalog_complete (hg : (buildGraph source depth config files cache).1 = .ok g)
    (cache' : MetadataCache) :
    ∃ declared : List ControllerDecl,
      declared.Perm (config.declaredControllers source.importPathOf files) ∧
      (declared.Pairwise fun a b => a.id.le b.id = true) ∧
      List.Forall₂ (CatalogController.Shows source config) declared
        (g.catalog config cache').controllers := by
  refine ⟨config.controllersIn source.importPathOf files, Config.perm_controllersIn,
    Config.pairwise_controllersIn, ?_⟩
  have hcontrollers := SymbolGraph.controllers_of_laidOut (laidOut_of_built hg)
    Config.pairwise_controllersIn
  refine List.forall₂_map_right_iff.2 (hcontrollers.flip.imp fun c x hx => ?_)
  exact SymbolGraph.shows_catalogController hx.1 hx.2

/-- The shop without what is hidden: of the two routes of one controller only one is left. -/
theorem catalog_complete_shop :
    ∃ g, (buildGraph Shop.packages 4 { excludeHidden := true } [Shop.orders, Shop.lines] {}).1 =
        .ok g ∧
      ((g.catalog { excludeHidden := true } {}).controllers.map fun c =>
        (c.name, c.routes.map (·.operationId))) = [("Lines", ["List"]), ("Orders", ["Get"])] ∧
      ∃ declared : List ControllerDecl,
        declared.Perm (Config.declaredControllers { excludeHidden := true }
          Shop.packages.importPathOf [Shop.orders, Shop.lines]) ∧
        (declared.Pairwise fun a b => a.id.le b.id = true) ∧
        List.Forall₂ (CatalogController.Shows Shop.packages { excludeHidden := true }) declared
          (g.catalog { excludeHidden := true } {}).controllers := by
  obtain ⟨g, hg, hnames⟩ := exists_eq_ok
    (x := (buildGraph Shop.packages 4 { excludeHidden := true } [Shop.orders, Shop.lines] {}).1)
    (f := fun g => (g.catalog { excludeHidden := true } {}).controllers.map fun c =>
      (c.name, c.routes.map (·.operationId)))
    (b := [("Lines", ["List"]), ("Orders", ["Get"])]) (by decide +kernel)
  exact ⟨g, hg, hnames, catalog_complete hg {}⟩

end RouteAtlas
