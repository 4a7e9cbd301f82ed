import RouteAtlas.Catalog.OfGraph
import RouteAtlas.Proofs.Build.Closure
import RouteAtlas.Proofs.Pipeline.Runs
import RouteAtlas.Proofs.Validation.Errors

/-!
# The routes of a catalog

A run gives a catalog only if no rule has found an error. What generators rely on follows from
several rules each time, together with what the builder, the binding of parameters and the reading
of directives guarantee.
-/

set_option autoImplicit false

namespace RouteAtlas

/-- What generators rely on about a route. -/
structure CatalogRoute.Reliable (r : CatalogRoute) : Prop where
  verb : r.verb.isSome = true
  bound : ∀ p ∈ r.params, p.location = none ↔ p.isContext = true
  placeholders : ∀ slot ∈ Route.placeholders r.path,
    ∃ p ∈ r.params, p.location = some .path ∧ p.wireName = slot
  inPath : ∀ p ∈ r.params, p.location = some .path → p.wireName ∈ Route.placeholders r.path
  body : (r.params.filter (·.location == some .body)).length ≤ 1
  returns : (∃ err, r.returns = [err] ∧ err.isError = true) ∨
    ∃ value err, r.returns = [value, err] ∧ value.isError = false ∧ err.isError = true
  responses : ∀ response ∈ r.responses,
    ∃ code, response.code = some code ∧ 100 ≤ code ∧ code ≤ 599

/-- No comment that the graph knows about holds a malformed or a repeated directive. -/
structure SymbolGraph.Tidy (g : SymbolGraph) : Prop where
  controllers : ∀ i c, g.node? i = some (.controller c) → ∃ doc, c.directives.Tidy doc
  routes : ∀ i r, g.node? i = some (.route r) → ∃ doc, r.directives.Tidy doc
  models : ∀ i m, g.node? i = some (.model m) → ∃ doc, m.directives.Tidy doc
  fields : ∀ i m, g.node? i = some (.model m) →
    ∀ field ∈ m.fieldDirectives, ∃ doc, field.2.2.Tidy doc

namespace SymbolGraph

/-- A model node is among the models of the graph. -/
theorem mem_modelNodes_of_node {C : Contents} {g : SymbolGraph} (hg : g.WellShaped C)
    {i : NodeIndex} {m : ModelNode} (hi : g.node? i = some (.model m)) :
    (i, m) ∈ g.modelNodes := by
  obtain ⟨e, he, rfl⟩ := Option.map_eq_some_iff.1 (hg.models i m hi)
  rw [modelNodes, Sorting.mem_sorted, List.mem_filterMap]
  refine ⟨e, List.mem_of_find?_eq_some he, ?_⟩
  simp [hi, SymbolNode.model?]

section Valid

variable {source : PackageSource Id} {R : Regime source} {config : Config} {g : SymbolGraph}
  (hg : g.WellShaped (R.contents config))
  (hvalid : ValidationFailure.ofEntities? g.validate = none)

include hg

/-- A route node comes from a declared method, and leads to its parameters and results. -/
theorem exists_decl {i : NodeIndex} {r : RouteNode} (hi : g.node? i = some (.route r)) :
    ∃ (c : ControllerDecl) (decl : RouteDecl),
      (source.routePartsOf config c.node decl).route = r ∧
      g.Leads i (source.routePartsOf config c.node decl).targets ∧
      r.directives = .ofDoc decl.method.doc := by
  obtain ⟨-, parts, ⟨c, package, decl, hdecl, rfl⟩, hroute, hleads⟩ := hg.nodes i _ hi not_false
  obtain ⟨-, -, hdirectives, -⟩ := (c.mem_routes_iff package decl).1 hdecl
  refine ⟨c, decl, hroute, hleads, ?_⟩
  rw [← hroute, ← hdirectives]
  rfl

/-- Every route of the graph belongs to one of its controllers. -/
theorem exists_controller {i : NodeIndex} {r : RouteNode} (hi : g.node? i = some (.route r)) :
    ∃ c ∈ g.controllers, (i, r) ∈ g.routes c.1 := by
  obtain ⟨⟨k, hk, ordinal, hedge⟩, -⟩ := hg.nodes i _ hi not_false
  obtain ⟨c, hc⟩ := hg.controllers k hk
  refine ⟨(k, c), mem_controllers_iff.2 ⟨hk, hc⟩, mem_routes_iff.2 ⟨?_, hi⟩⟩
  exact mem_children_iff.2 ⟨_, (mem_out g).2 ⟨hedge, rfl⟩, rfl⟩

include hvalid

/-- The directives of a route node say all that some comment says. -/
theorem tidy_route {i : NodeIndex} {r : RouteNode} (hi : g.node? i = some (.route r)) :
    ∃ doc, r.directives.Tidy doc := by
  obtain ⟨c, hc, hr⟩ := exists_controller hg hi
  obtain ⟨-, decl, -, -, hdirectives⟩ := exists_decl hg hi
  have hrule : NoErrors (Validation.directiveIssues .route r.directives) :=
    Validation.noErrors_of_findings (Validation.noErrors_route hvalid hc hr)
      (by simp [Validation.routeRules] : Validation.routeDirectives ∈ Validation.routeRules)
  rw [hdirectives] at hrule ⊢
  exact ⟨_, Validation.tidy_of_noErrors hrule⟩

/-- The directives of a controller node say all that some comment says. -/
theorem tidy_controller {i : NodeIndex} {c : ControllerNode}
    (hi : g.node? i = some (.controller c)) : ∃ doc, c.directives.Tidy doc := by
  obtain ⟨⟨decl, rfl⟩, hin⟩ := hg.nodes i _ hi not_false
  have hc : (i, decl.node) ∈ g.controllers := mem_controllers_iff.2 ⟨hin, hi⟩
  have hrule : NoErrors (Validation.directiveIssues .controller decl.node.directives) :=
    Validation.noErrors_of_findings (Validation.noErrors_controller hvalid hc)
      (by simp [Validation.controllerRules] :
        Validation.controllerDirectives ∈ Validation.controllerRules)
  exact ⟨_, Validation.tidy_of_noErrors hrule⟩

/-- The directives of a model and of its fields say all that their comments say. -/
theorem tidy_model {i : NodeIndex} {m : ModelNode} (hi : g.node? i = some (.model m)) :
    (∃ doc, m.directives.Tidy doc) ∧ ∀ field ∈ m.fieldDirectives, ∃ doc, field.2.2.Tidy doc := by
  have hm := Validation.noErrors_model hvalid (mem_modelNodes_of_node hg hi)
  have hmodel : NoErrors (Validation.modelDirectives m) :=
    Validation.noErrors_of_findings hm (by simp [Validation.modelRules])
  have hfields : NoErrors (Validation.fieldDirectives m) :=
    Validation.noErrors_of_findings hm (by simp [Validation.modelRules])
  obtain ⟨⟨d, -, heq, -⟩, -⟩ := hg.nodes i _ hi not_false
  rw [heq] at hmodel hfields ⊢
  refine ⟨⟨_, Validation.tidy_of_noErrors hmodel⟩, fun field hfield => ?_⟩
  have hfield' : NoErrors (Validation.directiveIssues .field field.2.2) :=
    fun x hx => hfields x (List.mem_flatMap.2 ⟨field, hfield, hx⟩)
  simp only [ResolvedDecl.modelNode] at hfield
  cases hs : d.decl.shape with
  | struct fields =>
    rw [hs] at hfield
    obtain ⟨f, -, rfl⟩ := List.mem_map.1 hfield
    exact ⟨_, Validation.tidy_of_noErrors hfield'⟩
  | named e => simp [hs] at hfield
  | synonym e => simp [hs] at hfield
  | interface => simp [hs] at hfield

/-- A graph without errors is tidy. -/
theorem tidy_of_valid : g.Tidy where
  controllers := fun _ _ => tidy_controller hg hvalid
  routes := fun _ _ => tidy_route hg hvalid
  models := fun _ _ hi => (tidy_model hg hvalid hi).1
  fields := fun _ _ hi => (tidy_model hg hvalid hi).2

/-- The parameters of a route are bound to the placeholders of its path, and contexts to nothing. -/
theorem params_of_valid {c : NodeIndex × ControllerNode} (hc : c ∈ g.controllers)
    {r : NodeIndex × RouteNode} (hr : r ∈ g.routes c.1) :
    (∀ x ∈ g.parameters r.1, x.2.location = none ↔ x.2.isContext = true) ∧
    (∀ slot ∈ Route.placeholders r.2.fullPath,
      ∃ x ∈ g.parameters r.1, x.2.location = some .path ∧ x.2.wireName = slot) ∧
    ∀ x ∈ g.parameters r.1, x.2.location = some .path →
      x.2.wireName ∈ Route.placeholders r.2.fullPath := by
  obtain ⟨i, r⟩ := r
  obtain ⟨controller, decl, hroute, hleads, -⟩ := exists_decl hg (mem_routes_iff.1 hr).2
  obtain ⟨hmissing, hnotInRoute⟩ :=
    Validation.linked_of_noErrors (Validation.noErrors_route hvalid hc hr)
  simp only [Validation.routeView, ← hroute] at hmissing hnotInRoute
  -- The parameters in the graph are the ones that were linked.
  have hparams : ∀ p, (∃ j, (j, p) ∈ g.parameters i) ↔
      p ∈ (Route.bindAll decl.directives (source.paramsOf controller.id.package decl)).params :=
    fun p => exists_parameter_iff hleads
  refine ⟨?_, ?_, ?_⟩
  · rintro ⟨j, p⟩ hp
    have hbound := Validation.isContext_or_bound (Validation.noErrors_param hvalid hc hr
      (List.mem_map.2 ⟨(j, p), hp, rfl⟩))
    constructor
    · intro (hnone : p.location = none)
      exact hbound.resolve_right (by simp [hnone])
    · refine Route.location_of_isContext ?_ ((hparams p).1 ⟨j, hp⟩)
      intro q hq
      obtain ⟨_, -, rfl⟩ := List.mem_map.1 hq
      rfl
  · intro slot hslot
    rw [← hroute] at hslot
    obtain ⟨p, hp, hlocation, hname⟩ := Route.exists_param_of_placeholder hmissing hslot
    obtain ⟨j, hj⟩ := (hparams p).2 hp
    exact ⟨(j, p), hj, hlocation, hname⟩
  · rintro ⟨j, p⟩ hp hlocation
    rw [← hroute]
    exact Route.wireName_mem_placeholders hnotInRoute ((hparams p).1 ⟨j, hp⟩) hlocation

/-- When validation passes, every response has a status code. -/
theorem responses_of_valid {c : NodeIndex × ControllerNode} (hc : c ∈ g.controllers)
    {r : NodeIndex × RouteNode} (hr : r ∈ g.routes c.1) :
    ∀ response ∈ r.2.responses, ∃ code, response.code = some code ∧ 100 ≤ code ∧ code ≤ 599 := by
  intro response hresponse
  obtain ⟨controller, decl, hroute, -, -⟩ := exists_decl hg (mem_routes_iff.1 hr).2
  have hresponses : r.2.responses = r.2.directives.responses := by
    rw [← hroute]
    rfl
  rw [hresponses] at hresponse
  obtain ⟨a, ha, hdeclares, hcode⟩ := DirectiveSet.exists_of_mem_responses hresponse
  rw [hcode]
  exact Validation.exists_code (Validation.noErrors_route hvalid hc hr) ha hdeclares

/-- Generators can rely on the routes of a graph without errors. -/
theorem reliable_of_valid {c : NodeIndex × ControllerNode} (hc : c ∈ g.controllers)
    {r : NodeIndex × RouteNode} (hr : r ∈ g.routes c.1) :
    (g.catalogRoute c.2 r).Reliable := by
  have hrules := Validation.noErrors_route hvalid hc hr
  obtain ⟨doc, htidy⟩ := tidy_route hg hvalid (mem_routes_iff.1 hr).2
  obtain ⟨hbound, hslots, hpath⟩ := params_of_valid hg hvalid hc hr
  refine ⟨Validation.isSome_verb hrules htidy.malformed, ?_, ?_, ?_, ?_, ?_,
    responses_of_valid hg hvalid hc hr⟩
  · intro p hp
    obtain ⟨x, hx, rfl⟩ := List.mem_map.1 hp
    exact hbound x hx
  · intro slot hslot
    obtain ⟨x, hx, hlocation, hname⟩ := hslots slot hslot
    exact ⟨_, List.mem_map.2 ⟨x, hx, rfl⟩, hlocation, hname⟩
  · intro p hp hlocation
    obtain ⟨x, hx, rfl⟩ := List.mem_map.1 hp
    exact hpath x hx hlocation
  · have hbody := Validation.length_bodyParams hrules
    simp only [Validation.RouteView.bodyParams, Validation.routeView, List.filter_map,
      List.length_map] at hbody
    simp only [catalogRoute, List.filter_map, List.length_map]
    exact hbody
  · have hreturns := Validation.isReturnSignature_returns hrules
    simp only [Validation.routeView] at hreturns
    simp only [catalogRoute]
    match hlist : g.returns r.1, hreturns with
    | [err], herr => exact .inl ⟨_, rfl, herr⟩
    | [value, err], hboth =>
      obtain ⟨hvalue, herr⟩ := Bool.and_eq_true_iff.1 hboth
      exact .inr ⟨_, _, rfl, by simpa [CatalogReturn.ofNode] using hvalue, herr⟩
    | [], hbad => cases hbad
    | _ :: _ :: _ :: _, hbad => cases hbad

/-- When validation passes, every route has the path its directive gives. -/
theorem path_of_valid {c : NodeIndex × ControllerNode} (hc : c ∈ g.controllers)
    {r : NodeIndex × RouteNode} (hr : r ∈ g.routes c.1) :
    ∃ path, r.2.path = some path ∧ r.2.directives.value? .route = some path := by
  obtain ⟨doc, htidy⟩ := tidy_route hg hvalid (mem_routes_iff.1 hr).2
  obtain ⟨path, hpath⟩ := Option.isSome_iff_exists.1
    (Validation.isSome_path (Validation.noErrors_route hvalid hc hr) htidy.malformed)
  obtain ⟨controller, decl, hroute, -, -⟩ := exists_decl hg (mem_routes_iff.1 hr).2
  have hvalue : r.2.path = r.2.directives.value? .route := by
    rw [← hroute]
    rfl
  exact ⟨path, hpath, hvalue ▸ hpath⟩

end Valid

end SymbolGraph

namespace Pipeline

variable {p : Pipeline} {t : FileTree} {catalog : Catalog} {trees : Set FileTree}

/-- What a run that succeeds guarantees, whatever runs have written the cache. Generators can rely
on every route of the catalog, the node it is made of has a path that its directive gives, and no
comment on a controller, a route, a model or a field of the graph holds a malformed or a repeated
directive. -/
theorem catalog_reliable (hp : Written trees p.cache) (h : (p.run t).1 = .ok catalog) :
    ∃ g, (p.run t).2.graph = some g ∧ g.Tidy ∧
      ∀ c ∈ catalog.controllers, ∀ route ∈ c.routes, route.Reliable ∧
        ∃ controller i node, g.node? i = some (.route node) ∧
          route = g.catalogRoute controller (i, node) ∧
          ∃ path, node.path = some path ∧ node.directives.value? .route = some path := by
  obtain ⟨filter, g, hran⟩ := exists_ran h
  have hg := (hran.sound hp).1.shape
  refine ⟨g, hran.kept, SymbolGraph.tidy_of_valid hg hran.valid, ?_⟩
  rw [hran.made]
  intro c hc route hroute
  obtain ⟨controller, hcontroller, rfl⟩ := List.mem_map.1 hc
  obtain ⟨⟨i, node⟩, hnode, rfl⟩ := List.mem_map.1 hroute
  have hr := (List.mem_filter.1 hnode).1
  refine ⟨SymbolGraph.reliable_of_valid hg hran.valid hcontroller hr, controller.2, i, node,
    (SymbolGraph.mem_routes_iff.1 hr).2, rfl, ?_⟩
  exact SymbolGraph.path_of_valid hg hran.valid hcontroller hr

/-- The route of the small project is one that generators can rely on. -/
theorem catalog_reliable_smallProject :
    ∃ catalog, (Pipeline.run { root := ⟨"/p"⟩ } smallProject).1 = .ok catalog ∧
      catalog.controllers.map (·.routes.length) = [1] ∧
      ∀ c ∈ catalog.controllers, ∀ route ∈ c.routes, route.Reliable := by
  obtain ⟨catalog, hrun, hroutes, -⟩ := exists_catalog_smallProject
  obtain ⟨g, -, -, hreliable⟩ := catalog_reliable (.empty : Written ∅ _) hrun
  exact ⟨catalog, hrun, hroutes, fun c hc route hroute => (hreliable c hc route hroute).1⟩

end Pipeline

end RouteAtlas
