import RouteAtlas.Proofs.Build.Controllers

/-!
# The layout of a built graph

A build adds the routes of a controller one after the other, and everything it does in between
leaves the edges of controllers and routes alone. So when nothing went wrong, the edges that leave
the controllers are the declared routes in their order, each with everything below it
(`laidOut_of_buildGraph`).
-/

set_option autoImplicit false

namespace RouteAtlas

namespace SymbolGraph

variable {touched : NodeIndex → Prop} {g g' : SymbolGraph} {i : NodeIndex}

/-- The edges that leave a controller lead to some routes, one after the other. -/
def LeadsToRoutes (g : SymbolGraph) (i : NodeIndex) (routes : List RouteParts) : Prop :=
  List.Forall₂ (fun e x => g.LeadsToRoute x.1 x.2 e) (g.out i) routes.zipIdx

/-- An edge keeps leading to its route as the graph grows, unless routes are touched. -/
theorem LeadsToRoute.extend {parts : RouteParts} {ordinal : Nat} {e : GraphEdge}
    (h : g.LeadsToRoute parts ordinal e) (hx : Extends touched g g')
    (hroutes : ∀ k r, g.node? k = some (.route r) → ¬touched k) :
    g'.LeadsToRoute parts ordinal e where
  edge := h.edge
  node := hx.node _ _ h.node (by simp)
  leads := h.leads.extend hx (lt_nextIndex h.node) (hroutes _ _ h.node) fun _ =>
    RouteParts.ne_model_of_mem_targets

/-- A controller keeps leading to its routes as the graph grows, unless it or routes are touched. -/
theorem LeadsToRoutes.extend {routes : List RouteParts} (h : g.LeadsToRoutes i routes)
    (hx : Extends touched g g') (hi : i < g.nextIndex) (ht : ¬touched i)
    (hroutes : ∀ k r, g.node? k = some (.route r) → ¬touched k) : g'.LeadsToRoutes i routes := by
  rw [LeadsToRoutes, hx.out i hi ht]
  exact h.imp fun e x he => he.extend hx hroutes

/-- A controller that gets one more route has it behind those it had. -/
theorem LeadsToRoutes.gain {routes : List RouteParts} {parts : RouteParts} {c : ControllerNode}
    (h : g.LeadsToRoutes i routes) (hi : g.node? i = some (.controller c))
    (hg : GainsRoute i routes.length parts g g') : g'.LeadsToRoutes i (routes ++ [parts]) := by
  obtain ⟨e, hout, he⟩ := hg.gained
  have hroutes : ∀ k r, g.node? k = some (.route r) → ¬k = i := by
    rintro k r hk rfl
    simp [hi] at hk
  rw [LeadsToRoutes, hout, List.zipIdx_append]
  refine List.rel_append (h.imp fun e x hold => hold.extend hg.kept hroutes) ?_
  exact .cons (by simpa using he) .nil

/-- Adding a controller touches nothing. -/
theorem extends_addController (g : SymbolGraph) (c : ControllerNode) :
    Extends (fun _ => False) g (g.addController c).1 where
  node := (extends_addNode g (.controller c)).node
  out := fun _ _ _ => rfl
  index := fun _ _ h => h
  controllers := fun _ h => List.mem_append_left _ h
  edges := fun _ h => h

end SymbolGraph

open SymbolGraph

namespace PackageSource

/-- A node is a declared controller, with the routes that it has in its package. -/
structure LaidOut (source : PackageSource Id) (config : Config) (g : SymbolGraph) (i : NodeIndex)
    (c : ControllerDecl) : Prop where
  node : g.node? i = some (.controller c.node)
  routes : ∃ package, (source.package c.id.package).run = .ok package ∧
    g.LeadsToRoutes i ((c.routes package).map (source.routePartsOf config c.node))

/-- A controller that is laid out stays so as the graph grows. -/
theorem LaidOut.extend {source : PackageSource Id} {config : Config} {g g' : SymbolGraph}
    {i : NodeIndex} {c : ControllerDecl} (h : source.LaidOut config g i c)
    (hx : Extends (fun _ => False) g g') : source.LaidOut config g' i c := by
  obtain ⟨hnode, package, hpackage, hroutes⟩ := h
  refine ⟨hx.node i _ hnode (by simp), package, hpackage, ?_⟩
  exact hroutes.extend hx (lt_nextIndex hnode) not_false fun _ _ _ => not_false

end PackageSource

namespace Regime

open Build Expansion BuildState

variable {source : PackageSource Id} {R : Regime source} {config : Config} {expand : Expander}
  (hexpand : ∀ d, R.Known d → R.Keeps config (expand d) fun g => g.Live d.id)

/-- A graph after some routes of a controller have been built: nothing is lost, and the controller
leads to these routes. -/
structure RoutesBuilt (R : Regime source) (config : Config) (i : NodeIndex) (s₀ : BuildState)
    (routes : List RouteParts) (s : BuildState) : Prop where
  sound : R.Sound config s
  kept : Extends (· = i) s₀.graph s.graph
  next : s₀.graph.nextIndex ≤ s.graph.nextIndex
  controllers : s.graph.controllerNodes = s₀.graph.controllerNodes
  leads : s.graph.LeadsToRoutes i routes

include hexpand

/-- Building one more route without a failure adds it behind the others. -/
theorem RoutesBuilt.step {c : ControllerDecl} {package : Package} {r : RouteDecl}
    (hr : r ∈ c.routes package)
    (hknown : ∀ part ∈ r.parts, ∀ d,
      source.Mentions r.file c.id.package part.2.leaves d → R.Known d)
    {i : NodeIndex} {s₀ s : BuildState} {routes : List RouteParts}
    (h : R.RoutesBuilt config i s₀ routes s) (hi : i ∈ s.graph.controllerNodes)
    (hnode : s.graph.node? i = some (.controller c.node))
    (hnone : ((failureOf (buildRoute source config expand c.node i routes.length r)).run s).1 = []) :
    R.RoutesBuilt config i s₀ (routes ++ [source.routePartsOf config c.node r])
      ((failureOf (buildRoute source config expand c.node i routes.length r)).run s).2 := by
  obtain ⟨s', -, hsound, hvisits, ⟨e, -, hrun⟩ | ⟨-, -, g, hrun, hshape, hgains⟩⟩ :=
    buildRoute_cases hexpand hr routes.length hknown h.sound hi
  · simp [hrun] at hnone
  · rw [hrun]
    have hvisited := h.kept.trans hvisits.kept h.next
    have hnext := Nat.le_trans h.next hvisits.next
    have hleads : s'.graph.LeadsToRoutes i routes :=
      h.leads.extend hvisits.kept (lt_nextIndex hnode) not_false fun _ _ _ => not_false
    exact ⟨hsound.of_sameModels hshape hgains.toSameModels,
      (hvisited.trans hgains.kept hnext).mono (by simp), Nat.le_trans hnext hgains.next,
      (hgains.controllers.trans hvisits.noController).trans h.controllers,
      hleads.gain (hvisits.node i _ hnode) hgains⟩

/-- Building the routes of a controller without a failure leads the controller to all of them. -/
theorem routesBuilt_buildRoutes {c : ControllerDecl} {package : Package}
    (hknown : ∀ r ∈ c.routes package, ∀ part ∈ r.parts, ∀ d,
      source.Mentions r.file c.id.package part.2.leaves d → R.Known d)
    {i : NodeIndex} {s : BuildState} (hs : R.Sound config s) (hi : i ∈ s.graph.controllerNodes)
    (hnode : s.graph.node? i = some (.controller c.node)) (hbare : s.graph.out i = [])
    (hnone : ((buildRoutes source config expand c.node i (c.routes package)).run s).1 = []) :
    R.RoutesBuilt config i s ((c.routes package).map (source.routePartsOf config c.node))
      ((buildRoutes source config expand c.node i (c.routes package)).run s).2 := by
  rw [buildRoutes_eq] at hnone ⊢
  -- After some of the routes the controller leads to these and to nothing else, so the next one gets
  -- the ordinal that its place in the list says.
  have hall := collect_induction
    (P := fun done s' => R.RoutesBuilt config i s
      (done.map fun x => source.routePartsOf config c.node x.1) s') ?_ ?_ hnone
  · have hroutes : (c.routes package).zipIdx.map
        (fun x => source.routePartsOf config c.node x.1) =
        (c.routes package).map (source.routePartsOf config c.node) := by
      have hfst := congrArg (List.map (source.routePartsOf config c.node))
        (List.zipIdx_map_fst 0 (c.routes package))
      rwa [List.map_map] at hfst
    rwa [hroutes] at hall
  · rintro done ⟨r, ordinal⟩ rest s' hsplit hdone hnone'
    have hat : (c.routes package).zipIdx[done.length]? = some (r, ordinal) := by simp [hsplit]
    obtain ⟨hr, rfl⟩ : (c.routes package)[done.length]? = some r ∧ done.length = ordinal := by
      simpa using hat
    have hmem := List.mem_of_getElem? hr
    have hstep := RoutesBuilt.step hexpand hmem (hknown r hmem) hdone
      (hdone.controllers ▸ hi) (hdone.kept.node i _ hnode (by simp)) (by simpa using hnone')
    simpa using hstep
  · refine ⟨hs, .refl _, Nat.le_refl _, rfl, ?_⟩
    rw [LeadsToRoutes, hbare]
    exact .nil

/-- A controller that is built stands behind the others, which stay as they are. -/
theorem laidOut_buildController {c : ControllerDecl}
    (hknown : ∀ package, (source.package c.id.package).run = .ok package →
      ∀ r ∈ c.routes package, ∀ part ∈ r.parts, ∀ d,
        source.Mentions r.file c.id.package part.2.leaves d → R.Known d)
    {done : List ControllerDecl} {s : BuildState} (hs : R.Sound config s)
    (hdone : List.Forall₂ (source.LaidOut config s.graph) s.graph.controllerNodes done)
    (hnone : ((buildController source config expand c).run s).1 = []) :
    R.Sound config ((buildController source config expand c).run s).2 ∧
      List.Forall₂ (source.LaidOut config ((buildController source config expand c).run s).2.graph)
        ((buildController source config expand c).run s).2.graph.controllerNodes (done ++ [c]) := by
  rw [run_buildController] at hnone ⊢
  cases hpackage : (source.package c.id.package).run with
  | error e => simp [hpackage] at hnone
  | ok package =>
    rw [hpackage] at hnone
    simp only at hnone ⊢
    obtain ⟨hshape, hsame⟩ := hs.shape.addController (c := c.node) ⟨c, rfl⟩
    have hadded := extends_addController s.graph c.node
    have hnode : (s.graph.addController c.node).1.node? s.graph.nextIndex =
        some (.controller c.node) := by
      show (s.graph.addNode (.controller c.node)).node? s.graph.nextIndex = _
      rw [node?_addNode, if_pos rfl]
    have hbuilt := routesBuilt_buildRoutes hexpand (hknown package hpackage)
      (hs.of_sameModels hshape hsame) (List.mem_append_right _ (List.mem_singleton.2 rfl)) hnode
      hs.shape.out_nextIndex hnone
    have hnext : s.graph.nextIndex ≤ (s.graph.addController c.node).1.nextIndex :=
      Nat.le_of_lt (lt_nextIndex hnode)
    -- Only the new controller was touched, and it is not in the old graph.
    have hkept : Extends (fun _ => False) s.graph _ :=
      (hadded.trans hbuilt.kept hnext).mono (by
        rintro k hk (hf | rfl)
        · exact hf
        · exact Nat.lt_irrefl _ hk)
    refine ⟨hbuilt.sound, ?_⟩
    rw [hbuilt.controllers]
    refine List.rel_append (hdone.imp fun i c' h => h.extend hkept) (.cons ?_ .nil)
    exact ⟨hbuilt.kept.node _ _ hnode (by simp), package, hpackage, hbuilt.leads⟩

omit hexpand

variable {depth : Nat} {files : List SourceFile} {cache : MetadataCache}

/-- In a graph that was built without a failure, the controllers are laid out as they are declared,
in the order of their identities. -/
theorem laidOut_of_buildGraph (hR : R.Lawful) (hroots : R.Roots config files)
    (hleft : ∀ id e, cache.get? id = some e → R.Left e) {g : SymbolGraph}
    (hg : (buildGraph source depth config files cache).1 = .ok g) :
    List.Forall₂ (source.LaidOut config g) g.controllerNodes
      (config.controllersIn source.importPathOf files) := by
  rw [buildGraph_eq] at hg
  simp only at hg
  split at hg
  · rename_i hnone
    cases hg
    rw [outcome, buildControllers_eq] at hnone ⊢
    refine (collect_induction (P := fun done s => R.Sound config s ∧
      List.Forall₂ (source.LaidOut config s.graph) s.graph.controllerNodes done) ?_ ?_ hnone).2
    · rintro done c rest s hsplit ⟨hs, hdone⟩ hnone'
      have hc : c ∈ config.controllersIn source.importPathOf files := by simp [hsplit]
      exact laidOut_buildController (fun d hd => keeps_expandModel hR depth hd) (hroots c hc) hs
        hdone hnone'
    · exact ⟨sound_initial hleft, .nil⟩
  · cases hg

end Regime

end RouteAtlas
