import RouteAtlas.Proofs.Build.Broken
import RouteAtlas.Proofs.Pairing

/-!
# Which routes are reported

A build goes on when a route fails and notes the failure. A route is reported only if it fails on
its own as well. The converse needs a condition: a broken model that refers to itself may have been
completed on the way to the failure of another route, and then nothing is said about a route that
leads to it. Whatever is broken, some route is reported.
-/

set_option autoImplicit false

namespace RouteAtlas

open Build Expansion BuildState Relation

namespace PackageSource

variable {source : PackageSource Id}

/-- Some type expressions lead to a broken model that refers to itself. -/
def Entangled (source : PackageSource Id) (file : SourceFile) (packagePath : String)
    (parts : List TypePart) : Prop :=
  ∃ part ∈ parts, ∃ d, source.Mentions file packagePath part.2.leaves d ∧
    ∃ id, ReflTransGen source.RefersTo d.id id ∧ TransGen source.RefersTo id id ∧
      source.Broken id

/-- What is noted about a route: nothing if its types are settled, and a failure in the scopes of
the controller and the route if one of them is refused. -/
inductive Reported (source : PackageSource Id) (g : SymbolGraph) :
    ControllerDecl × RouteDecl → Option Failure → Prop
  | settled {c : ControllerDecl} {r : RouteDecl}
      (h : source.RouteSettled c.id.package g r) : Reported source g (c, r) none
  | refused {c : ControllerDecl} {r : RouteDecl} (cause : Failure)
      (h : source.PartsRefused r.file c.id.package r.parts g) :
      Reported source g (c, r)
        (some (.within (.controller c.id) (.within (.route r.method.qualifiedName) cause)))

/-- The routes of a controller, if its package loads. -/
def routesOf (source : PackageSource Id) (c : ControllerDecl) :
    List (ControllerDecl × RouteDecl) :=
  match (source.package c.id.package).run with
  | .ok package => (c.routes package).map fun r => (c, r)
  | .error _ => []

/-- Failures that are the reports about some routes, in their order. -/
def Reports (source : PackageSource Id) (g : SymbolGraph)
    (routes : List (ControllerDecl × RouteDecl)) (failures : List Failure) : Prop :=
  ∃ reports : List (Option Failure), failures = reports.reduceOption ∧
    List.Forall₂ (source.Reported g) routes reports

/-- What is reported on a route stands in the contexts of its controller and its method. -/
theorem Reported.exists_cause {g : SymbolGraph} {c : ControllerDecl} {r : RouteDecl}
    {report : Option Failure} (h : source.Reported g (c, r) report) :
    ∀ f ∈ report, ∃ cause,
      f = .within (.controller c.id) (.within (.route r.method.qualifiedName) cause) := by
  intro f hf
  cases h with
  | settled h => cases hf
  | refused cause h => exact ⟨cause, (Option.some.inj hf).symm⟩

/-- A report on a route stays right as the build goes on. -/
theorem Reported.advances {s s' : BuildState} {route : ControllerDecl × RouteDecl}
    {report : Option Failure} (h : source.Reported s.graph route report) (hadv : Advances s s') :
    source.Reported s'.graph route report := by
  cases h with
  | settled h => exact .settled fun part hpart leaf hleaf => hadv.settled (h part hpart leaf hleaf)
  | refused cause h => exact .refused cause (h.advances hadv)

/-- Reports on routes stay right as the build goes on. -/
theorem Reports.advances {s s' : BuildState} {routes : List (ControllerDecl × RouteDecl)}
    {failures : List Failure} (h : source.Reports s.graph routes failures)
    (hadv : Advances s s') : source.Reports s'.graph routes failures := by
  obtain ⟨reports, hfailures, hreported⟩ := h
  exact ⟨reports, hfailures, hreported.imp fun _ _ h => h.advances hadv⟩

/-- Reports on two rows of routes are reports on both. -/
theorem Reports.append {g : SymbolGraph} {routes routes' : List (ControllerDecl × RouteDecl)}
    {failures failures' : List Failure} (h : source.Reports g routes failures)
    (h' : source.Reports g routes' failures') :
    source.Reports g (routes ++ routes') (failures ++ failures') := by
  obtain ⟨reports, rfl, hreported⟩ := h
  obtain ⟨reports', rfl, hreported'⟩ := h'
  exact ⟨reports ++ reports', (List.reduceOption_append _ _).symm,
    List.rel_append hreported hreported'⟩

end PackageSource

/-! ## Building routes -/

variable {source : PackageSource Id} {controllers : List ControllerDecl} {config : Config}
  {ids : Finset DeclId} {fuel : Nat}

/-- A state between two routes: no model is being expanded. -/
abbrev Idle (source : PackageSource Id) (controllers : List ControllerDecl) (config : Config)
    (ids : Finset DeclId) (fuel : Nat) (s : BuildState) : Prop :=
  Underway source controllers config ids fuel (fun _ => False) s

/-- Adding a controller leaves the build idle, with the controller among its nodes. -/
theorem Idle.addController {s : BuildState} (h : Idle source controllers config ids fuel s)
    (c : ControllerDecl) :
    Idle source controllers config ids fuel
        { s with graph := (s.graph.addController c.node).1 } ∧
      Advances s { s with graph := (s.graph.addController c.node).1 } ∧
      Unharmed s { s with graph := (s.graph.addController c.node).1 } ∧
      s.graph.nextIndex ∈ (s.graph.addController c.node).1.controllerNodes := by
  obtain ⟨hshape, hsame⟩ := h.sound.shape.addController (c := c.node) ⟨c, rfl⟩
  have hadv : Advances s { s with graph := (s.graph.addController c.node).1 } :=
    .of_sameModels hsame fun k hk => List.mem_append_left _ hk
  refine ⟨h.of_advances hadv (h.sound.of_sameModels hshape hsame) (h.traced.congr hsame.entry),
    hadv, fun id e he _ => (hsame.entry id).symm.trans he, ?_⟩
  exact List.mem_append_right _ (List.mem_singleton.2 rfl)

/-- A program that gives a report about each of some routes. -/
def ReportsOn (source : PackageSource Id) (controllers : List ControllerDecl) (config : Config)
    (ids : Finset DeclId) (fuel : Nat) (pre : SymbolGraph → Prop)
    (x : StateM BuildState (List Failure)) (routes : List (ControllerDecl × RouteDecl)) : Prop :=
  ∀ s, Idle source controllers config ids fuel s → pre s.graph →
    Advances s (x.run s).2 ∧ Idle source controllers config ids fuel (x.run s).2 ∧
      ((x.run s).1 = [] → Unharmed s (x.run s).2) ∧
      source.Reports (x.run s).2.graph routes (x.run s).1

/-- Programs in a row report on their routes in a row. -/
theorem ReportsOn.collect {α : Type} {pre : SymbolGraph → Prop}
    {f : α → StateM BuildState (List Failure)} {routes : α → List (ControllerDecl × RouteDecl)}
    (l : List α)
    (hf : ∀ a ∈ l, ReportsOn source controllers config ids fuel pre (f a) (routes a))
    (hpre : ∀ s s', Advances s s' → pre s.graph → pre s'.graph) :
    ReportsOn source controllers config ids fuel pre (Build.collect f l) (l.flatMap routes) := by
  induction l with
  | nil => exact fun s hs _ => ⟨.refl s, hs, fun _ _ _ he _ => he, [], rfl, .nil⟩
  | cons a l ih =>
    intro s hs hp
    obtain ⟨hadv, hidle, hun, hreports⟩ := hf a (by simp) s hs hp
    obtain ⟨hadv', hidle', hun', hreports'⟩ :=
      ih (fun b hb => hf b (by simp [hb])) _ hidle (hpre s _ hadv hp)
    rw [run_collect_cons, List.flatMap_cons]
    refine ⟨hadv.trans hadv', hidle', fun hnone => ?_, (hreports.advances hadv').append hreports'⟩
    obtain ⟨hfirst, hrest⟩ := List.append_eq_nil_iff.1 hnone
    exact (hun hfirst).trans (hun' hrest)

section Builds

variable {files : List SourceFile} (hs : source.Lawful)
  (hids : ∀ d, source.InClosure (config.controllersIn source.importPathOf files) d → d.id ∈ ids)

include hs hids

/-- Building a route of a declared controller reports on that route. -/
theorem reportsOn_buildRoute {c : ControllerDecl}
    (hc : c ∈ config.controllersIn source.importPathOf files) {package : Package}
    (hpackage : (source.package c.id.package).run = .ok package) {r : RouteDecl}
    (hr : r ∈ c.routes package) (i : NodeIndex) (ordinal : Nat) :
    ReportsOn source (config.controllersIn source.importPathOf files) config ids fuel
      (i ∈ ·.controllerNodes)
      (failureOf (buildRoute source config (expandModel source fuel) c.node i ordinal r))
      [(c, r)] := by
  intro s h hi
  have hknown := PackageSource.roots_closureRegime config files c hc package hpackage r hr
  have htraces : Traces source (config.controllersIn source.importPathOf files) config ids fuel
      (fun _ => False) (visitParts source (expandModel source fuel) r.file c.id.package r.parts)
      (source.PartsRefused r.file c.id.package r.parts) :=
    traces_visitParts fun part hpart d hd =>
      (traces_expandModel hs hids (hknown part hpart d hd)).imp (fun _ hf => hf.elim)
        fun _ hg => hg
  obtain ⟨hadv, hidle, herror⟩ := htraces s h
  obtain ⟨s', hs', hsound, hvisits, ⟨e, he, hrun⟩ | ⟨hun, hsettled, g, hrun, hshape, hgains⟩⟩ :=
    Regime.buildRoute_cases (fun d hd =>
      Regime.keeps_expandModel PackageSource.lawful_closureRegime fuel hd) hr ordinal hknown
      h.sound hi
  · rw [hrun]
    rw [← hs'] at hadv hidle herror
    refine ⟨hadv, hidle, by simp, [some _], rfl, .cons (.refused e (herror e he)) .nil⟩
  · rw [hrun]
    rw [← hs'] at hadv hidle
    have hsame := hgains.toSameModels
    have hadv' := Advances.of_sameModels hsame fun k hk => hgains.controllers ▸ hk
    refine ⟨hadv.trans hadv', hidle.of_advances hadv' (hsound.of_sameModels hshape hsame)
      (hidle.traced.congr hsame.entry), fun _ => ?_, [none], rfl, .cons (.settled ?_) .nil⟩
    · exact hun.trans fun id e he _ => (hsame.entry id).symm.trans he
    · exact fun part hpart leaf hleaf => hadv'.settled (hsettled part hpart leaf hleaf)

/-- Building routes of a declared controller reports on each of them. -/
theorem reportsOn_buildRoutes {c : ControllerDecl}
    (hc : c ∈ config.controllersIn source.importPathOf files) {package : Package}
    (hpackage : (source.package c.id.package).run = .ok package) {routes : List RouteDecl}
    (hroutes : ∀ r ∈ routes, r ∈ c.routes package) (i : NodeIndex) :
    ReportsOn source (config.controllersIn source.importPathOf files) config ids fuel
      (i ∈ ·.controllerNodes)
      (buildRoutes source config (expandModel source fuel) c.node i routes)
      (routes.map fun r => (c, r)) := by
  rw [buildRoutes_eq, ← flatMap_zipIdx_singleton]
  refine ReportsOn.collect _ (fun x hx => ?_) fun s s' hadv hi => hadv.controllers i hi
  exact reportsOn_buildRoute hs hids hc hpackage
    (hroutes x.1 (List.fst_mem_of_mem_zipIdx hx)) i x.2

/-- Building a controller whose package loads reports on its routes. -/
theorem reportsOn_buildController {c : ControllerDecl}
    (hc : c ∈ config.controllersIn source.importPathOf files)
    (hpackage : ∃ package, (source.package c.id.package).run = .ok package) :
    ReportsOn source (config.controllersIn source.importPathOf files) config ids fuel
      (fun _ => True) (buildController source config (expandModel source fuel) c)
      (source.routesOf c) := by
  intro s h _
  obtain ⟨package, hpackage⟩ := hpackage
  obtain ⟨hadded, hadv, hun, hmem⟩ := h.addController c
  obtain ⟨hadv', hidle, hun', hreports⟩ :=
    reportsOn_buildRoutes hs hids hc hpackage (fun r hr => hr) s.graph.nextIndex _ hadded hmem
  rw [run_buildController, PackageSource.routesOf, hpackage]
  exact ⟨hadv.trans hadv', hidle, fun hnone => hun.trans (hun' hnone), hreports⟩

end Builds

/-- A route whose types are settled though one of them is broken leads to a model that was given up
and that refers to itself. -/
theorem Idle.exists_givenUp (hs : source.Lawful) {s : BuildState}
    (h : Idle source controllers config ids fuel s) {c : ControllerDecl} {r : RouteDecl}
    (hsettled : source.RouteSettled c.id.package s.graph r)
    (hbroken : source.PartsBroken r.file c.id.package r.parts) :
    ∃ part ∈ r.parts, ∃ d, source.Mentions r.file c.id.package part.2.leaves d ∧
      ∃ id, ReflTransGen source.RefersTo d.id id ∧ TransGen source.RefersTo id id ∧
        s.graph.GivenUp id := by
  have hdone : ∀ id e, s.graph.modelEntry? id = some e →
      e.state = .complete ∨ s.graph.GivenUp id := by
    intro id e he
    cases hstate : e.state with
    | complete => exact .inl rfl
    | failed => exact .inr ⟨e, he, hstate⟩
    | inProgress => exact (h.pending id e he hstate).elim
  obtain ⟨part, hpart, hresolves | ⟨d, hmentions, hd⟩⟩ := hbroken
  · refine absurd (fun leaf hleaf => ?_) hresolves
    obtain ⟨x, hx, hresolved, -⟩ := hsettled part hpart leaf hleaf
    exact ⟨x, hx, hresolved⟩
  · obtain ⟨hk, leaf, hleaf, hres⟩ := hmentions
    obtain ⟨x, hx, -, hlive⟩ := hsettled part hpart leaf hleaf
    obtain ⟨e, he, hstate⟩ := hlive d (Except.ok.inj (hx.symm.trans hres)) hk
    have hcomplete : e.state = .complete := by
      refine (hdone d.id e he).resolve_right ?_
      rintro ⟨e', he', hfailed⟩
      obtain rfl := Option.some.inj (he.symm.trans he')
      exact hstate hfailed
    have hresolves : ∀ d e, source.Declares d → s.graph.modelEntry? d.id = some e →
        e.state = .complete → ∀ part ∈ d.parts,
          source.Resolves d.file d.package.importPath part.2 := by
      intro d e hd he hcomplete
      obtain ⟨_, _, -, -, -, -, hresolves⟩ :=
        PackageSource.exists_model_of_complete hs h.sound hd he hcomplete
      exact hresolves
    obtain ⟨id, e', hpath, hself, he', hne⟩ :=
      h.traced.exists_recursive hresolves hd he hcomplete
    exact ⟨part, hpart, d, ⟨hk, leaf, hleaf, hres⟩, id, hpath, hself,
      (hdone id e' he').resolve_left hne⟩

/-- A route is reported if and only if one of its types is refused, and then it is broken. If it is
broken and not reported, it leads to a broken model that refers to itself. -/
theorem Idle.reported_iff (hs : source.Lawful) {s : BuildState}
    (h : Idle source controllers config ids fuel s) {c : ControllerDecl} {r : RouteDecl}
    {report : Option Failure} (hreport : source.Reported s.graph (c, r) report) :
    (report.isSome = true ↔ source.PartsBroken r.file c.id.package r.parts ∧
      source.PartsRefused r.file c.id.package r.parts s.graph) ∧
    (¬ source.Entangled r.file c.id.package r.parts →
      (report.isSome = true ↔ source.PartsBroken r.file c.id.package r.parts)) := by
  cases hreport with
  | settled hsettled =>
    have hrefused : ¬ source.PartsRefused r.file c.id.package r.parts s.graph := by
      rintro ⟨part, hpart, leaf, hleaf, hrefused⟩
      exact (hsettled part hpart leaf hleaf).not_refused hrefused
    refine ⟨by simp [hrefused], fun hfree => iff_of_false (by simp) fun hbroken => hfree ?_⟩
    obtain ⟨part, hpart, d, hd, id, hpath, hself, hgivenUp⟩ :=
      h.exists_givenUp hs hsettled hbroken
    exact ⟨part, hpart, d, hd, id, hpath, hself, h.traced.broken id hgivenUp⟩
  | refused cause hrefused =>
    have hbroken := h.traced.partsBroken hrefused
    exact ⟨iff_of_true rfl ⟨hbroken, hrefused⟩, fun _ => iff_of_true rfl hbroken⟩

/-- Nothing has been given up if no harm was done since the beginning. -/
theorem not_givenUp_of_unharmed {s : BuildState} (h : Unharmed {} s) (id : DeclId) :
    ¬ s.graph.GivenUp id := by
  rintro ⟨e, he, hfailed⟩
  cases h id e he hfailed

/-! ## The theorem -/

namespace Snapshot

variable (s : Snapshot) (config : Config)

/-- The routes of a snapshot, in the order in which they are built. -/
def routes : List (ControllerDecl × RouteDecl) := (s.controllers config).flatMap s.source.routesOf

/-- What goes wrong in a build with an empty cache. -/
def failures : List Failure :=
  match (s.buildGraph config {}).1 with
  | .ok _ => []
  | .error failure => failure.errors

/-- What goes wrong when of all routes only one is built, with an empty cache. -/
def failuresAlone (c : ControllerDecl) (r : RouteDecl) : List Failure :=
  let (g, i) := ({} : SymbolGraph).addController c.node
  ((buildRoutes s.source config (expandModel s.source s.declarationBound) c.node i [r]).run
    { graph := g }).1

/-- The graph that a build with an empty cache has come to, whether it succeeds or not. -/
def lastGraph : SymbolGraph := (outcome s.source config s.declarationBound s.files {}).2.graph

/-- Before a build, its depth exceeds the number of identities. -/
theorem idle_initial :
    Idle s.source (s.controllers config) config s.knownIds s.declarationBound {} where
  sound := Regime.sound_initial (by simp [MetadataCache.get?])
  traced := by
    refine ⟨fun id hid => ?_, fun id e id' he => ?_⟩
    · obtain ⟨e, he, -⟩ := hid
      cases he
    · cases he
  room := Nat.lt_of_le_of_lt (Finset.card_filter_le _ _) s.card_knownIds_lt
  pending := fun id e he => by cases he

variable {s config}

/-- The failures of a snapshot are those of its build without a cache. -/
theorem failures_eq :
    s.failures config = (outcome s.source config s.declarationBound s.files {}).1 := by
  rw [failures, buildGraph, Build.buildGraph_eq]
  by_cases hnone : (outcome s.source config s.declarationBound s.files {}).1 = []
  · simp [hnone]
  · simp [hnone]

/-- The routes of a snapshot are those of its controllers in packages that load. -/
theorem mem_routes {route : ControllerDecl × RouteDecl} (h : route ∈ s.routes config) :
    route.1 ∈ s.controllers config ∧ ∃ package, s.package route.1.id.package = .ok package ∧
      route.2 ∈ route.1.routes package := by
  obtain ⟨c, hc, hroute⟩ := List.mem_flatMap.1 h
  rw [PackageSource.routesOf] at hroute
  split at hroute
  · rename_i package hpackage
    obtain ⟨r, hr, rfl⟩ := List.mem_map.1 hroute
    exact ⟨hc, package, hpackage, hr⟩
  · cases hroute

/-- A route fails on its own if and only if it is broken. -/
theorem failuresAlone_eq_nil_iff {route : ControllerDecl × RouteDecl}
    (h : route ∈ s.routes config) :
    s.failuresAlone config route.1 route.2 = [] ↔
      ¬ s.source.PartsBroken route.2.file route.1.id.package route.2.parts := by
  obtain ⟨c, r⟩ := route
  obtain ⟨hc, package, hpackage, hr⟩ := mem_routes h
  have hroutes : ∀ r' ∈ [r], r' ∈ c.routes package := by simpa using hr
  obtain ⟨hadded, -, hun, hmem⟩ := (s.idle_initial config).addController c
  obtain ⟨-, hidle, hun', reports, hfailures, hreported⟩ :=
    reportsOn_buildRoutes s.lawful_source (fun d hd => mem_knownIds_of_inClosure hd) hc hpackage
      hroutes _ _ hadded hmem
  have hfailures : s.failuresAlone config c r = reports.reduceOption := hfailures
  obtain ⟨report, _, hreport, hnil, rfl⟩ := List.forall₂_cons_left_iff.1 hreported
  cases List.forall₂_nil_left_iff.1 hnil
  rw [hfailures]
  cases hreport with
  | settled hsettled =>
    refine iff_of_true rfl fun hbroken => ?_
    obtain ⟨_, _, _, _, id, _, _, hgivenUp⟩ :=
      hidle.exists_givenUp s.lawful_source hsettled hbroken
    exact not_givenUp_of_unharmed (hun.trans (hun' hfailures)) id hgivenUp
  | refused cause hrefused =>
    refine iff_of_false (by simp [List.reduceOption]) fun hsound => ?_
    exact hsound (hidle.traced.partsBroken hrefused)

/-- When the packages of the controllers load, the failures of a build report on the routes, and no
model is given up without one. -/
theorem reports_failures
    (hpackages : ∀ c ∈ s.controllers config, ∃ package, s.package c.id.package = .ok package) :
    Idle s.source (s.controllers config) config s.knownIds s.declarationBound
        (outcome s.source config s.declarationBound s.files {}).2 ∧
      (s.failures config = [] → ∀ id, ¬ (s.lastGraph config).GivenUp id) ∧
      s.source.Reports (s.lastGraph config) (s.routes config) (s.failures config) := by
  have hcontrollers : ReportsOn s.source (s.controllers config) config s.knownIds
      s.declarationBound (fun _ => True)
      (collect (buildController s.source config (expandModel s.source s.declarationBound))
        (s.controllers config)) (s.routes config) := by
    refine ReportsOn.collect _ (fun c hc => ?_) fun _ _ _ h => h
    exact reportsOn_buildController s.lawful_source (fun d hd => mem_knownIds_of_inClosure hd) hc
      (hpackages c hc)
  obtain ⟨-, hidle, hun, hreports⟩ := hcontrollers {} (s.idle_initial config) trivial
  rw [failures_eq]
  exact ⟨hidle, fun hnone => not_givenUp_of_unharmed (hun hnone), hreports⟩

/-- If the packages of all controllers load, the failures of a build with an empty cache are reports
about the routes, at most one for each and in their order. A route is reported if and only if it
fails on its own and one of its types refers to nothing or to a model that was given up. For a route
that leads to no broken model that refers to itself, the first is enough. In any case the build
succeeds if and only if no route fails on its own. -/
theorem failures_exact (s : Snapshot) (config : Config)
    (hpackages : ∀ c ∈ s.controllers config, ∃ package, s.package c.id.package = .ok package) :
    (∃ reports : List (Option Failure), s.failures config = reports.reduceOption ∧
      List.Forall₂ (fun route report =>
        (∀ f ∈ report, ∃ cause, f = Failure.within (.controller route.1.id)
          (.within (.route route.2.method.qualifiedName) cause)) ∧
        (report.isSome = true ↔ s.failuresAlone config route.1 route.2 ≠ [] ∧
          s.source.PartsRefused route.2.file route.1.id.package route.2.parts
            (s.lastGraph config)) ∧
        (¬ s.source.Entangled route.2.file route.1.id.package route.2.parts →
          (report.isSome = true ↔ s.failuresAlone config route.1 route.2 ≠ [])))
        (s.routes config) reports) ∧
    (s.failures config = [] ↔
      ∀ route ∈ s.routes config, s.failuresAlone config route.1 route.2 = []) := by
  obtain ⟨hidle, hnone, reports, hfailures, hreported⟩ := reports_failures hpackages
  have hbroken : ∀ route ∈ s.routes config, s.failuresAlone config route.1 route.2 ≠ [] ↔
      s.source.PartsBroken route.2.file route.1.id.package route.2.parts :=
    fun route hroute => (failuresAlone_eq_nil_iff hroute).not.trans not_not
  refine ⟨⟨reports, hfailures, ?_⟩, fun hempty route hroute => ?_, fun hall => ?_⟩
  · refine ((List.forall₂_and_left _ _).2 ⟨hbroken, hreported⟩).imp ?_
    rintro ⟨c, r⟩ report ⟨halone, hreport⟩
    simp only [halone]
    exact ⟨hreport.exists_cause, hidle.reported_iff s.lawful_source hreport⟩
  · obtain ⟨report, hmem, hreport⟩ := hreported.exists_right_of_mem hroute
    rw [failuresAlone_eq_nil_iff hroute]
    intro hpartsBroken
    cases hreport with
    | settled hsettled =>
      obtain ⟨_, _, _, _, id, _, _, hgivenUp⟩ :=
        hidle.exists_givenUp s.lawful_source hsettled hpartsBroken
      exact hnone hempty id hgivenUp
    | refused cause hrefused =>
      rw [hempty] at hfailures
      have hreport := List.reduceOption_mem_iff.2 hmem
      rw [← hfailures] at hreport
      cases hreport
  · rw [hfailures, List.eq_nil_iff_forall_not_mem]
    intro f hf
    obtain ⟨route, hroute, hreport⟩ :=
      hreported.exists_left_of_mem (List.reduceOption_mem_iff.1 hf)
    cases hreport with
    | refused cause hrefused =>
      exact (hbroken _ hroute).2 (hidle.traced.partsBroken hrefused) (hall _ hroute)

/-! ## A failure that is hidden -/

/-- A project of one file: the struct `A` refers to `B` and to a type that is not declared, and `B`
refers to `A`. Each of them is the parameter of a route. -/
def entangledProject : FileTree where
  entries :=
    [(["p"], .directory),
     (["p", "a.go"], .file
      ("package p\ntype C struct\x7b ControllerBase \x7d\n" ++
       "// @Method(POST)\n// @Route(/a)\n// @Body(a)\nfunc (C) A(a A) error \x7b\x7d\n" ++
       "// @Method(POST)\n// @Route(/b)\n// @Body(b)\nfunc (C) B(b B) error \x7b\x7d\n" ++
       "type A struct \x7b B B; X Missing \x7d\ntype B struct \x7b A A \x7d\n").toUTF8 0)]
  workDir := ["p"]

/-- The package of the project loads. Both routes fail on their own, and one of them is reported. -/
theorem exists_table_entangledProject :
    ∃ filter, ({} : Config).pathFilter = .ok filter ∧
      let s := Snapshot.ofTree entangledProject ⟨"/p"⟩ filter
      (∀ c ∈ s.controllers {}, ∃ package, s.package c.id.package = .ok package) ∧
        (s.routes {}).map (fun route => ((s.failuresAlone {} route.1 route.2).isEmpty,
          (s.failures {}).any fun f => f.scopes.take 2 ==
            [.controller route.1.id, .route route.2.method.qualifiedName])) =
          [(false, true), (false, false)] := by
  obtain ⟨filter, hfilter, htable⟩ := exists_eq_ok (x := ({} : Config).pathFilter)
    (f := fun filter =>
      let s := Snapshot.ofTree entangledProject ⟨"/p"⟩ filter
      ((s.controllers {}).all fun c => (s.package c.id.package).toOption.isSome,
        (s.routes {}).map fun route => ((s.failuresAlone {} route.1 route.2).isEmpty,
          (s.failures {}).any fun f => f.scopes.take 2 ==
            [.controller route.1.id, .route route.2.method.qualifiedName])))
    (b := (true, [(false, true), (false, false)])) (by decide +kernel)
  obtain ⟨hpackages, htable⟩ := Prod.mk.inj htable
  refine ⟨filter, hfilter, fun c hc => ?_, htable⟩
  have hloaded := List.all_eq_true.1 hpackages c hc
  cases hpackage : (Snapshot.ofTree entangledProject ⟨"/p"⟩ filter).package c.id.package with
  | error e => simp [hpackage, Except.toOption] at hloaded
  | ok package => exact ⟨package, rfl⟩

/-- In a project with two models that refer to each other only the route that comes first gets a
failure. -/
theorem failures_exact_entangledProject :
    ∃ filter, ({} : Config).pathFilter = .ok filter ∧
      let s := Snapshot.ofTree entangledProject ⟨"/p"⟩ filter
      (∀ c ∈ s.controllers {}, ∃ package, s.package c.id.package = .ok package) ∧
        ∃ reports : List (Option Failure),
          s.failures {} = reports.reduceOption ∧ reports.length = 2 := by
  obtain ⟨filter, hfilter, hpackages, htable⟩ := exists_table_entangledProject
  obtain ⟨⟨reports, hfailures, hreported⟩, -⟩ := failures_exact _ {} hpackages
  have hlength : reports.length = 2 := by
    rw [← hreported.length_eq, ← List.length_map, htable]
    rfl
  exact ⟨filter, hfilter, hpackages, reports, hfailures, hlength⟩

/-- A route fails on its own, but no failure of the build is about it. It leads to `B`, which was
complete when `A` was given up. -/
theorem failure_hidden :
    ∃ filter, ({} : Config).pathFilter = .ok filter ∧
      let s := Snapshot.ofTree entangledProject ⟨"/p"⟩ filter
      (∀ c ∈ s.controllers {}, ∃ package, s.package c.id.package = .ok package) ∧
      ∃ route ∈ s.routes {}, s.failuresAlone {} route.1 route.2 ≠ [] ∧
        ∀ f ∈ s.failures {},
          f.scopes.take 2 ≠ [.controller route.1.id, .route route.2.method.qualifiedName] := by
  obtain ⟨filter, hfilter, hpackages, htable⟩ := exists_table_entangledProject
  have hhidden : (false, false) ∈ [(false, true), (false, false)] := by decide
  rw [← htable] at hhidden
  obtain ⟨route, hroute, heq⟩ := List.mem_map.1 hhidden
  obtain ⟨halone, hreported⟩ := Prod.mk.inj heq
  refine ⟨filter, hfilter, hpackages, route, hroute, ?_, ?_⟩
  · simpa using halone
  · simpa using hreported

end Snapshot

end RouteAtlas
