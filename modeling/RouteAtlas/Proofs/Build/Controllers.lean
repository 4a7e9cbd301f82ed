import RouteAtlas.Proofs.Build.Expanding
import RouteAtlas.Proofs.Route.Binding

/-!
# Building controllers and their routes

A build goes on when a route fails, and collects the failures. Whatever happens, the state stays
sound; when there was no failure, every type in every route has been settled, and every model in
the graph is complete (`sound_of_buildGraph`).
-/

set_option autoImplicit false

namespace RouteAtlas

namespace Build

/-- Several steps one after the other, with all that went wrong in them. -/
def collect {α : Type} (f : α → StateM BuildState (List Failure)) (l : List α) :
    StateM BuildState (List Failure) := do
  let failures ← l.mapM f
  return failures.flatten

/-- Programs in a row collect what the first gives and then the rest. -/
theorem run_collect_cons {α : Type} (f : α → StateM BuildState (List Failure)) (a : α)
    (l : List α) (s : BuildState) :
    (collect f (a :: l)).run s =
      (((f a).run s).1 ++ ((collect f l).run ((f a).run s).2).1,
        ((collect f l).run ((f a).run s).2).2) := by
  rw [collect, List.mapM_cons]
  rfl

/-- Steps in which nothing goes wrong, one after the other: what each of them adds to what was done
before has been done by all of them in the end. -/
theorem collect_induction {α : Type} {f : α → StateM BuildState (List Failure)} {l : List α}
    {P : List α → BuildState → Prop}
    (hstep : ∀ done a rest s, l = done ++ a :: rest → P done s → ((f a).run s).1 = [] →
      P (done ++ [a]) ((f a).run s).2)
    {s : BuildState} (hs : P [] s) (hnone : ((collect f l).run s).1 = []) :
    P l ((collect f l).run s).2 := by
  have hrun : ∀ rest done s, l = done ++ rest → P done s →
      ((collect f rest).run s).1 = [] → P l ((collect f rest).run s).2 := by
    intro rest
    induction rest with
    | nil =>
      intro done s hl hdone _
      rw [List.append_nil] at hl
      exact hl ▸ hdone
    | cons a rest ih =>
      intro done s hl hdone hnone
      rw [run_collect_cons] at hnone ⊢
      obtain ⟨hfirst, hrest⟩ := List.append_eq_nil_iff.1 hnone
      have hnext := hstep done a rest s hl hdone hfirst
      exact ih (done ++ [a]) _ (by simp [hl]) hnext hrest
  exact hrun l [] s rfl hs hnone

/-- One thing for each member of a list, whatever its number. -/
theorem flatMap_zipIdx_singleton {α β : Type} (f : α → β) (l : List α) :
    (l.zipIdx.flatMap fun x => [f x.1]) = l.map f := by
  rw [← List.map_eq_flatMap, ← List.zipIdx_map_fst 0 l, List.map_map, List.zipIdx_map_fst]
  rfl

variable (source : PackageSource Id) (config : Config) (expand : Expansion.Expander)

/-- A route is added after its types have been visited. -/
theorem exec_buildRoute (c : ControllerNode) (i : NodeIndex) (ordinal : Nat) (r : RouteDecl)
    (s : BuildState) :
    exec (buildRoute source config expand c i ordinal r) s =
      match exec (Expansion.visitParts source expand r.file c.id.package r.parts) s with
      | (.ok _, s') =>
        (.ok (), { s' with
          graph := s'.graph.withRoute i ordinal (source.routePartsOf config c r) })
      | (.error e, s') =>
        (.error (.within (.controller c.id) (.within (.route r.method.qualifiedName) e)), s') := by
  rw [buildRoute, exec_bind, exec_inScope, exec_inScope, routeParts_eq, exec_map]
  rcases exec (Expansion.visitParts source expand r.file c.id.package r.parts) s with ⟨e | u, s'⟩
  · rfl
  · exact exec_addRoute i ordinal (source.routePartsOf config c r) s'

/-- Routes are built one by one, each with its ordinal. -/
theorem buildRoutes_eq (c : ControllerNode) (i : NodeIndex) (routes : List RouteDecl) :
    buildRoutes source config expand c i routes =
      collect (fun x => failureOf (buildRoute source config expand c i x.2 x.1)) routes.zipIdx :=
  rfl

/-- Controllers are built one by one. -/
theorem buildControllers_eq (controllers : List ControllerDecl) :
    buildControllers source config expand controllers =
      collect (buildController source config expand) controllers := rfl

/-- A controller is added before its routes are built, unless its package is missing. -/
theorem run_buildController (c : ControllerDecl) (s : BuildState) :
    (buildController source config expand c).run s =
      match (source.package c.id.package).run with
      | .error e => ([.within (.controller c.id) e], s)
      | .ok package =>
        (buildRoutes source config expand c.node s.graph.nextIndex (c.routes package)).run
          { s with graph := (s.graph.addController c.node).1 } := by
  rw [buildController]
  cases (source.package c.id.package).run <;> rfl

/-- The failures of a build and the state it leaves. -/
def outcome (depth : Nat) (files : List SourceFile) (cache : MetadataCache) :
    List Failure × BuildState :=
  (buildControllers source config (Expansion.expandModel source depth)
    (config.controllersIn source.importPathOf files)).run { cache := cache }

/-- What a build gives is read off its failures and the state it leaves. -/
theorem buildGraph_eq (depth : Nat) (files : List SourceFile) (cache : MetadataCache) :
    buildGraph source depth config files cache =
      (if (outcome source config depth files cache).1 = [] then
        .ok (outcome source config depth files cache).2.graph
      else .error ⟨(outcome source config depth files cache).1⟩,
      (outcome source config depth files cache).2.cache) := by
  show (if (outcome source config depth files cache).1.isEmpty then _ else _, _) = _
  simp only [List.isEmpty_iff]
  rfl

end Build

namespace PackageSource

variable (source : PackageSource Id)

/-- What a route node leads to is the use of a type that the route has. -/
theorem exists_part_of_mem_values {config : Config} {c : ControllerNode} {r : RouteDecl}
    {v : (SymbolEdge × SymbolNode) × TypeUse}
    (hv : v ∈ (source.routePartsOf config c r).values) :
    ∃ part ∈ r.parts, v.2 = source.useOf r.file c.id.package part.2 := by
  simp only [RouteParts.values, List.mem_append, List.mem_map] at hv
  rcases hv with ⟨p, hp, rfl⟩ | ⟨x, hx, rfl⟩
  · obtain ⟨p', hp', hrebound⟩ := Route.exists_rebound_bindAll hp
    obtain ⟨⟨decl, ordinal⟩, hdecl, rfl⟩ := List.mem_map.1 hp'
    refine ⟨(.parameter (Route.paramName decl ordinal), decl.type), ?_, hrebound.type⟩
    exact List.mem_append_left _ (List.mem_map.2 ⟨_, hdecl, rfl⟩)
  · obtain ⟨⟨decl, ordinal⟩, hdecl, rfl⟩ := List.mem_map.1 hx
    refine ⟨(.result ordinal, decl.type), ?_, rfl⟩
    exact List.mem_append_right _ (List.mem_map.2 ⟨_, hdecl, rfl⟩)

/-- All types of a route are settled in a graph. -/
def RouteSettled (packagePath : String) (g : SymbolGraph) (r : RouteDecl) : Prop :=
  ∀ part ∈ r.parts, ∀ leaf ∈ part.2.leaves, source.Settled r.file packagePath g leaf

/-- What a settled route leads to uses live models only. -/
theorem live_of_routeSettled {config : Config} {c : ControllerNode} {r : RouteDecl}
    {g : SymbolGraph} (h : source.RouteSettled c.id.package g r) :
    ∀ v ∈ (source.routePartsOf config c r).values, ∀ id ∈ v.2.referencedModels, g.Live id := by
  intro v hv id hid
  obtain ⟨part, hpart, heq⟩ := source.exists_part_of_mem_values hv
  rw [heq] at hid
  obtain ⟨d, ⟨hk, leaf, hleaf, hr⟩, rfl⟩ := (source.mem_referencedModels_useOf _ _ _ _).1 hid
  obtain ⟨x, hx, -, hlive⟩ := h part hpart leaf hleaf
  obtain rfl : .declared d = x := by simpa [hr] using hx
  exact hlive d rfl hk

/-- The package of a controller loads, and all types of its routes are settled. -/
def ControllerSettled (g : SymbolGraph) (c : ControllerDecl) : Prop :=
  ∃ package, (source.package c.id.package).run = .ok package ∧
    ∀ r ∈ c.routes package, source.RouteSettled c.id.package g r

end PackageSource

namespace Regime

open Build Expansion BuildState

variable {source : PackageSource Id} {R : Regime source} {config : Config}

/-- A program that keeps states sound and loses nothing, and after which something holds if nothing
went wrong in it. -/
def KeepsAll (R : Regime source) (config : Config) (pre : SymbolGraph → Prop)
    (x : StateM BuildState (List Failure)) (post : SymbolGraph → Prop) : Prop :=
  ∀ s, R.Sound config s → pre s.graph →
    R.Sound config (x.run s).2 ∧ Advances s (x.run s).2 ∧
      ((x.run s).1 = [] → Unharmed s (x.run s).2 ∧ post (x.run s).2.graph)

/-- Several programs one after the other. -/
theorem KeepsAll.collect {α : Type} {pre : SymbolGraph → Prop}
    {f : α → StateM BuildState (List Failure)} {post : α → SymbolGraph → Prop} (l : List α)
    (hf : ∀ a ∈ l, R.KeepsAll config pre (f a) (post a))
    (hpre : ∀ s s', Advances s s' → pre s.graph → pre s'.graph)
    (hstable : ∀ a s s', Advances s s' → post a s.graph → post a s'.graph) :
    R.KeepsAll config pre (Build.collect f l) fun g => ∀ a ∈ l, post a g := by
  induction l with
  | nil => exact fun s hs _ => ⟨hs, .refl s, fun _ => ⟨fun _ _ he _ => he, by simp⟩⟩
  | cons a l ih =>
    intro s hs hp
    obtain ⟨hsound, hadv, hok⟩ := hf a (by simp) s hs hp
    obtain ⟨hsound', hadv', hok'⟩ :=
      ih (fun b hb => hf b (by simp [hb])) _ hsound (hpre s _ hadv hp)
    rw [run_collect_cons]
    refine ⟨hsound', hadv.trans hadv', fun hnone => ?_⟩
    obtain ⟨hfirst, hrest⟩ := List.append_eq_nil_iff.1 hnone
    obtain ⟨hun, hpost⟩ := hok hfirst
    obtain ⟨hun', hpost'⟩ := hok' hrest
    refine ⟨hun.trans hun', fun b hb => ?_⟩
    rcases List.mem_cons.1 hb with rfl | hb
    · exact hstable b _ _ hadv' hpost
    · exact hpost' b hb

section Builds

variable {expand : Expander}
  (hexpand : ∀ d, R.Known d → R.Keeps config (expand d) fun g => g.Live d.id)

include hexpand

/-- What building a route does to a sound state: its types are visited, and after that the route is
added, unless a visit failed. -/
theorem buildRoute_cases {c : ControllerDecl} {package : Package} {r : RouteDecl}
    (hr : r ∈ c.routes package) {i : NodeIndex} (ordinal : Nat)
    (hknown : ∀ part ∈ r.parts, ∀ d,
      source.Mentions r.file c.id.package part.2.leaves d → R.Known d)
    {s : BuildState} (hs : R.Sound config s) (hi : i ∈ s.graph.controllerNodes) :
    ∃ s', s' = (exec (visitParts source expand r.file c.id.package r.parts) s).2 ∧
      R.Sound config s' ∧ Visits s s' ∧
      ((∃ e, (exec (visitParts source expand r.file c.id.package r.parts) s).1 = .error e ∧
        (failureOf (buildRoute source config expand c.node i ordinal r)).run s =
          ([.within (.controller c.id) (.within (.route r.method.qualifiedName) e)], s')) ∨
        Unharmed s s' ∧ source.RouteSettled c.id.package s'.graph r ∧ ∃ g,
          (failureOf (buildRoute source config expand c.node i ordinal r)).run s =
            ([], { s' with graph := g }) ∧
          g.WellShaped (R.contents config) ∧
          SymbolGraph.GainsRoute i ordinal (source.routePartsOf config c.node r) s'.graph g) := by
  obtain ⟨hsound, hvisits, hok⟩ := keeps_visitParts hexpand hknown s hs
  have hid : c.node.id = c.id := rfl
  rw [run_failureOf, exec_buildRoute, hid]
  rcases hx : exec (visitParts source expand r.file c.id.package r.parts) s with ⟨e | u, s'⟩
  · rw [hx] at hsound hvisits
    exact ⟨s', rfl, hsound, hvisits, .inl ⟨e, rfl, rfl⟩⟩
  · rw [hx] at hsound hvisits hok
    obtain ⟨hun, hsettled⟩ := hok rfl
    have hparts : (R.contents config).Route (source.routePartsOf config c.node r) :=
      ⟨c, package, r, hr, rfl⟩
    obtain ⟨hshape, hgains⟩ := hsound.shape.withRoute (hvisits.controllers i hi) ordinal hparts
      (source.live_of_routeSettled hsettled)
    exact ⟨s', rfl, hsound, hvisits, .inr ⟨hun, hsettled, _, rfl, hshape, hgains⟩⟩

/-- Building a route settles its types. -/
theorem keepsAll_buildRoute {c : ControllerDecl} {package : Package} {r : RouteDecl}
    (hr : r ∈ c.routes package) (i : NodeIndex) (ordinal : Nat)
    (hknown : ∀ part ∈ r.parts, ∀ d,
      source.Mentions r.file c.id.package part.2.leaves d → R.Known d) :
    R.KeepsAll config (i ∈ ·.controllerNodes)
      (failureOf (buildRoute source config expand c.node i ordinal r))
      fun g => source.RouteSettled c.id.package g r := by
  intro s hs hi
  obtain ⟨s', -, hsound, hvisits, ⟨e, -, hrun⟩ | ⟨hun, hsettled, g, hrun, hshape, hgains⟩⟩ :=
    buildRoute_cases hexpand hr ordinal hknown hs hi
  · rw [hrun]
    exact ⟨hsound, hvisits.toAdvances, by simp⟩
  · rw [hrun]
    have hsame := hgains.toSameModels
    have hadv := Advances.of_sameModels hsame fun k hk => hgains.controllers ▸ hk
    refine ⟨hsound.of_sameModels hshape hsame, hvisits.toAdvances.trans hadv, fun _ => ⟨?_, ?_⟩⟩
    · exact hun.trans fun id e he _ => (hsame.entry id).symm.trans he
    · intro part hpart leaf hleaf
      exact hadv.settled (hsettled part hpart leaf hleaf)

/-- Building a controller settles the types of its routes. -/
theorem keepsAll_buildController {c : ControllerDecl}
    (hknown : ∀ package, (source.package c.id.package).run = .ok package →
      ∀ r ∈ c.routes package, ∀ part ∈ r.parts, ∀ d,
        source.Mentions r.file c.id.package part.2.leaves d → R.Known d) :
    R.KeepsAll config (fun _ => True) (buildController source config expand c)
      fun g => source.ControllerSettled g c := by
  intro s hs _
  rw [run_buildController]
  cases hpackage : (source.package c.id.package).run with
  | error e => exact ⟨hs, .refl s, by simp⟩
  | ok package =>
    obtain ⟨hshape, hsame⟩ := hs.shape.addController (c := c.node) ⟨c, rfl⟩
    have hsound := hs.of_sameModels hshape hsame
    have hadv : Advances s { s with graph := (s.graph.addController c.node).1 } :=
      .of_sameModels hsame fun k hk => List.mem_append_left _ hk
    have hroutes : R.KeepsAll config (s.graph.nextIndex ∈ ·.controllerNodes)
        (buildRoutes source config expand c.node s.graph.nextIndex (c.routes package))
        fun g => ∀ x ∈ (c.routes package).zipIdx, source.RouteSettled c.id.package g x.1 := by
      rw [buildRoutes_eq]
      refine KeepsAll.collect _ ?_ (fun s s' h hi => h.controllers _ hi) ?_
      · intro x hx
        have hr := List.fst_mem_of_mem_zipIdx hx
        exact keepsAll_buildRoute hexpand hr _ _ (hknown package hpackage x.1 hr)
      · intro x s s' h hsettled part hpart leaf hleaf
        exact h.settled (hsettled part hpart leaf hleaf)
    obtain ⟨hsound', hadv', hok⟩ :=
      hroutes _ hsound (List.mem_append_right _ (List.mem_singleton.2 rfl))
    refine ⟨hsound', hadv.trans hadv', fun hnone => ?_⟩
    obtain ⟨hun, hsettled⟩ := hok hnone
    refine ⟨Unharmed.trans (fun id e he _ => (hsame.entry id).symm.trans he) hun, package,
      hpackage, ?_⟩
    intro r hr
    obtain ⟨ordinal, hlt, rfl⟩ := List.getElem_of_mem hr
    exact hsettled ((c.routes package)[ordinal], ordinal)
      (List.mk_mem_zipIdx_iff_getElem?.2 (List.getElem?_eq_getElem hlt))

/-- Building controllers keeps states sound and settles each controller about which nothing is
reported. -/
theorem keepsAll_buildControllers {controllers : List ControllerDecl}
    (hknown : ∀ c ∈ controllers, ∀ package, (source.package c.id.package).run = .ok package →
      ∀ r ∈ c.routes package, ∀ part ∈ r.parts, ∀ d,
        source.Mentions r.file c.id.package part.2.leaves d → R.Known d) :
    R.KeepsAll config (fun _ => True) (buildControllers source config expand controllers)
      fun g => ∀ c ∈ controllers, source.ControllerSettled g c := by
  rw [buildControllers_eq]
  refine KeepsAll.collect controllers
    (fun c hc => keepsAll_buildController hexpand (hknown c hc)) (fun _ _ _ h => h) ?_
  rintro c s s' h ⟨package, hpackage, hsettled⟩
  refine ⟨package, hpackage, fun r hr part hpart leaf hleaf => ?_⟩
  exact h.settled (hsettled r hr part hpart leaf hleaf)

end Builds

/-- The state before a build is sound if the cache holds only what may be left in it. -/
theorem sound_initial {cache : MetadataCache} (hleft : ∀ id e, cache.get? id = some e → R.Left e) :
    R.Sound config { cache := cache } where
  shape := SymbolGraph.wellShaped_empty
  current := by simp [SymbolGraph.node?]
  cached := fun id e he => .inl (hleft id e he)

variable {depth : Nat} {files : List SourceFile} {cache : MetadataCache}

/-- The models that the routes of some files mention are known. -/
def Roots (R : Regime source) (config : Config) (files : List SourceFile) : Prop :=
  ∀ c ∈ config.controllersIn source.importPathOf files,
    ∀ package, (source.package c.id.package).run = .ok package →
      ∀ r ∈ c.routes package, ∀ part ∈ r.parts, ∀ d,
        source.Mentions r.file c.id.package part.2.leaves d → R.Known d

/-- Whatever a build leaves in the cache was there before or has been made from a declaration. -/
theorem left_or_produced_of_buildGraph (hR : R.Lawful) (hroots : R.Roots config files)
    (hleft : ∀ id e, cache.get? id = some e → R.Left e) {id : DeclId} {e : CacheEntry}
    (he : (buildGraph source depth config files cache).2.get? id = some e) :
    R.Left e ∨ R.Produced e := by
  rw [buildGraph_eq] at he
  obtain ⟨hsound, -, -⟩ := keepsAll_buildControllers
    (fun d hd => keeps_expandModel hR depth hd) hroots _ (sound_initial hleft) trivial
  rcases hsound.cached id e he with h | ⟨-, h⟩
  · exact .inl h
  · exact .inr h

/-- A build that succeeds leaves a sound state, in which every model is complete and every type in
a route is settled. -/
theorem sound_of_buildGraph (hR : R.Lawful) (hroots : R.Roots config files)
    (hleft : ∀ id e, cache.get? id = some e → R.Left e) {g : SymbolGraph}
    (hg : (buildGraph source depth config files cache).1 = .ok g) :
    R.Sound config ⟨g, (buildGraph source depth config files cache).2⟩ ∧
      (∀ id e, g.modelEntry? id = some e → e.state = .complete) ∧
      ∀ c ∈ config.controllersIn source.importPathOf files, source.ControllerSettled g c := by
  obtain ⟨hsound, hadv, hok⟩ := keepsAll_buildControllers
    (fun d hd => keeps_expandModel hR depth hd) hroots _ (sound_initial hleft) trivial
  rw [buildGraph_eq] at hg ⊢
  simp only at hg ⊢
  split at hg
  · rename_i hnone
    obtain ⟨hun, hsettled⟩ := hok hnone
    cases hg
    refine ⟨hsound, fun id e he => ?_, hsettled⟩
    -- A model that is not complete would have been there before the build.
    cases hstate : e.state with
    | complete => rfl
    | inProgress => exact absurd (hadv.progress id e he hstate) (by simp [SymbolGraph.modelEntry?])
    | failed => exact absurd (hun id e he hstate) (by simp [SymbolGraph.modelEntry?])
  · cases hg

/-- In a sound state whose models are all complete, every model in the graph has metadata, and the
cache does not say otherwise. -/
theorem Sound.exists_metadata {g : SymbolGraph} (h : R.Sound config ⟨g, cache⟩)
    (hcomplete : ∀ id e, g.modelEntry? id = some e → e.state = .complete) {i : NodeIndex}
    {m : ModelNode} (hi : g.node? i = some (.model m)) :
    ∃ metadata, m.metadata = some metadata ∧
      SymbolGraph.currentMetadata? cache m = some metadata := by
  obtain ⟨e, he, rfl⟩ := Option.map_eq_some_iff.1 (h.shape.models i m hi)
  obtain ⟨m', hm', -, hstate⟩ := h.shape.entries m.id e he
  obtain rfl : m' = m := by simpa [hi] using hm'.symm
  have hsome := hstate.1 (hcomplete m'.id e he)
  obtain ⟨metadata, hmetadata⟩ := Option.isSome_iff_exists.1 hsome
  exact ⟨metadata, hmetadata, (h.current e.node m' hi hsome).trans hmetadata⟩

end Regime

end RouteAtlas
