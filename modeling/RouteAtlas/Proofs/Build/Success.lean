import RouteAtlas.Proofs.Build.Closure
import RouteAtlas.Proofs.Graph.Beginnings

/-!
# When a build succeeds

Every expansion that starts another one has begun a model before, and no model is begun twice. So
expansions nest no deeper than there are identities that declarations can have: `Ready` says that
more fuel is left than there are such identities without a place in the graph. In a state that is
ready nothing can go wrong, as long as all types that can be reached refer to something.
-/

set_option autoImplicit false

namespace RouteAtlas

open Build Expansion BuildState

variable {source : PackageSource Id} {controllers : List ControllerDecl} {config : Config}
  {ids : Finset DeclId} {fuel : Nat}

/-- A state of a build without a cache in which no model was given up, with more fuel than there are
identities whose expansion has not begun. -/
structure Ready (source : PackageSource Id) (controllers : List ControllerDecl) (config : Config)
    (ids : Finset DeclId) (fuel : Nat) (s : BuildState) : Prop where
  sound : (source.closureRegime controllers).Sound config s
  unharmed : ∀ id e, s.graph.modelEntry? id = some e → e.state ≠ .failed
  room : (ids.filter fun id => s.graph.modelEntry? id = none).card < fuel

/-- What has begun stays begun. -/
theorem room_le_of_advances {s s' : BuildState} (h : Advances s s') :
    s'.graph.room ids ≤ s.graph.room ids := by
  refine SymbolGraph.room_le fun id hid => ?_
  obtain ⟨e, he⟩ := Option.isSome_iff_exists.1 hid
  rw [h.entry id e he]
  rfl

/-- Each expansion that begins is one less to come. -/
theorem room_begun_lt {s : BuildState} {d : ResolvedDecl} (hid : d.id ∈ ids)
    (hnew : s.graph.modelEntry? d.id = none) :
    (begun d s).graph.room ids < s.graph.room ids :=
  SymbolGraph.room_beginModel_lt (m := d.modelNode) hid hnew

namespace Ready

/-- What a state leads to without harm is ready again. -/
theorem of_advances {s s' : BuildState} (h : Ready source controllers config ids fuel s)
    (hsound : (source.closureRegime controllers).Sound config s') (hadv : Advances s s')
    (hun : Unharmed s s') : Ready source controllers config ids fuel s' where
  sound := hsound
  unharmed := fun id e he hs => h.unharmed id e (hun id e he hs) hs
  room := Nat.lt_of_le_of_lt (room_le_of_advances hadv) h.room

/-- Less fuel is needed once an expansion has begun. -/
theorem begun {s : BuildState} (h : Ready source controllers config ids (fuel + 1) s)
    {d : ResolvedDecl} (hd : (source.closureRegime controllers).Known d) (hid : d.id ∈ ids)
    (hnew : s.graph.modelEntry? d.id = none) :
    Ready source controllers config ids fuel (begun d s) where
  sound := h.sound.begun hd hnew
  unharmed := by
    intro id e he
    rw [Regime.modelEntry?_begun] at he
    by_cases hne : id = d.id
    · rw [if_pos hne] at he
      cases he
      simp
    · rw [if_neg hne] at he
      exact h.unharmed id e he
  room := Nat.lt_of_lt_of_le (room_begun_lt hid hnew) (Nat.le_of_lt_succ h.room)

end Ready

/-- A program that succeeds from every state that is ready, and leaves one. -/
def Succeeds (source : PackageSource Id) (controllers : List ControllerDecl) (config : Config)
    (ids : Finset DeclId) (fuel : Nat) (x : Build Unit) : Prop :=
  ∀ s, Ready source controllers config ids fuel s →
    (exec x s).1 = .ok () ∧ Ready source controllers config ids fuel (exec x s).2

namespace Succeeds

/-- It is enough that a program succeeds, if it keeps states sound. -/
theorem of_keeps {x : Build Unit} {post : SymbolGraph → Prop}
    (hkeeps : (source.closureRegime controllers).Keeps config x post)
    (h : ∀ s, Ready source controllers config ids fuel s → (exec x s).1 = .ok ()) :
    Succeeds source controllers config ids fuel x := by
  intro s hs
  obtain ⟨hsound, hvisits, hok⟩ := hkeeps s hs.sound
  exact ⟨h s hs, hs.of_advances hsound hvisits.toAdvances (hok (h s hs)).1⟩

/-- The scope of a program does not matter for its success. -/
theorem inScope {x : Build Unit} (scope : Scope)
    (h : Succeeds source controllers config ids fuel x) :
    Succeeds source controllers config ids fuel (Build.inScope scope x) := by
  intro s hs
  obtain ⟨hok, hready⟩ := h s hs
  rw [exec_inScope, hok]
  exact ⟨rfl, hready⟩

/-- Programs in a row succeed if each does. -/
theorem forM {α : Type} {f : α → Build Unit} (l : List α)
    (h : ∀ a ∈ l, Succeeds source controllers config ids fuel (f a)) :
    Succeeds source controllers config ids fuel (l.forM f) := by
  induction l with
  | nil => exact fun s hs => ⟨rfl, hs⟩
  | cons a l ih =>
    intro s hs
    obtain ⟨hok, hready⟩ := h a (by simp) s hs
    rw [exec_forM_cons]
    rcases hx : exec (f a) s with ⟨e | u, s'⟩
    · rw [hx] at hok
      cases hok
    · rw [hx] at hready
      exact ih (fun b hb => h b (by simp [hb])) s' hready

end Succeeds

section Visits

variable (hresolve : source.AllResolve controllers) {expand : Expander}
  (hexpand : ∀ d, (source.closureRegime controllers).Known d →
    Succeeds source controllers config ids fuel (expand d))

include hresolve hexpand

/-- Visits of a type that can be reached succeed. -/
theorem succeeds_visitLeaf {file : SourceFile} {path : String} {leaf : TypeExpr}
    (hleaf : source.Reached controllers file path leaf) (hbase : leaf.base = leaf) :
    Succeeds source controllers config ids fuel (visitLeaf source expand file path leaf) := by
  obtain ⟨e, heq, hnone⟩ | ⟨d, heq, hr, hk⟩ | ⟨r, heq, -⟩ :=
    visitLeaf_cases source expand file path leaf
  · exact absurd (hresolve file path leaf hleaf hbase) hnone
  · rw [heq]
    exact hexpand d ⟨⟨file, path, leaf, hleaf, hr⟩, hk⟩
  · rw [heq]
    exact fun s hs => ⟨rfl, hs⟩

/-- The visit of parts that are reached succeeds if expansions do. -/
theorem succeeds_visitParts {file : SourceFile} {path : String} {parts : List TypePart}
    (hparts : ∀ part ∈ parts, source.Reached controllers file path part.2) :
    Succeeds source controllers config ids fuel
      (visitParts source expand file path parts) := by
  refine Succeeds.forM parts fun part hpart => Succeeds.inScope part.1 ?_
  refine Succeeds.forM part.2.leaves fun leaf hleaf => ?_
  exact succeeds_visitLeaf hresolve hexpand ((hparts part hpart).leaf hleaf)
    (part.2.base_of_mem_leaves hleaf)

end Visits

/-- Expansions succeed as long as there is fuel. -/
theorem succeeds_expandModel (hresolve : source.AllResolve controllers)
    (hids : ∀ d, source.InClosure controllers d → d.id ∈ ids) {d : ResolvedDecl}
    (hd : (source.closureRegime controllers).Known d) :
    Succeeds source controllers config ids fuel (expandModel source fuel d) := by
  induction fuel generalizing d with
  | zero => exact fun s hs => absurd hs.room (Nat.not_lt_zero _)
  | succ fuel ih =>
    refine Succeeds.of_keeps
      (Regime.keeps_expandModel PackageSource.lawful_closureRegime (fuel + 1) hd) fun s hs => ?_
    rw [expandModel]
    cases hentry : s.graph.modelEntry? d.id with
    | some e =>
      rw [exec_expandWith_known source _ d hentry, if_neg (hs.unharmed d.id e hentry)]
    | none =>
      obtain hcached := PackageSource.eq_none_of_usable (hs.sound.usable hentry)
      obtain ⟨m, hm⟩ := source.exists_metadata hd.2
      have hparts : ∀ part ∈ d.parts,
          source.Reached controllers d.file d.package.importPath part.2 :=
        fun part hpart => hd.1.part hpart
      obtain ⟨hok, -⟩ := succeeds_visitParts hresolve (fun d hd => ih hd) hparts (begun d s)
        (hs.begun hd (hids d hd.1) hentry)
      rw [exec_expandWith_new source _ d hentry, hcached]
      simp only [PackageSource.planned?, hm, ResolvedDecl.plan, visitIn]
      rcases hx : exec (visitParts source (expandModel source fuel) d.file d.package.importPath
        d.parts) (begun d s) with ⟨e | u, s'⟩
      · rw [hx] at hok
        cases hok
      · rfl

/-! ## Controllers and routes -/

/-- A program in which nothing goes wrong from a state that is ready. -/
def SucceedsAll (source : PackageSource Id) (controllers : List ControllerDecl) (config : Config)
    (ids : Finset DeclId) (fuel : Nat) (pre : SymbolGraph → Prop)
    (x : StateM BuildState (List Failure)) : Prop :=
  ∀ s, Ready source controllers config ids fuel s → pre s.graph →
    (x.run s).1 = [] ∧ Ready source controllers config ids fuel (x.run s).2

/-- It is enough that nothing goes wrong in a program, if it keeps states sound. -/
theorem SucceedsAll.of_keepsAll {x : StateM BuildState (List Failure)}
    {pre post : SymbolGraph → Prop}
    (hkeeps : (source.closureRegime controllers).KeepsAll config pre x post)
    (h : ∀ s, Ready source controllers config ids fuel s → pre s.graph → (x.run s).1 = []) :
    SucceedsAll source controllers config ids fuel pre x := by
  intro s hs hpre
  obtain ⟨hsound, hadv, hok⟩ := hkeeps s hs.sound hpre
  exact ⟨h s hs hpre, hs.of_advances hsound hadv (hok (h s hs hpre)).1⟩

/-- Programs in a row succeed if each does and what they need lasts. -/
theorem SucceedsAll.collect {α : Type} {pre : SymbolGraph → Prop}
    {f : α → StateM BuildState (List Failure)} (l : List α)
    (hf : ∀ a ∈ l, SucceedsAll source controllers config ids fuel pre (f a))
    (hpre : ∀ a ∈ l, ∀ s, Ready source controllers config ids fuel s → pre s.graph →
      pre ((f a).run s).2.graph) :
    SucceedsAll source controllers config ids fuel pre (Build.collect f l) := by
  induction l with
  | nil => exact fun s hs _ => ⟨rfl, hs⟩
  | cons a l ih =>
    intro s hs hp
    obtain ⟨hnone, hready⟩ := hf a (by simp) s hs hp
    obtain ⟨hnone', hready'⟩ := ih (fun b hb => hf b (by simp [hb]))
      (fun b hb => hpre b (by simp [hb])) _ hready (hpre a (by simp) s hs hp)
    rw [run_collect_cons, hnone, hnone']
    exact ⟨rfl, hready'⟩

section Builds

variable {files : List SourceFile}
  (hresolve : source.AllResolve (config.controllersIn source.importPathOf files))
  (hids : ∀ d, source.InClosure (config.controllersIn source.importPathOf files) d → d.id ∈ ids)

include hresolve hids

/-- The routes of a controller are built. -/
theorem succeedsAll_buildRoutes {c : ControllerDecl}
    (hc : c ∈ config.controllersIn source.importPathOf files) {package : Package}
    (hpackage : (source.package c.id.package).run = .ok package) (i : NodeIndex) :
    SucceedsAll source (config.controllersIn source.importPathOf files) config ids fuel
      (i ∈ ·.controllerNodes)
      (buildRoutes source config (expandModel source fuel) c.node i (c.routes package)) := by
  rw [buildRoutes_eq]
  have hkeeps : ∀ x ∈ (c.routes package).zipIdx, Regime.KeepsAll (source.closureRegime
      (config.controllersIn source.importPathOf files)) config (i ∈ ·.controllerNodes)
      (failureOf (buildRoute source config (expandModel source fuel) c.node i x.2 x.1))
      fun g => source.RouteSettled c.id.package g x.1 := by
    intro x hx
    have hr := List.fst_mem_of_mem_zipIdx hx
    refine Regime.keepsAll_buildRoute (fun d hd =>
      Regime.keeps_expandModel PackageSource.lawful_closureRegime fuel hd) hr i x.2 ?_
    exact PackageSource.roots_closureRegime config files c hc package hpackage x.1 hr
  refine SucceedsAll.collect _ (fun x hx => ?_) fun x hx s hs hi =>
    (hkeeps x hx s hs.sound hi).2.1.controllers i hi
  refine SucceedsAll.of_keepsAll (hkeeps x hx) fun s hs _ => ?_
  have hr := List.fst_mem_of_mem_zipIdx hx
  obtain ⟨hok, -⟩ := succeeds_visitParts hresolve
    (fun d hd => succeeds_expandModel hresolve hids hd)
    (fun part hpart => PackageSource.reached_of_mem_parts hc hpackage hr hpart) s hs
  have hid : c.node.id = c.id := rfl
  rw [run_failureOf, exec_buildRoute, hid]
  rcases hx : exec (visitParts source (expandModel source fuel) x.1.file c.id.package
    x.1.parts) s with ⟨e | u, s'⟩
  · rw [hx] at hok
    cases hok
  · rfl

/-- A build without a cache succeeds, if the packages of the controllers load, all types that can be
reached refer to something, and the depth exceeds the number of identities. -/
theorem outcome_eq_nil {depth : Nat} (hdepth : ids.card < depth)
    (hpackages : ∀ c ∈ config.controllersIn source.importPathOf files,
      ∃ package, (source.package c.id.package).run = .ok package) :
    (outcome source config depth files {}).1 = [] := by
  have hcontrollers : SucceedsAll source (config.controllersIn source.importPathOf files) config
      ids depth (fun _ => True) (buildControllers source config (expandModel source depth)
        (config.controllersIn source.importPathOf files)) := by
    rw [buildControllers_eq]
    refine SucceedsAll.collect _ (fun c hc => ?_) fun _ _ _ _ h => h
    refine SucceedsAll.of_keepsAll (Regime.keepsAll_buildController (fun d hd =>
      Regime.keeps_expandModel PackageSource.lawful_closureRegime depth hd)
      (PackageSource.roots_closureRegime config files c hc)) fun s hs _ => ?_
    obtain ⟨package, hpackage⟩ := hpackages c hc
    obtain ⟨hshape, hsame⟩ := hs.sound.shape.addController (c := c.node) ⟨c, rfl⟩
    have hready := hs.of_advances (hs.sound.of_sameModels hshape hsame)
      (.of_sameModels hsame fun k hk => List.mem_append_left _ hk)
      fun id e he _ => (hsame.entry id).symm.trans he
    rw [run_buildController, hpackage]
    exact (succeedsAll_buildRoutes hresolve hids hc hpackage s.graph.nextIndex _ hready
      (List.mem_append_right _ (List.mem_singleton.2 rfl))).1
  refine (hcontrollers { cache := {} } ⟨Regime.sound_initial ?_, ?_, ?_⟩ trivial).1
  · simp [MetadataCache.get?]
  · simp [SymbolGraph.modelEntry?]
  · exact Nat.lt_of_le_of_lt (Finset.card_filter_le _ _) hdepth

end Builds

end RouteAtlas
