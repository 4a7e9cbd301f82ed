import RouteAtlas.Proofs.Build.Controllers

/-!
# Builds that differ in their caches

When it makes no difference to an expansion what the cache tells about a declaration, it makes no
difference to a whole build: two builds that start with different caches go through the same
graphs, fail in the same way and end with the same graph (`buildGraph_agrees`). The caches need not
be the same at any time.
-/

set_option autoImplicit false

namespace RouteAtlas.Regime

open Build Expansion BuildState

variable {source : PackageSource Id} {R : Regime source} {config : Config}

/-- A regime in which it makes no difference what the cache tells about a declaration. -/
def Transparent (R : Regime source) : Prop :=
  ∀ d cached, R.Known d → R.Usable d cached →
    d.plan source cached = d.parts ∧ source.planned? d cached = source.metadata? d

/-- Two sound states with the same graph. -/
structure Twins (R : Regime source) (config : Config) (s s' : BuildState) : Prop where
  left : R.Sound config s
  right : R.Sound config s'
  graph : s.graph = s'.graph

/-- A program that does the same in states with the same graph. -/
def Agrees (R : Regime source) (config : Config) (x : Build Unit) : Prop :=
  ∀ s s', R.Twins config s s' →
    (exec x s).1 = (exec x s').1 ∧ (exec x s).2.graph = (exec x s').2.graph

namespace Agrees

/-- A program that agrees on twins and keeps states sound leads from twins to twins. -/
theorem twins {x : Build Unit} {post : SymbolGraph → Prop} (h : R.Agrees config x)
    (hkeeps : R.Keeps config x post) {s s' : BuildState} (hs : R.Twins config s s') :
    R.Twins config (exec x s).2 (exec x s').2 :=
  ⟨(hkeeps s hs.left).1, (hkeeps s' hs.right).1, (h s s' hs).2⟩

/-- Doing nothing makes no difference between twins. -/
theorem pure : R.Agrees config (Pure.pure ()) := fun _ _ hs => ⟨rfl, hs.graph⟩

/-- Failing at once makes no difference between twins. -/
theorem throw (e : Failure) : R.Agrees config (MonadExcept.throw e) := fun _ _ hs => ⟨rfl, hs.graph⟩

/-- The scope of a program does not matter for what it does. -/
theorem inScope {x : Build Unit} (scope : Scope) (h : R.Agrees config x) :
    R.Agrees config (Build.inScope scope x) := by
  intro s s' hs
  obtain ⟨hresult, hgraph⟩ := h s s' hs
  rw [exec_inScope, exec_inScope, hresult]
  exact ⟨rfl, hgraph⟩

/-- One program after the other for each member of a list. -/
theorem forM {α : Type} {f : α → Build Unit} {post : α → SymbolGraph → Prop} (l : List α)
    (hkeeps : ∀ a ∈ l, R.Keeps config (f a) (post a)) (hf : ∀ a ∈ l, R.Agrees config (f a)) :
    R.Agrees config (l.forM f) := by
  induction l with
  | nil => exact .pure
  | cons a l ih =>
    intro s s' hs
    obtain ⟨hresult, hgraph⟩ := hf a (by simp) s s' hs
    have htwins := (hf a (by simp)).twins (hkeeps a (by simp)) hs
    rw [exec_forM_cons, exec_forM_cons]
    rcases hx : exec (f a) s with ⟨e | u, s₁⟩
    all_goals
      rcases hx' : exec (f a) s' with ⟨e' | u', s₁'⟩
      all_goals rw [hx, hx'] at hresult hgraph htwins
    · exact ⟨hresult, hgraph⟩
    · cases hresult
    · cases hresult
    · exact ih (fun b hb => hkeeps b (by simp [hb])) (fun b hb => hf b (by simp [hb])) s₁ s₁' htwins

end Agrees

section Visits

variable {expand : Expander}
  (hkeeps : ∀ d, R.Known d → R.Keeps config (expand d) fun g => g.Live d.id)
  (hexpand : ∀ d, R.Known d → R.Agrees config (expand d))

include hexpand

/-- A visit of an innermost type. -/
theorem agrees_visitLeaf {file : SourceFile} {packagePath : String} {leaf : TypeExpr}
    (hknown : ∀ d, source.Mentions file packagePath [leaf] d → R.Known d) :
    R.Agrees config (visitLeaf source expand file packagePath leaf) := by
  obtain ⟨e, heq, -⟩ | ⟨d, heq, hr, hk⟩ | ⟨r, heq, -⟩ :=
    visitLeaf_cases source expand file packagePath leaf
  · rw [heq]
    exact .throw e
  · rw [heq]
    exact hexpand d (hknown d ⟨hk, leaf, by simp, hr⟩)
  · rw [heq]
    exact .pure

include hkeeps

/-- Visits of all parts. -/
theorem agrees_visitParts {file : SourceFile} {packagePath : String} {parts : List TypePart}
    (hknown : ∀ part ∈ parts, ∀ d, source.Mentions file packagePath part.2.leaves d → R.Known d) :
    R.Agrees config (visitParts source expand file packagePath parts) := by
  have hleaf : ∀ part ∈ parts, ∀ leaf ∈ part.2.leaves, ∀ d,
      source.Mentions file packagePath [leaf] d → R.Known d := by
    intro part hpart leaf hleaf d hd
    exact hknown part hpart d (hd.mono (by simp [hleaf]))
  have hpart : ∀ part ∈ parts,
      R.Keeps config (Build.inScope part.1 (visit source expand file packagePath part.2))
        fun g => ∀ leaf ∈ part.2.leaves, source.Settled file packagePath g leaf := by
    intro part hpart
    exact Keeps.inScope part.1 (Keeps.forM part.2.leaves
      (fun leaf hl => keeps_visitLeaf hkeeps (hleaf part hpart leaf hl))
      fun leaf s s' hadv => hadv.settled)
  refine Agrees.forM parts hpart fun part hpart => Agrees.inScope part.1 ?_
  exact Agrees.forM part.2.leaves
    (fun leaf hl => keeps_visitLeaf hkeeps (hleaf part hpart leaf hl))
    fun leaf hl => agrees_visitLeaf hexpand (hleaf part hpart leaf hl)

end Visits

/-- An expansion does the same whatever the cache tells, if the expansions that it starts do. -/
theorem agrees_expandWith (hR : R.Lawful) (hT : R.Transparent) {expand : Expander}
    (hkeeps : ∀ d, R.Known d → R.Keeps config (expand d) fun g => g.Live d.id)
    (hexpand : ∀ d, R.Known d → R.Agrees config (expand d)) {d : ResolvedDecl} (hd : R.Known d) :
    R.Agrees config (expandWith source expand d) := by
  intro s s' hs
  cases hentry : s.graph.modelEntry? d.id with
  | some e =>
    have hentry' : s'.graph.modelEntry? d.id = some e := hs.graph ▸ hentry
    rw [exec_expandWith_known source expand d hentry, exec_expandWith_known source expand d hentry']
    exact ⟨rfl, hs.graph⟩
  | none =>
    have hentry' : s'.graph.modelEntry? d.id = none := hs.graph ▸ hentry
    obtain ⟨hplan, hplanned⟩ := hT d _ hd (hs.left.usable hentry)
    obtain ⟨hplan', hplanned'⟩ := hT d _ hd (hs.right.usable hentry')
    have hbegun : R.Twins config (begun d s) (begun d s') := by
      refine ⟨hs.left.begun hd hentry, hs.right.begun hd hentry', ?_⟩
      show (s.graph.beginModel d.modelNode).1 = (s'.graph.beginModel d.modelNode).1
      rw [hs.graph]
    have hknown : ∀ part ∈ d.parts, ∀ d',
        source.Mentions d.file d.package.importPath part.2.leaves d' → R.Known d' := by
      intro part hpart d'
      exact hR.closed d _ part d' hd (hs.left.usable hentry) (hplan ▸ hpart)
    obtain ⟨hresult, hgraph⟩ := agrees_visitParts hkeeps hexpand hknown _ _ hbegun
    rw [exec_expandWith_new source expand d hentry, exec_expandWith_new source expand d hentry',
      hplan, hplan', hplanned, hplanned', visitIn]
    rcases hx : exec (visitParts source expand d.file d.package.importPath d.parts) (begun d s)
      with ⟨e | u, s₁⟩
    all_goals
      rcases hx' : exec (visitParts source expand d.file d.package.importPath d.parts)
        (begun d s') with ⟨e' | u', s₁'⟩
      all_goals rw [hx, hx'] at hresult hgraph
    · cases hresult
      exact ⟨rfl, congrArg (·.failModel d.id) hgraph⟩
    · cases hresult
    · cases hresult
    · cases source.metadata? d with
      | none => exact ⟨rfl, congrArg (·.failModel d.id) hgraph⟩
      | some m =>
        refine ⟨rfl, ?_⟩
        show s₁.graph.finishModel s.graph.nextIndex m = s₁'.graph.finishModel s'.graph.nextIndex m
        rw [hgraph, hs.graph]

/-- Expansions do the same whatever the cache tells, however deep they may nest. -/
theorem agrees_expandModel (hR : R.Lawful) (hT : R.Transparent) (fuel : Nat) {d : ResolvedDecl}
    (hd : R.Known d) : R.Agrees config (expandModel source fuel d) := by
  induction fuel generalizing d with
  | zero => exact .throw _
  | succ fuel ih =>
    exact agrees_expandWith hR hT (fun d hd => keeps_expandModel hR fuel hd) (fun d hd => ih hd) hd

/-! ## Controllers and routes -/

/-- A program that does the same in states with the same graph, and notes the same failures. -/
def AgreesAll (R : Regime source) (config : Config) (pre : SymbolGraph → Prop)
    (x : StateM BuildState (List Failure)) : Prop :=
  ∀ s s', R.Twins config s s' → pre s.graph →
    (x.run s).1 = (x.run s').1 ∧ (x.run s).2.graph = (x.run s').2.graph

/-- Several programs one after the other. -/
theorem AgreesAll.collect {α : Type} {pre : SymbolGraph → Prop}
    {f : α → StateM BuildState (List Failure)} {post : α → SymbolGraph → Prop} (l : List α)
    (hkeeps : ∀ a ∈ l, R.KeepsAll config pre (f a) (post a))
    (hf : ∀ a ∈ l, R.AgreesAll config pre (f a))
    (hpre : ∀ s s', Advances s s' → pre s.graph → pre s'.graph) :
    R.AgreesAll config pre (Build.collect f l) := by
  induction l with
  | nil => exact fun s s' hs _ => ⟨rfl, hs.graph⟩
  | cons a l ih =>
    intro s s' hs hp
    obtain ⟨hresult, hgraph⟩ := hf a (by simp) s s' hs hp
    obtain ⟨hsound, hadv, -⟩ := hkeeps a (by simp) s hs.left hp
    obtain ⟨hsound', -, -⟩ := hkeeps a (by simp) s' hs.right (hs.graph ▸ hp)
    obtain ⟨hresults, hgraphs⟩ := ih (fun b hb => hkeeps b (by simp [hb]))
      (fun b hb => hf b (by simp [hb])) _ _ ⟨hsound, hsound', hgraph⟩ (hpre s _ hadv hp)
    rw [run_collect_cons, run_collect_cons, hresult, hresults]
    exact ⟨rfl, hgraphs⟩

section Builds

variable {expand : Expander}
  (hkeeps : ∀ d, R.Known d → R.Keeps config (expand d) fun g => g.Live d.id)
  (hexpand : ∀ d, R.Known d → R.Agrees config (expand d))

include hkeeps hexpand

/-- Building a route. -/
theorem agreesAll_buildRoute {c : ControllerDecl} {r : RouteDecl} (i : NodeIndex) (ordinal : Nat)
    (hknown : ∀ part ∈ r.parts, ∀ d,
      source.Mentions r.file c.id.package part.2.leaves d → R.Known d) :
    R.AgreesAll config (i ∈ ·.controllerNodes)
      (failureOf (buildRoute source config expand c.node i ordinal r)) := by
  intro s s' hs _
  obtain ⟨hresult, hgraph⟩ := agrees_visitParts hkeeps hexpand hknown s s' hs
  have hid : c.node.id = c.id := rfl
  rw [run_failureOf, run_failureOf, exec_buildRoute, exec_buildRoute, hid]
  rcases hx : exec (visitParts source expand r.file c.id.package r.parts) s with ⟨e | u, s₁⟩
  all_goals
    rcases hx' : exec (visitParts source expand r.file c.id.package r.parts) s'
      with ⟨e' | u', s₁'⟩
    all_goals rw [hx, hx'] at hresult hgraph
  · cases hresult
    exact ⟨rfl, hgraph⟩
  · cases hresult
  · cases hresult
  · exact ⟨rfl, congrArg (·.withRoute i ordinal (source.routePartsOf config c.node r)) hgraph⟩

/-- Building a controller. -/
theorem agreesAll_buildController {c : ControllerDecl}
    (hknown : ∀ package, (source.package c.id.package).run = .ok package →
      ∀ r ∈ c.routes package, ∀ part ∈ r.parts, ∀ d,
        source.Mentions r.file c.id.package part.2.leaves d → R.Known d) :
    R.AgreesAll config (fun _ => True) (buildController source config expand c) := by
  intro s s' hs _
  rw [run_buildController, run_buildController]
  cases hpackage : (source.package c.id.package).run with
  | error e => exact ⟨rfl, hs.graph⟩
  | ok package =>
    obtain ⟨hshape, hsame⟩ := hs.left.shape.addController (c := c.node) ⟨c, rfl⟩
    obtain ⟨hshape', hsame'⟩ := hs.right.shape.addController (c := c.node) ⟨c, rfl⟩
    have htwins : R.Twins config { s with graph := (s.graph.addController c.node).1 }
        { s' with graph := (s'.graph.addController c.node).1 } :=
      ⟨hs.left.of_sameModels hshape hsame, hs.right.of_sameModels hshape' hsame',
        congrArg (fun g => (g.addController c.node).1) hs.graph⟩
    have hroutes : R.AgreesAll config (s.graph.nextIndex ∈ ·.controllerNodes)
        (buildRoutes source config expand c.node s.graph.nextIndex (c.routes package)) := by
      rw [buildRoutes_eq]
      have hr : ∀ x ∈ (c.routes package).zipIdx, x.1 ∈ c.routes package :=
        fun x hx => List.fst_mem_of_mem_zipIdx hx
      exact AgreesAll.collect _
        (fun x hx => keepsAll_buildRoute hkeeps (hr x hx) _ _ (hknown package hpackage _ (hr x hx)))
        (fun x hx => agreesAll_buildRoute hkeeps hexpand _ _ (hknown package hpackage _ (hr x hx)))
        fun s s' h hi => h.controllers _ hi
    simp only
    rw [← hs.graph] at htwins ⊢
    exact hroutes _ _ htwins (List.mem_append_right _ (List.mem_singleton.2 rfl))

end Builds

variable {depth : Nat} {files : List SourceFile} {cache cache' : MetadataCache}

/-- Two builds with different caches give the same graph or the same failures. -/
theorem buildGraph_agrees (hR : R.Lawful) (hT : R.Transparent) (hroots : R.Roots config files)
    (hleft : ∀ id e, cache.get? id = some e → R.Left e)
    (hleft' : ∀ id e, cache'.get? id = some e → R.Left e) :
    (buildGraph source depth config files cache).1 =
      (buildGraph source depth config files cache').1 := by
  have hagrees : R.AgreesAll config (fun _ => True)
      (buildControllers source config (expandModel source depth)
        (config.controllersIn source.importPathOf files)) := by
    rw [buildControllers_eq]
    have hkeeps : ∀ d, R.Known d →
        R.Keeps config (expandModel source depth d) fun g => g.Live d.id :=
      fun d hd => keeps_expandModel hR depth hd
    exact AgreesAll.collect _ (fun c hc => keepsAll_buildController hkeeps (hroots c hc))
      (fun c hc => agreesAll_buildController hkeeps
        (fun d hd => agrees_expandModel hR hT depth hd) (hroots c hc)) fun _ _ _ h => h
  obtain ⟨hresult, hgraph⟩ := hagrees { cache := cache } { cache := cache' }
    ⟨sound_initial hleft, sound_initial hleft', rfl⟩ trivial
  have hfailures : (outcome source config depth files cache).1 =
      (outcome source config depth files cache').1 := hresult
  have hgraphs : (outcome source config depth files cache).2.graph =
      (outcome source config depth files cache').2.graph := hgraph
  rw [buildGraph_eq, buildGraph_eq]
  by_cases hnone : (outcome source config depth files cache').1 = []
  · rw [if_pos hnone, if_pos (hfailures.trans hnone), hgraphs]
  · rw [if_neg hnone, if_neg fun h => hnone (hfailures.symm.trans h), hfailures]

end RouteAtlas.Regime
