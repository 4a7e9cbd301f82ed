import RouteAtlas.Proofs.Cache.Lookup
import RouteAtlas.Proofs.Expansion.Step
import RouteAtlas.Proofs.Graph.Successors

/-!
# What holds while a graph is built

Whatever an expansion does, and whether it fails or not, it keeps the state of a build sound: the
graph has its shape, the cache agrees with the models in the graph, and everything in the cache
either was there before or has been made from a declaration. What an expansion finds it leaves as
it is; if it succeeds, everything it was asked to visit is live, and no model was given up.

What the metadata of a declaration is to satisfy differs from use to use, so it is left open in a
`Regime`, which says what may be expanded, what may be found in the cache, and what metadata has to
be like.
-/

set_option autoImplicit false

namespace RouteAtlas

/-- The node of a declaration that has been given its metadata. -/
def ResolvedDecl.completeNode (d : ResolvedDecl) (metadata : ModelMetadata) : ModelNode :=
  { d.modelNode with metadata := some metadata }

namespace PackageSource

variable (source : PackageSource Id)

/-- An innermost type that refers to something, and not to a model without a place in the graph
or one that was given up. -/
def Settled (file : SourceFile) (packagePath : String) (g : SymbolGraph) (leaf : TypeExpr) :
    Prop :=
  ∃ r, source.resolve file packagePath leaf = .ok r ∧ (∀ reason, r ≠ .unresolved reason) ∧
    ∀ d, r = .declared d → d.kind.isModel = true → g.Live d.id

/-- A type expression whose innermost types all refer to something. -/
def Resolves (file : SourceFile) (packagePath : String) (e : TypeExpr) : Prop :=
  ∀ leaf ∈ e.leaves, ∃ r, source.resolve file packagePath leaf = .ok r ∧
    ∀ reason, r ≠ .unresolved reason

end PackageSource

/-- What a visit of an innermost type does: it fails if the type refers to nothing, expands a model
that the type refers to, and does nothing about anything else. -/
theorem Expansion.visitLeaf_cases (source : PackageSource Id) (expand : Expander)
    (file : SourceFile) (packagePath : String) (leaf : TypeExpr) :
    (∃ e, visitLeaf source expand file packagePath leaf = throw e ∧
      ¬ ∃ r, source.resolve file packagePath leaf = .ok r ∧ ∀ reason, r ≠ .unresolved reason) ∨
    (∃ d, visitLeaf source expand file packagePath leaf = expand d ∧
      source.resolve file packagePath leaf = .ok (.declared d) ∧ d.kind.isModel = true) ∨
    ∃ r, visitLeaf source expand file packagePath leaf = pure () ∧
      source.resolve file packagePath leaf = .ok r ∧ (∀ reason, r ≠ .unresolved reason) ∧
      ∀ d, r = .declared d → d.kind.isModel ≠ true := by
  rcases hr : source.resolve file packagePath leaf with e | r
  · have heq : visitLeaf source expand file packagePath leaf = throw e := by
      rw [visitLeaf, hr]
      rfl
    exact .inl ⟨e, heq, by simp⟩
  · have heq : visitLeaf source expand file packagePath leaf = visitResolved expand leaf r := by
      rw [visitLeaf, hr]
      rfl
    rw [heq]
    cases r with
    | unresolved reason => exact .inl ⟨_, rfl, by simp⟩
    | declared d =>
      by_cases hk : d.kind.isModel = true
      · exact .inr (.inl ⟨d, by simp only [visitResolved, hk, if_true], rfl, hk⟩)
      · refine .inr (.inr ⟨_, by simp only [visitResolved, if_neg hk], rfl, by simp, ?_⟩)
        rintro d' hd'
        cases hd'
        exact hk
    | predeclared name => exact .inr (.inr ⟨_, rfl, rfl, by simp, by simp⟩)
    | special path name type kind => exact .inr (.inr ⟨_, rfl, rfl, by simp, by simp⟩)
    | inline text => exact .inr (.inr ⟨_, rfl, rfl, by simp, by simp⟩)

/-- What may be expanded, what earlier builds may have left in the cache, and what the metadata of a
declaration has to be like. -/
structure Regime (source : PackageSource Id) where
  Known : ResolvedDecl → Prop
  Left : CacheEntry → Prop
  Fits : ResolvedDecl → ModelMetadata → Prop

namespace Regime

variable {source : PackageSource Id} (R : Regime source)

/-- What the cache may tell about a declaration. -/
def Usable (d : ResolvedDecl) (cached : Option ModelMetadata) : Prop :=
  ∀ m, cached = some m → ∃ e version, R.Left e ∧ e.id = d.id ∧ e.metadata = m ∧
    d.file.version = some version ∧ e.version.hasChanged version = false

/-- An entry that was made from a declaration. -/
def Produced (e : CacheEntry) : Prop :=
  ∃ d, R.Known d ∧ d.id = e.id ∧ d.file.version = some e.version ∧ R.Fits d e.metadata

/-- A regime that expansions can keep. -/
structure Lawful : Prop where
  isModel : ∀ d, R.Known d → d.kind.isModel = true
  closed : ∀ d cached part d', R.Known d → R.Usable d cached → part ∈ d.plan source cached →
    source.Mentions d.file d.package.importPath part.2.leaves d' → R.Known d'
  fits : ∀ d cached m, R.Known d → R.Usable d cached → source.planned? d cached = some m →
    (∀ part ∈ d.plan source cached, source.Resolves d.file d.package.importPath part.2) →
    R.Fits d m

/-- What the graph may hold: controllers and routes as they are declared, and models of known
declarations with fitting metadata. -/
def contents (config : Config) : SymbolGraph.Contents where
  Controller := fun node => ∃ c : ControllerDecl, node = c.node
  Route := fun parts => ∃ (c : ControllerDecl) (package : Package), ∃ r ∈ c.routes package,
    parts = source.routePartsOf config c.node r
  Model := fun m => ∃ d, R.Known d ∧ m = { d.modelNode with metadata := m.metadata } ∧
    ∀ metadata, m.metadata = some metadata → R.Fits d metadata

/-- The state of a build between two steps. -/
structure Sound (config : Config) (s : BuildState) : Prop where
  shape : s.graph.WellShaped (R.contents config)
  current : ∀ i m, s.graph.node? i = some (.model m) → m.metadata.isSome = true →
    SymbolGraph.currentMetadata? s.cache m = m.metadata
  cached : ∀ id e, s.cache.get? id = some e →
    R.Left e ∨ (s.graph.modelEntry? id).isSome = true ∧ R.Produced e

end Regime

namespace BuildState

/-- What becomes of a state: everything in it stays as it is, and what was begun later has been
finished or given up. -/
structure Advances (s s' : BuildState) : Prop where
  node : ∀ k n, s.graph.node? k = some n → s'.graph.node? k = some n
  controllers : ∀ i ∈ s.graph.controllerNodes, i ∈ s'.graph.controllerNodes
  entry : ∀ id e, s.graph.modelEntry? id = some e → s'.graph.modelEntry? id = some e
  progress : ∀ id e, s'.graph.modelEntry? id = some e → e.state = .inProgress →
    s.graph.modelEntry? id = some e
  cache : ∀ id e, s.graph.modelEntry? id = some e → s'.cache.get? id = s.cache.get? id

/-- What becomes of a state when types are visited: moreover, no node gets or loses an edge, and no
controller comes. -/
structure Visits (s s' : BuildState) : Prop extends Advances s s' where
  kept : SymbolGraph.Extends (fun _ => False) s.graph s'.graph
  next : s.graph.nextIndex ≤ s'.graph.nextIndex
  noController : s'.graph.controllerNodes = s.graph.controllerNodes

/-- No model was given up on the way to a state. -/
def Unharmed (s s' : BuildState) : Prop :=
  ∀ id e, s'.graph.modelEntry? id = some e → e.state = .failed →
    s.graph.modelEntry? id = some e

namespace Advances

variable {s s' s'' : BuildState}

/-- A state advances to itself. -/
theorem refl (s : BuildState) : Advances s s :=
  ⟨fun _ _ h => h, fun _ h => h, fun _ _ h => h, fun _ _ h _ => h, fun _ _ _ => rfl⟩

/-- Advancing twice is advancing. -/
theorem trans (h : Advances s s') (h' : Advances s' s'') : Advances s s'' where
  node := fun k n hk => h'.node k n (h.node k n hk)
  controllers := fun i hi => h'.controllers i (h.controllers i hi)
  entry := fun id e he => h'.entry id e (h.entry id e he)
  progress := fun id e he hs => h.progress id e (h'.progress id e he hs) hs
  cache := fun id e he => (h'.cache id e (h.entry id e he)).trans (h.cache id e he)

/-- Live models stay live as the build goes on. -/
theorem live (h : Advances s s') {id : DeclId} (hid : s.graph.Live id) : s'.graph.Live id := by
  obtain ⟨e, he, hs⟩ := hid
  exact ⟨e, h.entry id e he, hs⟩

/-- Settled types stay settled as the build goes on. -/
theorem settled (h : Advances s s') {source : PackageSource Id} {file : SourceFile}
    {packagePath : String} {leaf : TypeExpr}
    (hl : source.Settled file packagePath s.graph leaf) :
    source.Settled file packagePath s'.graph leaf := by
  obtain ⟨r, hr, hresolved, hlive⟩ := hl
  exact ⟨r, hr, hresolved, fun d hd hk => h.live (hlive d hd hk)⟩

/-- A state advances to one with another graph that has the same models and no fewer controllers. -/
theorem of_sameModels {g : SymbolGraph} (h : SymbolGraph.SameModels s.graph g)
    (hc : ∀ i ∈ s.graph.controllerNodes, i ∈ g.controllerNodes) :
    Advances s { s with graph := g } where
  node := h.node
  controllers := hc
  entry := fun id _ he => (h.entry id).trans he
  progress := fun id _ he _ => (h.entry id).symm.trans he
  cache := fun _ _ _ => rfl

end Advances

namespace Visits

variable {s s' s'' : BuildState}

/-- A state visits itself. -/
theorem refl (s : BuildState) : Visits s s := ⟨.refl s, .refl _, Nat.le_refl _, rfl⟩

/-- Visiting twice is visiting. -/
theorem trans (h : Visits s s') (h' : Visits s' s'') : Visits s s'' where
  toAdvances := h.toAdvances.trans h'.toAdvances
  kept := (h.kept.trans h'.kept h.next).mono (by simp)
  next := Nat.le_trans h.next h'.next
  noController := h'.noController.trans h.noController

end Visits

/-- Two ways on which nothing is given up make one. -/
theorem Unharmed.trans {s s' s'' : BuildState} (h : Unharmed s s') (h' : Unharmed s' s'') :
    Unharmed s s'' :=
  fun id e he hs => h id e (h' id e he hs) hs

end BuildState

namespace Regime

open Build Expansion BuildState

variable {source : PackageSource Id} (R : Regime source) (config : Config)

/-- A change of the graph that leaves its models alone keeps the state sound. -/
theorem Sound.of_sameModels {R : Regime source} {config : Config} {s : BuildState} {g : SymbolGraph}
    (h : R.Sound config s) (hshape : g.WellShaped (R.contents config))
    (hsame : SymbolGraph.SameModels s.graph g) : R.Sound config { s with graph := g } where
  shape := hshape
  current := fun i m hi hm => h.current i m (hsame.model i m hi) hm
  cached := by
    intro id e he
    rw [hsame.entry id]
    exact h.cached id e he

/-- A program that keeps states sound and loses nothing, and after which something holds if it
succeeds. -/
def Keeps (x : Build Unit) (post : SymbolGraph → Prop) : Prop :=
  ∀ s, R.Sound config s →
    R.Sound config (exec x s).2 ∧ Visits s (exec x s).2 ∧
      ((exec x s).1 = .ok () → Unharmed s (exec x s).2 ∧ post (exec x s).2.graph)

variable {R config}

namespace Keeps

/-- Doing nothing keeps states sound and leaves what always holds. -/
theorem pure {post : SymbolGraph → Prop} (h : ∀ g, post g) :
    R.Keeps config (Pure.pure ()) post :=
  fun s hs => ⟨hs, .refl s, fun _ => ⟨fun _ _ he _ => he, h _⟩⟩

/-- Failing at once keeps states sound. -/
theorem throw (e : Failure) (post : SymbolGraph → Prop) :
    R.Keeps config (MonadExcept.throw e) post :=
  fun s hs => ⟨hs, .refl s, fun h => by simp at h⟩

/-- What a program leaves may be weakened. -/
theorem imp {x : Build Unit} {post post' : SymbolGraph → Prop} (h : R.Keeps config x post)
    (hp : ∀ g, post g → post' g) : R.Keeps config x post' := by
  intro s hs
  obtain ⟨hsound, hvisits, hok⟩ := h s hs
  exact ⟨hsound, hvisits, fun hr => ⟨(hok hr).1, hp _ (hok hr).2⟩⟩

/-- The scope of a program does not matter for what it keeps and leaves. -/
theorem inScope {x : Build Unit} {post : SymbolGraph → Prop} (scope : Scope)
    (h : R.Keeps config x post) : R.Keeps config (Build.inScope scope x) post := by
  intro s hs
  obtain ⟨hsound, hvisits, hok⟩ := h s hs
  rw [exec_inScope]
  refine ⟨hsound, hvisits, fun hr => hok ?_⟩
  rcases hx : (exec x s).1 with e | u
  · simp [hx, Except.mapError] at hr
  · rfl

/-- One program after the other for each member of a list. What holds after each of them has to
stay true. -/
theorem forM {α : Type} {f : α → Build Unit} {post : α → SymbolGraph → Prop} (l : List α)
    (hf : ∀ a ∈ l, R.Keeps config (f a) (post a))
    (hstable : ∀ a s s', Advances s s' → post a s.graph → post a s'.graph) :
    R.Keeps config (l.forM f) fun g => ∀ a ∈ l, post a g := by
  induction l with
  | nil => exact .pure (by simp)
  | cons a l ih =>
    intro s hs
    obtain ⟨hsound, hvisits, hok⟩ := hf a (by simp) s hs
    rw [exec_forM_cons]
    rcases hx : exec (f a) s with ⟨e | u, s'⟩
    · rw [hx] at hsound hvisits
      exact ⟨hsound, hvisits, fun h => by simp at h⟩
    · rw [hx] at hsound hvisits hok
      obtain ⟨hun, hpost⟩ := hok rfl
      obtain ⟨hsound', hvisits', hok'⟩ := ih (fun b hb => hf b (by simp [hb])) s' hsound
      refine ⟨hsound', hvisits.trans hvisits', fun hr => ?_⟩
      obtain ⟨hun', hpost'⟩ := hok' hr
      refine ⟨hun.trans hun', fun b hb => ?_⟩
      rcases List.mem_cons.1 hb with rfl | hb
      · exact hstable b s' _ hvisits'.toAdvances hpost
      · exact hpost' b hb

end Keeps

section Visits

variable {expand : Expander}
  (hexpand : ∀ d, R.Known d → R.Keeps config (expand d) fun g => g.Live d.id)

include hexpand

/-- A visit settles an innermost type. -/
theorem keeps_visitLeaf {file : SourceFile} {packagePath : String} {leaf : TypeExpr}
    (hknown : ∀ d, source.Mentions file packagePath [leaf] d → R.Known d) :
    R.Keeps config (visitLeaf source expand file packagePath leaf)
      fun g => source.Settled file packagePath g leaf := by
  obtain ⟨e, heq, -⟩ | ⟨d, heq, hr, hk⟩ | ⟨r, heq, hr, hresolved, hno⟩ :=
    visitLeaf_cases source expand file packagePath leaf
  · rw [heq]
    exact .throw e _
  · rw [heq]
    refine (hexpand d (hknown d ⟨hk, leaf, by simp, hr⟩)).imp fun g hlive => ?_
    exact ⟨.declared d, hr, by simp, fun d' hd' _ => by cases hd'; exact hlive⟩
  · rw [heq]
    exact .pure fun g => ⟨r, hr, hresolved, fun d hd hk => absurd hk (hno d hd)⟩

/-- The visit of the parts of a declaration keeps states sound and settles their innermost types. -/
theorem keeps_visitParts {file : SourceFile} {packagePath : String} {parts : List TypePart}
    (hknown : ∀ part ∈ parts, ∀ d, source.Mentions file packagePath part.2.leaves d → R.Known d) :
    R.Keeps config (visitParts source expand file packagePath parts)
      fun g => ∀ part ∈ parts, ∀ leaf ∈ part.2.leaves, source.Settled file packagePath g leaf := by
  refine Keeps.forM parts ?_ fun part s s' hadv h leaf hleaf => hadv.settled (h leaf hleaf)
  intro part hpart
  refine Keeps.inScope part.1 (Keeps.forM part.2.leaves ?_ fun leaf s s' hadv => hadv.settled)
  intro leaf hleaf
  refine keeps_visitLeaf hexpand fun d hd => hknown part hpart d (hd.mono ?_)
  simp [hleaf]

end Visits

end Regime

end RouteAtlas
