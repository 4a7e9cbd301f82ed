import RouteAtlas.Proofs.Expansion.Visit
import RouteAtlas.Proofs.Graph.Building

/-!
# The course of an expansion

An expansion of a declaration begins its model, visits everything that its metadata is made from,
and then finishes the model or gives it up. `exec_expandWith_new` says so in one equation, in which
nothing but the visits is a program; a route is added in one go as well (`exec_addRoute`).
-/

set_option autoImplicit false

namespace RouteAtlas

namespace Build

/-- Updates of a graph one after the other are one fold over them. -/
theorem exec_forM_updateGraph {α : Type} (f : α → SymbolGraph → SymbolGraph) (l : List α)
    (s : BuildState) :
    exec (l.forM fun a => updateGraph (f a)) s =
      (.ok (), { s with graph := l.foldl (fun g a => f a g) s.graph }) := by
  induction l generalizing s with
  | nil => rfl
  | cons a l ih =>
    rw [exec_forM_cons, exec_updateGraph]
    exact ih _

/-- A route is added with everything below it. -/
theorem exec_addRoute (controller : NodeIndex) (ordinal : Nat) (parts : RouteParts)
    (s : BuildState) :
    exec (addRoute controller ordinal parts) s =
      (.ok (), { s with graph := s.graph.withRoute controller ordinal parts }) := by
  have hparams : ∀ i, (parts.params.forM fun p => do
      let j ← onGraph fun g => g.addParameter i p
      attachType j .typeOf p.type) = parts.params.forM fun p =>
        updateGraph fun g => g.addValue i ((.parameter p.ordinal, .parameter p), p.type) := by
    intro i
    simp only [SymbolGraph.attachType_eq]
    rfl
  have hreturns : ∀ i, (parts.returns.forM fun r => do
      let j ← onGraph fun g => g.addReturn i r
      attachType j .typeOf r.type) = parts.returns.forM fun r =>
        updateGraph fun g => g.addValue i ((.result r.ordinal, .result r), r.type) := by
    intro i
    simp only [SymbolGraph.attachType_eq]
    rfl
  rw [addRoute]
  simp only [hparams, hreturns, exec_bind, exec_onGraph, exec_forM_updateGraph]
  simp [SymbolGraph.withRoute, SymbolGraph.addValues, RouteParts.values, SymbolGraph.addRoute,
    List.foldl_map]

end Build

namespace Expansion

open Build

variable (source : PackageSource Id) (expand : Expander) (d : ResolvedDecl)

/-- What the cache knows about a declaration. -/
def cachedFor (s : BuildState) : Option ModelMetadata :=
  (s.cache.getFresh d.id d.file.version).1

/-- The state after the cache has been asked about a declaration. -/
def asked (s : BuildState) : BuildState :=
  { s with cache := (s.cache.getFresh d.id d.file.version).2 }

/-- The state in which the visits of an expansion start. -/
def begun (s : BuildState) : BuildState :=
  asked d { s with graph := (s.graph.beginModel d.modelNode).1 }

/-- The cache after a declaration has been given its metadata. What it knows is not stored again. -/
def stored (cached : Option ModelMetadata) (metadata : ModelMetadata) (cache : MetadataCache) :
    MetadataCache :=
  if cached = some metadata then cache
  else match d.file.version with
    | some version => cache.put d.id metadata version
    | none => cache

/-- The state after a model has been given its metadata. -/
def finished (i : NodeIndex) (cached : Option ModelMetadata) (metadata : ModelMetadata)
    (s : BuildState) : BuildState :=
  ⟨s.graph.finishModel i metadata, stored d cached metadata s.cache⟩

/-- The state after a model has been given up. -/
def givenUp (s : BuildState) : BuildState := { s with graph := s.graph.failModel d.id }

/-- The refusal of a declaration that has no metadata. -/
def refusal : Failure := .malformedDeclaration d.id.render "interfaces are not expanded"

/-- The metadata of a declaration is stored after it has been made. -/
theorem exec_modelMetadata (s : BuildState) :
    exec (modelMetadata source expand d) s =
      match exec (metadataFrom source expand d (cachedFor d s)) (asked d s) with
      | (.ok m, s') => (.ok m, { s' with cache := stored d (cachedFor d s) m s'.cache })
      | (.error e, s') => (.error e, s') := by
  rw [modelMetadata]
  simp only [exec_bind, exec_modifyGet, cachedFor, asked]
  rcases hfresh : s.cache.getFresh d.id d.file.version with ⟨_ | cached, cache⟩
  · simp only [metadataFrom, exec_bind]
    rcases exec (computeModel source expand d) { s with cache := cache } with ⟨e | m, s'⟩
    · rfl
    · simp only [store, stored]
      cases d.file.version <;> simp
  · simp only [metadataFrom, exec_bind]
    rcases exec (refreshModel source expand d cached) { s with cache := cache } with ⟨e | m, s'⟩
    · rfl
    · by_cases hm : m = cached
      · simp [stored, hm]
      · simp only [ne_eq, hm, not_false_eq_true, if_true, store, stored, Option.some.injEq,
          Ne.symm hm, if_false]
        cases d.file.version <;> simp [exec_map, Except.map]

/-- Attaching metadata attaches every type that it uses. -/
theorem exec_attachMetadata (i : NodeIndex) (metadata : ModelMetadata) (s : BuildState) :
    exec (attachMetadata i metadata) s =
      (.ok (), { s with graph := s.graph.attachAll i metadata.uses }) := by
  cases metadata with
  | enum e => rfl
  | synonym a => rfl
  | struct r =>
    simp only [attachMetadata, SymbolGraph.attachType_eq, exec_forM_updateGraph]
    simp [SymbolGraph.attachAll, ModelMetadata.uses, List.foldl_map]

/-- A model that has an entry is not expanded again. -/
theorem exec_expandWith_known {s : BuildState} {e : ModelEntry}
    (h : s.graph.modelEntry? d.id = some e) :
    exec (expandWith source expand d) s =
      (if e.state = .failed then
        .error (.unresolved d.id.render "an earlier expansion of this type failed")
      else .ok (), s) := by
  rw [expandWith]
  simp only [exec_bind, exec_get, h]
  by_cases hs : e.state = .failed <;> simp [hs]

/-- The course of an expansion. -/
theorem exec_expandWith_new {s : BuildState} (h : s.graph.modelEntry? d.id = none) :
    exec (expandWith source expand d) s =
      match exec (visitIn source expand d (d.plan source (cachedFor d s))) (begun d s),
        source.planned? d (cachedFor d s) with
      | (.ok _, s'), some m => (.ok (), finished d s.graph.nextIndex (cachedFor d s) m s')
      | (.ok _, s'), none => (.error (.within (.type d.id) (refusal d)), givenUp d s')
      | (.error e, s'), _ => (.error (.within (.type d.id) e), givenUp d s') := by
  have hbegin : (s.graph.beginModel d.modelNode).2 = s.graph.nextIndex := rfl
  have hcached : cachedFor d { s with graph := (s.graph.beginModel d.modelNode).1 } =
      cachedFor d s := rfl
  rw [expandWith]
  simp only [exec_bind, exec_get, h, exec_onGraph, exec_tryCatch, exec_modelMetadata,
    metadataFrom_eq, hbegin, hcached]
  rw [begun]
  rcases exec (visitIn source expand d (d.plan source (cachedFor d s)))
    (asked d { s with graph := (s.graph.beginModel d.modelNode).1 }) with ⟨e | u, s'⟩
  · simp [givenUp]
  · cases source.planned? d (cachedFor d s) with
    | none => simp [answer, givenUp, refusal]
    | some m =>
      simp [answer, exec_attachMetadata, finished, SymbolGraph.finishModel]

end Expansion

end RouteAtlas
