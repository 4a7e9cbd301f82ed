import RouteAtlas.Build.Graph
import RouteAtlas.Proofs.Outcome
import Mathlib

/-!
# Running the steps of a build

A step of a build is a function from a state to an answer and a state. `exec` is that function, and
there is one equation for each way in which steps are put together. A failure ends a step but keeps
the state that was reached, and `inScope` changes nothing but the failure.
-/

set_option autoImplicit false

namespace RouteAtlas.Build

variable {α β : Type}

/-- What a step of a build gives from a state, and the state it leaves. -/
def exec (x : Build α) (s : BuildState) : Except Failure α × BuildState :=
  (ExceptT.run x).run s

/-- Two steps that give the same from every state are the same. -/
theorem exec_ext {x y : Build α} (h : ∀ s, exec x s = exec y s) : x = y := by
  funext s
  exact h s

/-- Doing nothing gives the value and leaves the state. -/
@[simp] theorem exec_pure (a : α) (s : BuildState) : exec (pure a) s = (.ok a, s) := rfl

/-- Failing at once gives the failure and leaves the state. -/
@[simp] theorem exec_throw (e : Failure) (s : BuildState) :
    exec (throw e : Build α) s = (.error e, s) := rfl

/-- Asking for the state leaves it. -/
@[simp] theorem exec_get (s : BuildState) : exec (get : Build BuildState) s = (.ok s, s) := rfl

/-- A step on the state is made at once. -/
@[simp] theorem exec_modifyGet (f : BuildState → α × BuildState) (s : BuildState) :
    exec (modifyGet f : Build α) s = (.ok (f s).1, (f s).2) := rfl

/-- A change of the state is made at once. -/
@[simp] theorem exec_modify (f : BuildState → BuildState) (s : BuildState) :
    exec (modify f : Build PUnit) s = (.ok ⟨⟩, f s) := rfl

/-- A change of the graph leaves the cache. -/
@[simp] theorem exec_updateGraph (f : SymbolGraph → SymbolGraph) (s : BuildState) :
    exec (updateGraph f) s = (.ok (), { s with graph := f s.graph }) := rfl

/-- A step on the graph leaves the cache. -/
@[simp] theorem exec_onGraph (f : SymbolGraph → SymbolGraph × α) (s : BuildState) :
    exec (onGraph f) s = (.ok (f s.graph).2, { s with graph := (f s.graph).1 }) := rfl

/-- The second of two steps starts from the state of the first one, unless that failed. -/
theorem exec_bind (x : Build α) (f : α → Build β) (s : BuildState) :
    exec (x >>= f) s =
      match exec x s with
      | (.ok a, s') => exec (f a) s'
      | (.error e, s') => (.error e, s') := by
  rw [exec, ExceptT.run_bind, StateT.run_bind]
  rcases h : exec x s with ⟨e | a, s'⟩
  · have hx : (ExceptT.run x).run s = (.error e, s') := h
    simp only [hx]
    rfl
  · have hx : (ExceptT.run x).run s = (.ok a, s') := h
    simp only [hx]
    rfl

/-- Of several steps the first one comes first, and the rest follow unless it failed. -/
theorem exec_forM_cons (f : α → Build Unit) (a : α) (l : List α) (s : BuildState) :
    exec ((a :: l).forM f) s =
      match exec (f a) s with
      | (.ok _, s') => exec (l.forM f) s'
      | (.error e, s') => (.error e, s') := by
  have hcons : (a :: l).forM f = f a >>= fun _ => l.forM f := rfl
  rw [hcons, exec_bind]
  rcases exec (f a) s with ⟨_ | _, s'⟩ <;> rfl

/-- What handles a failure starts from the state in which it arose. -/
theorem exec_tryCatch (x : Build α) (handle : Failure → Build α) (s : BuildState) :
    exec (tryCatch x handle) s =
      match exec x s with
      | (.ok a, s') => (.ok a, s')
      | (.error e, s') => exec (handle e) s' := by
  have hcatch : exec (tryCatch x handle) s =
      exec (ExceptT.tryCatch x handle) s := rfl
  rw [hcatch, exec, ExceptT.tryCatch, ExceptT.run_mk, StateT.run_bind]
  rcases h : exec x s with ⟨e | a, s'⟩
  · have hx : StateT.run x s = (.error e, s') := h
    simp only [hx]
    rfl
  · have hx : StateT.run x s = (.ok a, s') := h
    simp only [hx]
    rfl

/-- A scope changes nothing but the failure. -/
theorem exec_inScope (scope : Scope) (x : Build α) (s : BuildState) :
    exec (inScope scope x) s = ((exec x s).1.mapError (.within scope), (exec x s).2) := by
  rw [inScope, exec_tryCatch]
  rcases exec x s with ⟨e | a, s'⟩ <;> rfl

/-- Mapping the value of a program does not change where it leads. -/
theorem exec_map (f : α → β) (x : Build α) (s : BuildState) :
    exec (f <$> x) s = ((exec x s).1.map f, (exec x s).2) := by
  rw [map_eq_pure_bind, exec_bind]
  rcases exec x s with ⟨e | a, s'⟩ <;> rfl

/-- A scope and a function of the answer can be applied in either order. -/
theorem inScope_map (scope : Scope) (f : α → β) (x : Build α) :
    inScope scope (f <$> x) = f <$> inScope scope x := by
  apply exec_ext
  intro s
  simp only [exec_inScope, exec_map]
  rcases exec x s with ⟨e | a, s'⟩ <;> rfl

/-- The failures noted about a step are those it gave, at most one. -/
theorem run_failureOf (x : Build Unit) (s : BuildState) :
    (failureOf x).run s =
      match exec x s with
      | (.ok (), s') => ([], s')
      | (.error e, s') => ([e], s') := by
  rw [failureOf, StateT.run_bind]
  rcases h : exec x s with ⟨e | a, s'⟩
  · have hx : StateT.run (ExceptT.run x) s = (.error e, s') := h
    simp only [hx]
    rfl
  · have hx : StateT.run (ExceptT.run x) s = (.ok a, s') := h
    simp only [hx]
    rfl

end RouteAtlas.Build
