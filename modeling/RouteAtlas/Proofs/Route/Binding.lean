import RouteAtlas.Proofs.Pairing
import RouteAtlas.Route.Linkage
import Mathlib

/-!
# What binding does to parameters

A directive changes where a parameter is read from and what it is called in requests. What the
parameter is stays the same, and a context is never bound. When nothing is wrong with the links, the
placeholders of the path and the parameters in the path are the same names.
-/

set_option autoImplicit false

namespace RouteAtlas.Route

/-- A parameter before and after it was bound. -/
structure Rebound (p p' : ParamNode) : Prop where
  ordinal : p'.ordinal = p.ordinal
  name : p'.name = p.name
  type : p'.type = p.type
  isContext : p'.isContext = p.isContext
  context : p.isContext = true → p'.location = p.location

namespace Rebound

/-- A parameter that was left as it is was rebound to itself. -/
theorem refl (p : ParamNode) : Rebound p p := ⟨rfl, rfl, rfl, rfl, fun _ => rfl⟩

/-- What was rebound twice was rebound. -/
theorem trans {p p' p'' : ParamNode} (h : Rebound p p') (h' : Rebound p' p'') : Rebound p p'' :=
  ⟨h'.ordinal.trans h.ordinal, h'.name.trans h.name, h'.type.trans h.type,
    h'.isContext.trans h.isContext,
    fun hc => (h'.context (h.isContext.trans hc)).trans (h.context hc)⟩

/-- A parameter that a directive may name is rebound by it, or stays as it is. -/
theorem bindIfNamed (location : ParamLocation) (a : Directive) (target : String) (p : ParamNode) :
    Rebound p (Route.bindIfNamed location a target p) := by
  unfold Route.bindIfNamed
  split
  · rename_i hnamed
    refine ⟨rfl, rfl, rfl, rfl, fun hc => ?_⟩
    simp [names, hc] at hnamed
  · exact .refl p

end Rebound

/-- One entry rebinds the parameters place by place. -/
theorem rebound_step (b : Binding) (entry : ParamLocation × Directive) :
    List.Forall₂ Rebound b.params (b.step entry).params := by
  obtain ⟨location, a⟩ := entry
  rw [Binding.step]
  cases a.value with
  | none => exact List.forall₂_same.2 fun p _ => .refl p
  | some target =>
    simp only
    split
    · rw [List.forall₂_map_right_iff, List.forall₂_same]
      exact fun p _ => .bindIfNamed location a target p
    · exact List.forall₂_same.2 fun p _ => .refl p

/-- What all directives of a route do to its parameters: each stays in its place. -/
theorem rebound_bindAll (set : DirectiveSet) (params : List ParamNode) :
    List.Forall₂ Rebound params (bindAll set params).params := by
  have hfold : ∀ (entries : List (ParamLocation × Directive)) (b : Binding),
      List.Forall₂ Rebound b.params (entries.foldl Binding.step b).params := by
    intro entries
    induction entries with
    | nil => exact fun b => List.forall₂_same.2 fun p _ => .refl p
    | cons entry entries ih =>
      intro b
      have hfirst := rebound_step b entry
      have hrest := ih (b.step entry)
      exact hfirst.comp hrest fun _ _ _ => Rebound.trans
  exact hfold set.locations ⟨params, [], []⟩

/-- Every parameter after binding is one from before, rebound. -/
theorem exists_rebound_bindAll {set : DirectiveSet} {params : List ParamNode} {p' : ParamNode}
    (h : p' ∈ (bindAll set params).params) : ∃ p ∈ params, Rebound p p' :=
  (rebound_bindAll set params).exists_left_of_mem h

/-- A context has no location after all directives of a route. -/
theorem location_of_isContext {set : DirectiveSet} {params : List ParamNode}
    (hparams : ∀ p ∈ params, p.location = none) {p' : ParamNode}
    (h : p' ∈ (bindAll set params).params) (hc : p'.isContext = true) : p'.location = none := by
  obtain ⟨p, hp, hrebound⟩ := exists_rebound_bindAll h
  rw [hrebound.context (hrebound.isContext ▸ hc)]
  exact hparams p hp

section Linkage

variable {fullPath : String} {pathSpan : Span} {set : DirectiveSet} {params : List ParamNode}

/-- A parameter in the path is bound to each placeholder, if none is missing. -/
theorem exists_param_of_placeholder
    (h : (linkParameters fullPath pathSpan set params).2.missingPathRefs = []) {slot : String}
    (hslot : slot ∈ placeholders fullPath) :
    ∃ p ∈ (bindAll set params).params, p.location = some .path ∧ p.wireName = slot := by
  have hnone := List.filter_eq_nil_iff.1 (List.map_eq_nil_iff.1 h) slot hslot
  simpa [inPath] using hnone

/-- A parameter in the path is bound to a placeholder, if none is outside. -/
theorem wireName_mem_placeholders
    (h : (linkParameters fullPath pathSpan set params).2.notInRoute = []) {p : ParamNode}
    (hp : p ∈ (bindAll set params).params) (hpath : p.location = some .path) :
    p.wireName ∈ placeholders fullPath := by
  have hin : p ∈ (bindAll set params).params.filter inPath :=
    List.mem_filter.2 ⟨hp, by simp [inPath, hpath]⟩
  have hnone := List.filter_eq_nil_iff.1 (List.map_eq_nil_iff.1 h) p hin
  simpa using hnone

end Linkage

end RouteAtlas.Route
