import RouteAtlas.Proofs.Diagnostic.Gating
import RouteAtlas.Proofs.Directive.Tidy
import RouteAtlas.Proofs.Graph.Children
import RouteAtlas.Proofs.Text.Pieces
import RouteAtlas.Validation.Basic

/-!
# Graphs without errors

When there is no error among the findings about a graph, no rule has found one about any controller,
route, parameter or model. What this says about each of them is the contraposition of the rules that
report errors.
-/

set_option autoImplicit false

namespace RouteAtlas

namespace DiagnosticEntity

/-- The findings of some trees are those of each of them. -/
theorem mem_findingsOfAll {d : Diagnostic} {es : List DiagnosticEntity} :
    d ∈ findingsOfAll es ↔ ∃ e ∈ es, d ∈ e.findings := by
  induction es with
  | nil => simp [findingsOfAll]
  | cons e rest ih => simp [findingsOfAll, ih]

/-- The findings of a tree are its own and those of the trees below it. -/
theorem mem_findings {d : Diagnostic} {e : DiagnosticEntity} :
    d ∈ e.findings ↔ d ∈ e.diagnostics ∨ ∃ child ∈ e.children, d ∈ child.findings := by
  cases e
  simp [findings, mem_findingsOfAll]

end DiagnosticEntity

/-- A response is declared by a directive, and its code is read off the value of that. -/
theorem DirectiveSet.exists_of_mem_responses {set : DirectiveSet} {response : ResponseMetadata}
    (h : response ∈ set.responses) :
    ∃ a ∈ set.directives, DirectiveSet.declaresResponse a = true ∧
      response.code = statusCode? (a.value.getD "") := by
  rw [DirectiveSet.responses] at h
  obtain ⟨a, ha, rfl⟩ := List.mem_map.1 h
  obtain ⟨hmem, hdeclares⟩ := List.mem_filter.1 ha
  exact ⟨a, hmem, hdeclares, by simp only⟩

/-- Findings among which there is no error. -/
def NoErrors (ds : List Diagnostic) : Prop := ∀ d ∈ ds, d.severity ≠ .error

/-- Trees without a failure hold no error. -/
theorem ValidationFailure.noErrors_of_none {es : List DiagnosticEntity}
    (h : ValidationFailure.ofEntities? es = none) : ∀ e ∈ es, NoErrors e.findings := by
  have hcount : (Totals.ofEntities es).errors = 0 := by
    by_contra hne
    have hsome := (isSome_ofEntities?_iff es).2 (Nat.pos_of_ne_zero hne)
    simp [h] at hsome
  intro e he d hd herror
  have hmem := DiagnosticEntity.mem_findingsOfAll.2 ⟨e, he, hd⟩
  rw [Totals.errors_ofEntities] at hcount
  have := List.countP_eq_zero.1 hcount d hmem
  simp [herror] at this

namespace Validation

variable {g : SymbolGraph}

/-- If all rules together find no error, none of them does. -/
theorem noErrors_of_findings {α : Type} {rules : List (Rule α)} {a : α}
    (h : NoErrors (findings rules a)) {rule : Rule α} (hrule : rule ∈ rules) :
    NoErrors (rule a) :=
  fun d hd => h d (List.mem_flatMap.2 ⟨rule, hrule, hd⟩)

section Graph

variable (h : ValidationFailure.ofEntities? g.validate = none)

include h

/-- In a graph without errors there is none below a controller. -/
theorem noErrors_controllerEntity {c : NodeIndex × ControllerNode} (hc : c ∈ g.controllers) :
    NoErrors (controllerEntity g c).findings :=
  ValidationFailure.noErrors_of_none h _
    (List.mem_append_left _ (List.mem_map.2 ⟨c, hc, rfl⟩))

/-- In a graph without errors the rules for controllers find none. -/
theorem noErrors_controller {c : NodeIndex × ControllerNode} (hc : c ∈ g.controllers) :
    NoErrors (findings controllerRules ⟨c.2, (g.routes c.1).length⟩) :=
  fun d hd => noErrors_controllerEntity h hc d (DiagnosticEntity.mem_findings.2 (.inl hd))

/-- In a graph without errors there is none below a route. -/
theorem noErrors_routeEntity {c : NodeIndex × ControllerNode} (hc : c ∈ g.controllers)
    {r : NodeIndex × RouteNode} (hr : r ∈ g.routes c.1) :
    NoErrors (routeEntity (routeView g r)).findings :=
  fun d hd => noErrors_controllerEntity h hc d
    (DiagnosticEntity.mem_findings.2 (.inr ⟨_, List.mem_map.2 ⟨r, hr, rfl⟩, hd⟩))

/-- In a graph without errors the rules for routes find none. -/
theorem noErrors_route {c : NodeIndex × ControllerNode} (hc : c ∈ g.controllers)
    {r : NodeIndex × RouteNode} (hr : r ∈ g.routes c.1) :
    NoErrors (findings routeRules (routeView g r)) :=
  fun d hd => noErrors_routeEntity h hc hr d (DiagnosticEntity.mem_findings.2 (.inl hd))

/-- In a graph without errors the rules for parameters find none. -/
theorem noErrors_param {c : NodeIndex × ControllerNode} (hc : c ∈ g.controllers)
    {r : NodeIndex × RouteNode} (hr : r ∈ g.routes c.1) {p : ParamNode}
    (hp : p ∈ (routeView g r).params) : NoErrors (findings paramRules p) := by
  intro d hd
  cases hds : findings paramRules p with
  | nil => simp [hds] at hd
  | cons first rest =>
    have hentity : paramEntity? r.2.file p =
        some ⟨.parameter, p.name, some r.2.file, first :: rest, []⟩ := by
      simp only [paramEntity?, hds]
    have hchild : (⟨.parameter, p.name, some r.2.file, first :: rest, []⟩ : DiagnosticEntity) ∈
        (routeEntity (routeView g r)).children :=
      List.mem_append_left _ (List.mem_filterMap.2 ⟨p, hp, hentity⟩)
    refine noErrors_routeEntity h hc hr d (DiagnosticEntity.mem_findings.2 (.inr ⟨_, hchild, ?_⟩))
    exact DiagnosticEntity.mem_findings.2 (.inl (hds ▸ hd))

/-- In a graph without errors the rules for models find none. -/
theorem noErrors_model {m : NodeIndex × ModelNode} (hm : m ∈ g.modelNodes) :
    NoErrors (findings modelRules m.2) := by
  intro d hd
  cases hds : findings modelRules m.2 with
  | nil => simp [hds] at hd
  | cons first rest =>
    have hentity : modelEntity? m.2 =
        some ⟨modelEntityKind m.2.kind, m.2.id.render, some m.2.file, first :: rest, []⟩ := by
      simp only [modelEntity?, hds]
    refine ValidationFailure.noErrors_of_none h _
      (List.mem_append_right _ (List.mem_filterMap.2 ⟨m, hm, hentity⟩)) d ?_
    exact DiagnosticEntity.mem_findings.2 (.inl (hds ▸ hd))

end Graph

/-! ## What the rules say about an entity without errors -/

/-- The directives of an entity without errors say all that its comment says. -/
theorem tidy_of_noErrors {holder : DirectiveHolder} {doc : DocComment}
    (h : NoErrors (directiveIssues holder (.ofDoc doc))) :
    (DirectiveSet.ofDoc doc).Tidy doc := by
  refine DirectiveSet.tidy_ofDoc (List.eq_nil_iff_forall_not_mem.2 fun d hd => ?_)
  exact h d (List.mem_append_left _ hd) (DirectiveSet.severity_of_mem_issues hd)

section Route

variable {r : RouteView} (h : NoErrors (findings routeRules r))

include h

/-- A route has a verb, unless a directive for it is malformed. -/
theorem isSome_verb (hmalformed : r.node.directives.malformed = []) :
    r.node.verb.isSome = true := by
  have hmissing : NoErrors (missingMethod r) := noErrors_of_findings h (by simp [routeRules])
  have hinvalid : NoErrors (invalidHttpVerb r) := noErrors_of_findings h (by simp [routeRules])
  have hhas : r.node.directives.has .method = true := by
    by_contra hnone
    simp [NoErrors, missingMethod, hnone, DirectiveSet.hasMalformed, hmalformed, Diagnostic.of,
      DiagnosticCode.severity] at hmissing
  obtain ⟨a, ha⟩ := Option.isSome_iff_exists.1 hhas
  cases hverb : r.node.verb with
  | some verb => rfl
  | none =>
    simp [NoErrors, invalidHttpVerb, ha, hverb, Diagnostic.of, DiagnosticCode.severity] at hinvalid

/-- A route has a path, unless a directive for it is malformed. -/
theorem isSome_path (hmalformed : r.node.directives.malformed = []) :
    r.node.path.isSome = true := by
  have hmissing : NoErrors (missingRoute r) := noErrors_of_findings h (by simp [routeRules])
  by_contra hnone
  simp [NoErrors, missingRoute, hnone, DirectiveSet.hasMalformed, hmalformed, Diagnostic.of,
    DiagnosticCode.severity] at hmissing

/-- The responses of a route have status codes. -/
theorem exists_code {a : Directive} (ha : a ∈ r.node.directives.directives)
    (hresponse : DirectiveSet.declaresResponse a = true) :
    ∃ code, statusCode? (a.value.getD "") = some code ∧ 100 ≤ code ∧ code ≤ 599 := by
  have hcodes : NoErrors (statusCodes r) := noErrors_of_findings h (by simp [routeRules])
  have hissue : ∀ d, statusCodeIssue? a = some d → d.severity ≠ .error := fun d hd =>
    hcodes d (List.mem_filterMap.2 ⟨a, List.mem_filter.2 ⟨ha, hresponse⟩, hd⟩)
  have htrim : statusCode? (Text.trim (a.value.getD "")) = statusCode? (a.value.getD "") := by
    simp only [statusCode?, Text.trim_trim]
  unfold statusCodeIssue? at hissue
  simp only [htrim] at hissue
  cases hcode : statusCode? (a.value.getD "") with
  | none => simp [hcode, Diagnostic.of, DiagnosticCode.severity] at hissue
  | some code =>
    refine ⟨code, rfl, ?_⟩
    by_contra hrange
    have hout : (decide (code < 100) || decide (599 < code)) = true := by
      simp only [Bool.or_eq_true, decide_eq_true_eq]
      omega
    simp [hcode, hout, Diagnostic.of, DiagnosticCode.severity] at hissue

/-- The findings about names that could not be linked are errors. -/
theorem linked_of_noErrors :
    r.node.linkage.missingPathRefs = [] ∧ r.node.linkage.notInRoute = [] := by
  have hlinks : NoErrors (pathLinkage r) := noErrors_of_findings h (by simp [routeRules])
  constructor
  · refine List.eq_nil_iff_forall_not_mem.2 fun issue hissue => ?_
    refine hlinks _ (List.mem_append_left _ (List.mem_append_left _ (List.mem_append_left _
      (List.mem_map.2 ⟨issue, hissue, rfl⟩)))) rfl
  · refine List.eq_nil_iff_forall_not_mem.2 fun issue hissue => ?_
    refine hlinks _ (List.mem_append_right _ (List.mem_map.2 ⟨issue, hissue, rfl⟩)) rfl

/-- At most one parameter is read from the body. -/
theorem length_bodyParams : r.bodyParams.length ≤ 1 := by
  have hbody : NoErrors (multipleBodyParameters r) :=
    noErrors_of_findings h (by simp [routeRules])
  have hnone : r.bodyParams.drop 1 = [] := by
    refine List.eq_nil_iff_forall_not_mem.2 fun p hp => ?_
    exact hbody _ (List.mem_map.2 ⟨p, hp, rfl⟩) rfl
  exact List.drop_eq_nil_iff.1 hnone

/-- A route returns an error, or a value and an error. -/
theorem isReturnSignature_returns : isReturnSignature r.returns = true := by
  have hreturns : NoErrors (returnSignature r) := noErrors_of_findings h (by simp [routeRules])
  by_contra hbad
  simp [NoErrors, returnSignature, hbad, Diagnostic.of, DiagnosticCode.severity] at hreturns

end Route

/-- Every parameter but a context is bound. -/
theorem isContext_or_bound {p : ParamNode} (h : NoErrors (findings paramRules p)) :
    p.isContext = true ∨ p.location.isSome = true := by
  have hparam : NoErrors (unreferencedParameter p) :=
    noErrors_of_findings h (by simp [paramRules])
  by_contra hfree
  simp [NoErrors, unreferencedParameter, not_or.1 hfree, Diagnostic.of,
    DiagnosticCode.severity] at hparam

end Validation

end RouteAtlas
