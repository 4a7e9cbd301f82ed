import RouteAtlas.Proofs.Catalog.Controllers
import RouteAtlas.Proofs.Catalog.Routes
import RouteAtlas.Proofs.Directive.Fates

/-!
# Findings about links

What is wrong with the links of a route is worked out twice. The builder notes it in the linkage of
the route when it binds the parameters, and validation looks at the graph: one rule repeats what the
linkage says, and another one asks each parameter whether it is bound. In every graph that was built
the two agree, because the parameters below a route are the ones that were bound, in their order.
-/

set_option autoImplicit false

namespace RouteAtlas

/-- Whether findings of a code are about the links of a route. -/
def DiagnosticCode.isAboutLinks : DiagnosticCode → Bool
  | .missingPathReference | .unknownParameterReference | .duplicateParameterReference
  | .pathParameterNotInRoute | .unreferencedParameter => true
  | _ => false

/-- A finding tells about a name that could not be linked. -/
structure Diagnostic.Tells (d : Diagnostic) (issue : LinkIssue) : Prop where
  severity : d.severity = .error
  span : d.span = issue.span
  message : issue.name.toList <:+: d.message.toList

/-- A diagnostic about the linkage of a route. -/
def Diagnostic.isAboutLinks (d : Diagnostic) : Bool := d.code.isAboutLinks

/-- How many names of a route could not be linked. -/
def Linkage.size (l : Linkage) : Nat :=
  l.missingPathRefs.length + l.unknownRefs.length + l.duplicateRefs.length + l.notInRoute.length +
    l.unreferenced.length

/-- A linkage is clean if nothing is listed in it. -/
theorem Linkage.isClean_iff (l : Linkage) : l.isClean = true ↔ l.size = 0 := by
  unfold isClean size
  simp only [Bool.and_eq_true, List.isEmpty_iff, ← List.length_eq_zero_iff]
  omega

namespace DiagnosticEntity

/-- The findings of one code about an entity itself. -/
def ofCode (e : DiagnosticEntity) (code : DiagnosticCode) : List Diagnostic :=
  e.diagnostics.filter (·.code == code)

/-- The findings of one code about the parameters of a route, with their names. -/
def ofParams (e : DiagnosticEntity) (code : DiagnosticCode) : List (String × Diagnostic) :=
  (e.children.filter (·.kind == .parameter)).flatMap fun child =>
    (child.ofCode code).map fun d => (child.name, d)

/-- The entity of a route tells everything that is wrong with the links of the route, each fault
once and in the order of the linkage, and nothing else about them. -/
structure TellsLinks (e : DiagnosticEntity) (r : RouteNode) : Prop where
  kind : e.kind = .route
  name : e.name = r.methodName
  missing : List.Forall₂ Diagnostic.Tells (e.ofCode .missingPathReference)
    r.linkage.missingPathRefs
  unknown : List.Forall₂ Diagnostic.Tells (e.ofCode .unknownParameterReference)
    r.linkage.unknownRefs
  duplicate : List.Forall₂ Diagnostic.Tells (e.ofCode .duplicateParameterReference)
    r.linkage.duplicateRefs
  notInRoute : List.Forall₂ Diagnostic.Tells (e.ofCode .pathParameterNotInRoute)
    r.linkage.notInRoute
  unreferenced : List.Forall₂ (fun x issue => x.1 = issue.name ∧ x.2.Tells issue)
    (e.ofParams .unreferencedParameter) r.linkage.unreferenced
  count : e.findings.countP (·.isAboutLinks) = r.linkage.size
  errors : (∃ d ∈ e.findings, d.severity = .error ∧ d.code.isAboutLinks = true) ↔
    r.linkage.isClean = false

end DiagnosticEntity

/-! ## Which rules are about links -/

namespace DiagnosticEntity

/-- The findings of some trees stand one after the other. -/
theorem findingsOfAll_eq (es : List DiagnosticEntity) :
    findingsOfAll es = es.flatMap findings := by
  induction es with
  | nil => rfl
  | cons e es ih => rw [findingsOfAll, ih, List.flatMap_cons]

/-- The findings of a tree are its own and then those of the trees below it. -/
theorem findings_eq (e : DiagnosticEntity) :
    e.findings = e.diagnostics ++ e.children.flatMap findings := by
  cases e
  rw [findings, findingsOfAll_eq]

end DiagnosticEntity

namespace Validation

section Silent

variable {d : Diagnostic} {code : DiagnosticCode} (hcode : code.isAboutLinks = false)

include hcode

/-- A single finding with another code is not about links. -/
theorem isAboutLinks_singleton {message : String} {span : Span}
    (h : d ∈ [Diagnostic.of code message span]) : d.isAboutLinks = false := by
  obtain rfl := List.mem_singleton.1 h
  exact hcode

/-- A finding with another code that is made under a condition is not about links. -/
theorem isAboutLinks_ite {b : Bool} {message : String} {span : Span}
    (h : d ∈ if b then [] else [Diagnostic.of code message span]) : d.isAboutLinks = false := by
  cases b with
  | true => cases h
  | false => exact isAboutLinks_singleton hcode h

/-- Findings with another code that are made of the members of a list are not about links. -/
theorem isAboutLinks_map {α : Type} {message : α → String} {span : α → Span} {l : List α}
    (h : d ∈ l.map fun a => Diagnostic.of code (message a) (span a)) :
    d.isAboutLinks = false := by
  obtain ⟨a, -, rfl⟩ := List.mem_map.1 h
  exact hcode

end Silent

/-- What is wrong with directives is not about links. -/
theorem isAboutLinks_directiveIssues {holder : DirectiveHolder} {doc : DocComment} {d : Diagnostic}
    (h : d ∈ directiveIssues holder (.ofDoc doc)) : d.isAboutLinks = false := by
  rcases List.mem_append.1 h with h | h
  · unfold Diagnostic.isAboutLinks
    rcases DirectiveSet.code_of_mem_issues h with hcode | hcode
    · rw [hcode]
      rfl
    · rw [hcode]
      rfl
  · obtain ⟨a, -, ha⟩ := List.mem_filterMap.1 h
    unfold directiveIssue? at ha
    split at ha
    · cases ha
      rfl
    · split at ha
      · cases ha
      · cases ha
        rfl

/-- What is wrong with status codes is not about links. -/
theorem isAboutLinks_statusCodes {r : RouteView} {d : Diagnostic} (h : d ∈ statusCodes r) :
    d.isAboutLinks = false := by
  obtain ⟨a, -, ha⟩ := List.mem_filterMap.1 h
  unfold statusCodeIssue? at ha
  dsimp only at ha
  split at ha
  · cases ha
    rfl
  · split at ha
    · cases ha
      rfl
    · split at ha
      · cases ha
      · cases ha
        rfl

/-- What is wrong with the use of a type is not about links. -/
theorem isAboutLinks_typeReference {t : TypeUse} {span : Span} {what : String} {d : Diagnostic}
    (h : d ∈ typeReference t span what) : d.isAboutLinks = false := by
  unfold typeReference at h
  split at h
  · rename_i code hcode
    obtain rfl := List.mem_singleton.1 h
    cases hkind : t.symbolKind <;> rw [hkind] at hcode <;> cases hcode <;> rfl
  · cases h

/-- Of several rules only one finds something that matters. -/
theorem filter_findings {α : Type} {before behind : List (Rule α)} {rule : Rule α} {a : α}
    {p : Diagnostic → Bool} (hbefore : ∀ other ∈ before, ∀ d ∈ other a, p d = false)
    (hbehind : ∀ other ∈ behind, ∀ d ∈ other a, p d = false) :
    (findings (before ++ rule :: behind) a).filter p = (rule a).filter p := by
  have hsilent : ∀ rules : List (Rule α), (∀ other ∈ rules, ∀ d ∈ other a, p d = false) →
      (findings rules a).filter p = [] := by
    intro rules hrules
    rw [List.filter_eq_nil_iff]
    intro d hd
    obtain ⟨other, hother, hd⟩ := List.mem_flatMap.1 hd
    simp [hrules other hother d hd]
  have hsplit : findings (before ++ rule :: behind) a =
      findings before a ++ (rule a ++ findings behind a) := by
    simp [findings]
  rw [hsplit, List.filter_append, List.filter_append, hsilent before hbefore,
    hsilent behind hbehind, List.nil_append, List.append_nil]

/-- What is wrong with the linkage of a path is about links, and an error. -/
theorem isAboutLinks_pathLinkage {r : RouteView} {d : Diagnostic} (h : d ∈ pathLinkage r) :
    d.isAboutLinks = true ∧ d.severity = .error := by
  simp only [pathLinkage, linkFindings, List.mem_append, List.mem_map] at h
  rcases h with ((⟨_, -, rfl⟩ | ⟨_, -, rfl⟩) | ⟨_, -, rfl⟩) | ⟨_, -, rfl⟩
  · exact ⟨rfl, rfl⟩
  · exact ⟨rfl, rfl⟩
  · exact ⟨rfl, rfl⟩
  · exact ⟨rfl, rfl⟩

/-- That a parameter is not referred to is about links, and an error. -/
theorem isAboutLinks_unreferencedParameter {p : ParamNode} {d : Diagnostic}
    (h : d ∈ unreferencedParameter p) : d.isAboutLinks = true ∧ d.severity = .error := by
  unfold unreferencedParameter at h
  split at h
  · cases h
  · obtain rfl := List.mem_singleton.1 h
    exact ⟨rfl, rfl⟩

/-- Of the rules about routes, one is about links. -/
theorem filter_findings_route {r : RouteView} {doc : DocComment}
    (h : r.node.directives = .ofDoc doc) :
    (findings routeRules r).filter Diagnostic.isAboutLinks = pathLinkage r := by
  have hrules : routeRules =
      [routeDirectives, missingMethod, invalidHttpVerb, missingRoute, statusCodes] ++ pathLinkage ::
        [multipleBodyParameters, bodyOnReadVerb, returnSignature, missingDescription,
          deprecatedRoute] := rfl
  rw [hrules, filter_findings, List.filter_eq_self]
  · exact fun d hd => (isAboutLinks_pathLinkage hd).1
  · simp only [List.forall_mem_cons]
    refine ⟨?_, ?_, ?_, ?_, ?_, by simp⟩
    · intro d hd
      rw [routeDirectives, h] at hd
      exact isAboutLinks_directiveIssues hd
    · exact fun d hd => isAboutLinks_ite rfl hd
    · intro d hd
      unfold invalidHttpVerb at hd
      split at hd
      · exact isAboutLinks_singleton rfl hd
      · cases hd
    · exact fun d hd => isAboutLinks_ite rfl hd
    · exact fun d hd => isAboutLinks_statusCodes hd
  · simp only [List.forall_mem_cons]
    refine ⟨?_, ?_, ?_, ?_, ?_, by simp⟩
    · exact fun d hd => isAboutLinks_map rfl hd
    · intro d hd
      unfold bodyOnReadVerb at hd
      split at hd
      · split at hd
        · exact isAboutLinks_map rfl hd
        · cases hd
      · cases hd
    · exact fun d hd => isAboutLinks_ite rfl hd
    · intro d hd
      unfold missingDescription at hd
      split at hd
      · exact isAboutLinks_singleton rfl hd
      · cases hd
    · intro d hd
      unfold deprecatedRoute at hd
      split at hd
      · exact isAboutLinks_singleton rfl hd
      · cases hd

/-- Of the rules about parameters, one is about links. -/
theorem filter_findings_param (p : ParamNode) :
    (findings paramRules p).filter Diagnostic.isAboutLinks = unreferencedParameter p := by
  have hrules : paramRules = [] ++ unreferencedParameter :: [paramType] := rfl
  rw [hrules, filter_findings, List.filter_eq_self]
  · exact fun d hd => (isAboutLinks_unreferencedParameter hd).1
  · simp
  · rw [List.forall_mem_singleton]
    exact fun d hd => isAboutLinks_typeReference hd

/-- Nothing that is found at a result is about links. -/
theorem filter_findings_return (r : ReturnNode) :
    (findings returnRules r).filter Diagnostic.isAboutLinks = [] := by
  rw [List.filter_eq_nil_iff]
  intro d hd
  obtain ⟨rule, hrule, hd⟩ := List.mem_flatMap.1 hd
  obtain rfl := List.mem_singleton.1 hrule
  simp [isAboutLinks_typeReference hd]

/-! ## What is told at a route -/

/-- Findings with a code about links are found among those that are about links. -/
theorem filter_code {code : DiagnosticCode} (hcode : code.isAboutLinks = true)
    (ds : List Diagnostic) :
    ds.filter (·.code == code) = (ds.filter Diagnostic.isAboutLinks).filter (·.code == code) := by
  rw [List.filter_filter]
  apply List.filter_congr
  intro d _
  cases h : d.code == code with
  | false => rfl
  | true =>
    rw [beq_iff_eq] at h
    simp [Diagnostic.isAboutLinks, h, hcode]

/-- The findings of one list have one code. -/
theorem filter_linkFindings (code code' : DiagnosticCode) (message : String → String)
    (issues : List LinkIssue) :
    (linkFindings code message issues).filter (·.code == code') =
      if code = code' then linkFindings code message issues else [] := by
  unfold linkFindings
  rw [List.filter_map]
  split
  · rename_i hcode
    rw [List.filter_eq_self.2 (by simp [Diagnostic.of, hcode])]
  · rename_i hcode
    rw [List.filter_eq_nil_iff.2 (by simp [Diagnostic.of, hcode]), List.map_nil]

/-- The rule about links finds every fault of a list of the linkage once. -/
theorem forall₂_linkFindings {code : DiagnosticCode} (hcode : code.severity = .error)
    {message : String → String} (hmessage : ∀ name, name.toList <:+: (message name).toList)
    (issues : List LinkIssue) :
    List.Forall₂ Diagnostic.Tells (linkFindings code message issues) issues := by
  unfold linkFindings
  rw [List.forall₂_map_left_iff, List.forall₂_same]
  exact fun issue _ => ⟨hcode, rfl, hmessage issue.name⟩

/-- A name stands in the message that is made with it. -/
theorem infix_message (before name behind : String) :
    name.toList <:+: (before ++ name ++ behind).toList :=
  ⟨before.toList, behind.toList, by simp⟩

/-! ## What is told at the parameters of a route -/

/-- The entity of a parameter, with or without findings. -/
def paramEntity (file : PathName) (p : ParamNode) : DiagnosticEntity :=
  ⟨.parameter, p.name, some file, findings paramRules p, []⟩

/-- The entity of a result, with or without findings. -/
def returnEntity (file : PathName) (r : ReturnNode) : DiagnosticEntity :=
  ⟨.result, "#" ++ toString r.ordinal, some file, findings returnRules r, []⟩

/-- A parameter has an entity, or nothing was found at it. -/
theorem paramEntity?_cases (file : PathName) (p : ParamNode) :
    paramEntity? file p = some (paramEntity file p) ∨
      paramEntity? file p = none ∧ findings paramRules p = [] := by
  unfold paramEntity?
  split
  · exact .inr ⟨rfl, by assumption⟩
  · exact .inl rfl

/-- A result has an entity, or nothing was found at it. -/
theorem returnEntity?_cases (file : PathName) (r : ReturnNode) :
    returnEntity? file r = some (returnEntity file r) ∨
      returnEntity? file r = none ∧ findings returnRules r = [] := by
  unfold returnEntity?
  split
  · exact .inr ⟨rfl, by assumption⟩
  · exact .inl rfl

/-- Members that are left out do not matter if they would add nothing. -/
theorem flatMap_filterMap {α β γ : Type} {f? : α → Option β} {f : α → β} {k : β → List γ}
    (h : ∀ a, f? a = some (f a) ∨ f? a = none ∧ k (f a) = []) (l : List α) :
    (l.filterMap f?).flatMap k = l.flatMap fun a => k (f a) := by
  induction l with
  | nil => rfl
  | cons a l ih =>
    rcases h a with ha | ⟨ha, hk⟩
    · rw [List.filterMap_cons_some ha, List.flatMap_cons, List.flatMap_cons, ih]
    · rw [List.filterMap_cons_none ha, List.flatMap_cons, hk, List.nil_append, ih]

/-- The children of a route that are parameters are those with an entity. -/
theorem filter_children (v : RouteView) :
    (routeEntity v).children.filter (·.kind == .parameter) =
      v.params.filterMap (paramEntity? v.node.file) := by
  have hparams : (v.params.filterMap (paramEntity? v.node.file)).filter (·.kind == .parameter) =
      v.params.filterMap (paramEntity? v.node.file) := by
    rw [List.filter_eq_self]
    intro e he
    obtain ⟨p, -, hp⟩ := List.mem_filterMap.1 he
    rcases paramEntity?_cases v.node.file p with hsome | ⟨hnone, -⟩
    · rw [hsome] at hp
      cases hp
      rfl
    · rw [hnone] at hp
      cases hp
  have hreturns :
      (v.returns.filterMap (returnEntity? v.node.file)).filter (·.kind == .parameter) = [] := by
    rw [List.filter_eq_nil_iff]
    intro e he
    obtain ⟨r, -, hr⟩ := List.mem_filterMap.1 he
    rcases returnEntity?_cases v.node.file r with hsome | ⟨hnone, -⟩
    · rw [hsome] at hr
      cases hr
      exact Bool.false_ne_true
    · rw [hnone] at hr
      cases hr
  unfold routeEntity
  rw [List.filter_append, hparams, hreturns, List.append_nil]

/-- What the children of a route tell of parameters is what was found at the parameters. -/
theorem ofParams_routeEntity (v : RouteView) :
    (routeEntity v).ofParams .unreferencedParameter =
      v.params.flatMap fun p => (unreferencedParameter p).map fun d => (p.name, d) := by
  have hcode : ∀ p, (paramEntity v.node.file p).ofCode .unreferencedParameter =
      unreferencedParameter p := by
    intro p
    unfold DiagnosticEntity.ofCode paramEntity
    rw [filter_code rfl, filter_findings_param, List.filter_eq_self]
    intro d hd
    unfold unreferencedParameter at hd
    split at hd
    · cases hd
    · obtain rfl := List.mem_singleton.1 hd
      rfl
  unfold DiagnosticEntity.ofParams
  rw [filter_children, flatMap_filterMap (f := paramEntity v.node.file)]
  · simp only [hcode]
    rfl
  · intro p
    rcases paramEntity?_cases v.node.file p with hsome | ⟨hnone, hempty⟩
    · exact .inl hsome
    · refine .inr ⟨hnone, ?_⟩
      rw [hcode, ← filter_findings_param, hempty]
      rfl

/-- The findings about links in the tree of a route. -/
theorem filter_findings_routeEntity {v : RouteView} {doc : DocComment}
    (h : v.node.directives = .ofDoc doc) :
    (routeEntity v).findings.filter Diagnostic.isAboutLinks =
      pathLinkage v ++ v.params.flatMap unreferencedParameter := by
  have hparam : ∀ p, (paramEntity v.node.file p).findings.filter Diagnostic.isAboutLinks =
      unreferencedParameter p := by
    intro p
    rw [paramEntity, DiagnosticEntity.findings_eq, List.flatMap_nil, List.append_nil,
      filter_findings_param]
  have hreturn : ∀ r, (returnEntity v.node.file r).findings.filter Diagnostic.isAboutLinks =
      [] := by
    intro r
    rw [returnEntity, DiagnosticEntity.findings_eq, List.flatMap_nil, List.append_nil,
      filter_findings_return]
  have hparams : (v.params.filterMap (paramEntity? v.node.file)).flatMap
      (fun e => e.findings.filter Diagnostic.isAboutLinks) =
      v.params.flatMap unreferencedParameter := by
    rw [flatMap_filterMap (f := paramEntity v.node.file)]
    · simp only [hparam]
    · intro p
      rcases paramEntity?_cases v.node.file p with hsome | ⟨hnone, hempty⟩
      · exact .inl hsome
      · refine .inr ⟨hnone, ?_⟩
        rw [hparam, ← filter_findings_param, hempty, List.filter_nil]
  have hreturns : (v.returns.filterMap (returnEntity? v.node.file)).flatMap
      (fun e => e.findings.filter Diagnostic.isAboutLinks) = [] := by
    rw [flatMap_filterMap (f := returnEntity v.node.file)]
    · simp [hreturn]
    · intro r
      rcases returnEntity?_cases v.node.file r with hsome | ⟨hnone, -⟩
      · exact .inl hsome
      · exact .inr ⟨hnone, hreturn r⟩
  unfold routeEntity
  rw [DiagnosticEntity.findings_eq, List.filter_append, filter_findings_route h,
    List.filter_flatMap, List.flatMap_append, hparams, hreturns, List.append_nil]

/-- The finding about a parameter that no directive has bound. -/
def unboundFinding (p : ParamNode) : Diagnostic :=
  .of .unreferencedParameter
    ("parameter '" ++ p.name ++ "' is not bound by any location annotation") p.span

/-- A parameter is found to be unbound if the builder has left it so. -/
theorem unreferencedParameter_eq (p : ParamNode) :
    unreferencedParameter p =
      if !p.isContext && p.location.isNone then [unboundFinding p] else [] := by
  unfold unreferencedParameter
  cases p.isContext with
  | true => rfl
  | false =>
    cases p.location with
    | none => rfl
    | some location => rfl

/-- What the linkage notes about parameters is found again at the parameters, in their order. -/
theorem forall₂_unreferenced (params : List ParamNode) :
    List.Forall₂ (fun x issue => x.1 = issue.name ∧ Diagnostic.Tells x.2 issue)
      (params.flatMap fun p => (unreferencedParameter p).map fun d => (p.name, d))
      ((params.filter fun p => !p.isContext && p.location.isNone).map
        fun p => (⟨p.name, p.span⟩ : LinkIssue)) := by
  have hfound : (params.flatMap fun p => (unreferencedParameter p).map fun d => (p.name, d)) =
      (params.filter fun p => !p.isContext && p.location.isNone).map
        fun p => (p.name, unboundFinding p) := by
    induction params with
    | nil => rfl
    | cons p params ih =>
      rw [List.flatMap_cons, ih, unreferencedParameter_eq, List.filter_cons]
      split
      · rfl
      · rfl
  rw [hfound, List.forall₂_map_left_iff, List.forall₂_map_right_iff, List.forall₂_same]
  exact fun p _ => ⟨rfl, rfl, rfl, infix_message _ _ _⟩

/-! ## Whole trees -/

section Told

variable {v : RouteView} {doc : DocComment} (hdoc : v.node.directives = .ofDoc doc)
  (hnoted : v.node.linkage.unreferenced =
    (v.params.filter fun p => !p.isContext && p.location.isNone).map fun p => ⟨p.name, p.span⟩)

include hdoc in
/-- What a route tells with a code about links was found at the linkage of its path. -/
theorem ofCode_routeEntity {code : DiagnosticCode} (hcode : code.isAboutLinks = true) :
    (routeEntity v).ofCode code = (pathLinkage v).filter (·.code == code) := by
  unfold DiagnosticEntity.ofCode routeEntity
  rw [filter_code hcode, filter_findings_route hdoc]

include hnoted in
/-- As many findings are told as the linkage lists. -/
theorem length_told :
    (pathLinkage v ++ v.params.flatMap unreferencedParameter).length = v.node.linkage.size := by
  have hlength := (forall₂_unreferenced v.params).length_eq
  rw [← hnoted] at hlength
  unfold pathLinkage linkFindings Linkage.size
  simp only [List.length_append, List.length_map, List.length_flatMap] at hlength ⊢
  omega

/-- Everything that is told of the linkage is an error. -/
theorem severity_told {d : Diagnostic}
    (h : d ∈ pathLinkage v ++ v.params.flatMap unreferencedParameter) : d.severity = .error := by
  rcases List.mem_append.1 h with h | h
  · exact (isAboutLinks_pathLinkage h).2
  · obtain ⟨p, -, h⟩ := List.mem_flatMap.1 h
    exact (isAboutLinks_unreferencedParameter h).2

include hdoc hnoted

/-- There are errors about links in the tree of a route if and only if something was noted. -/
theorem exists_error_iff :
    (∃ d ∈ (routeEntity v).findings, d.severity = .error ∧ d.code.isAboutLinks = true) ↔
      v.node.linkage.isClean = false := by
  have hall := filter_findings_routeEntity hdoc
  rw [← Bool.not_eq_true, Linkage.isClean_iff, ← length_told hnoted, ← hall,
    List.length_eq_zero_iff]
  constructor
  · rintro ⟨d, hd, -, hlinks⟩ hnone
    exact List.filter_eq_nil_iff.1 hnone d hd hlinks
  · intro hsome
    obtain ⟨d, hd⟩ := List.exists_mem_of_ne_nil _ hsome
    obtain ⟨hmem, hlinks⟩ := List.mem_filter.1 hd
    exact ⟨d, hmem, severity_told (hall ▸ hd), hlinks⟩

/-- The tree of a route tells about its links if the linkage has noted the parameters that are
without a location. -/
theorem tellsLinks_routeEntity : (routeEntity v).TellsLinks v.node := by
  refine ⟨rfl, rfl, ?_, ?_, ?_, ?_, ?_, ?_, exists_error_iff hdoc hnoted⟩
  · rw [ofCode_routeEntity hdoc rfl]
    simp only [pathLinkage, List.filter_append, filter_linkFindings, reduceCtorEq, if_true,
      if_false, List.append_nil]
    exact forall₂_linkFindings rfl (fun name => infix_message _ name _) _
  · rw [ofCode_routeEntity hdoc rfl]
    simp only [pathLinkage, List.filter_append, filter_linkFindings, reduceCtorEq, if_true,
      if_false, List.append_nil, List.nil_append]
    refine forall₂_linkFindings rfl (fun name => ?_) _
    rw [String.append_assoc, String.append_assoc]
    exact infix_message _ name _
  · rw [ofCode_routeEntity hdoc rfl]
    simp only [pathLinkage, List.filter_append, filter_linkFindings, reduceCtorEq, if_true,
      if_false, List.append_nil, List.nil_append]
    exact forall₂_linkFindings rfl (fun name => infix_message _ name _) _
  · rw [ofCode_routeEntity hdoc rfl]
    simp only [pathLinkage, List.filter_append, filter_linkFindings, reduceCtorEq, if_true,
      if_false, List.nil_append]
    refine forall₂_linkFindings rfl (fun name => ?_) _
    rw [String.append_assoc, String.append_assoc]
    exact infix_message _ name _
  · rw [ofParams_routeEntity, hnoted]
    exact forall₂_unreferenced v.params
  · rw [List.countP_eq_length_filter]
    exact (congrArg List.length (filter_findings_routeEntity hdoc)).trans (length_told hnoted)

end Told

end Validation

variable {source : PackageSource Id} {depth : Nat} {config : Config} {files : List SourceFile}
  {cache : MetadataCache} {g : SymbolGraph}

/-- The tree of a route that was built tells what its linkage notes. -/
theorem tellsLinks_of_built (hg : (buildGraph source depth config files cache).1 = .ok g)
    {x : NodeIndex × RouteNode} (hx : g.node? x.1 = some (.route x.2)) :
    (Validation.routeEntity (Validation.routeView g x)).TellsLinks x.2 := by
  obtain ⟨c, decl, hroute, hleads, hdirectives⟩ :=
    SymbolGraph.exists_decl (sound_of_built hg).1.shape hx
  -- The parameters below the route are the ones that were linked, in their order.
  have hparams := SymbolGraph.map_snd_parameters hleads
    (source.numbered_routePartsOf config c.node decl)
  refine Validation.tellsLinks_routeEntity (v := Validation.routeView g x) hdirectives ?_
  unfold Validation.routeView
  dsimp only
  rw [hparams, ← hroute]
  rfl

/-- In a graph that was built without a failure every route belongs to a controller, and the trees
of the controllers hold a tree for each route, in their order, which tells what the linkage of the
route notes: each fault once and at its place, those about parameters at the parameters. So there
are errors about links in the tree of a route if and only if the linkage is not clean. -/
theorem links_told (hg : (buildGraph source depth config files cache).1 = .ok g) :
    (∀ i r, g.node? i = some (.route r) → ∃ c ∈ g.controllers, (i, r) ∈ g.routes c.1) ∧
      List.Forall₂ (fun c tree => tree.kind = .controller ∧ tree.name = c.2.id.name ∧
          List.Forall₂ (fun x (e : DiagnosticEntity) => e.TellsLinks x.2) (g.routes c.1)
            tree.children)
        g.controllers (g.validate.take g.controllers.length) := by
  refine ⟨fun i r hi => SymbolGraph.exists_controller (sound_of_built hg).1.shape hi, ?_⟩
  have htrees : g.validate.take g.controllers.length =
      g.controllers.map (Validation.controllerEntity g) := by
    unfold SymbolGraph.validate
    rw [List.take_left' (List.length_map _)]
  rw [htrees, List.forall₂_map_right_iff, List.forall₂_same]
  intro c _
  refine ⟨rfl, rfl, ?_⟩
  unfold Validation.controllerEntity
  rw [List.forall₂_map_right_iff, List.forall₂_same]
  intro x hx
  exact tellsLinks_of_built hg (SymbolGraph.mem_routes_iff.1 hx).2

/-- A controller with a route in which each kind of link is broken once. -/
def Shop.stock : SourceFile where
  path := ⟨"stock.go"⟩
  package := "shop"
  types := [⟨"Stock", .struct [field none (named "ControllerBase")], {}, {}⟩]
  methods :=
    [method "Stock" "Move" ("@Method(POST)\n@Route(/stock/\x7bshelf\x7d/\x7bgone\x7d)\n" ++
        "@Path(shelf)\n@Query(shelf)\n@Path(row)\n@Header(ghost)")
      [("shelf", named "string"), ("row", named "int"), ("count", named "int")] [named "error"]]

/-- The packages of a shop that has nothing but its stock. -/
def Shop.stockPackages : PackageSource Id :=
  { Shop.packages with package := fun _ => pure ⟨"shop", "shop", ⟨"."⟩, [Shop.stock]⟩ }

/-- The broken links of the stock are told once each, the one about a parameter last. -/
theorem links_told_stock :
    ∃ g, (buildGraph Shop.stockPackages 4 {} [Shop.stock] {}).1 = .ok g ∧
      (g.controllers.map fun c => (g.routes c.1).map fun x => x.2.linkage.size) = [[5]] ∧
      (g.validate.map fun e => (e.findings.filter Diagnostic.isAboutLinks).map (·.code)) =
        [[.missingPathReference, .unknownParameterReference, .duplicateParameterReference,
          .pathParameterNotInRoute, .unreferencedParameter]] ∧
      List.Forall₂ (fun c tree => tree.kind = .controller ∧ tree.name = c.2.id.name ∧
          List.Forall₂ (fun x (e : DiagnosticEntity) => e.TellsLinks x.2) (g.routes c.1)
            tree.children)
        g.controllers (g.validate.take g.controllers.length) := by
  obtain ⟨g, hg, hfound⟩ := exists_eq_ok
    (x := (buildGraph Shop.stockPackages 4 {} [Shop.stock] {}).1)
    (f := fun g => (g.controllers.map fun c => (g.routes c.1).map fun x => x.2.linkage.size,
      g.validate.map fun e => (e.findings.filter Diagnostic.isAboutLinks).map (·.code)))
    (b := ([[5]], [[.missingPathReference, .unknownParameterReference,
      .duplicateParameterReference, .pathParameterNotInRoute, .unreferencedParameter]]))
    (by decide +kernel)
  obtain ⟨hsizes, hcodes⟩ := Prod.mk.inj hfound
  exact ⟨g, hg, hsizes, hcodes, (links_told hg).2⟩

end RouteAtlas
