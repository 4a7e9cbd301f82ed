import RouteAtlas.Directive.Parser
import RouteAtlas.Proofs.Route.Deciding

/-!
# References to parameters

A reference is a directive that binds parameters and has a value: the name of those it binds. The
references of a route are gone through one after the other while parameters are being bound, and
what is noted about one depends on what the earlier ones have done. Yet everything that comes out
can be told from the references and the declared parameters alone: the first reference to a
parameter decides about it, the later ones are repeated, and the parameters as they are bound decide
about the placeholders (`linkParameters_exact`).
-/

set_option autoImplicit false

namespace RouteAtlas.Route

/-- A directive that names the parameters it binds. -/
structure Reference where
  location : ParamLocation
  directive : Directive
  /-- The name of the parameters. -/
  target : String

/-- What is noted about a reference that cannot be followed. -/
def Reference.issue (r : Reference) : LinkIssue := ⟨r.target, r.directive.valueOrSpan⟩

/-- A directive that binds parameters is a reference if it has a value. -/
def reference? (entry : ParamLocation × Directive) : Option Reference :=
  entry.2.value.map fun target => ⟨entry.1, entry.2, target⟩

/-- The references that some entries make. -/
def referencesAmong (entries : List (ParamLocation × Directive)) : List Reference :=
  entries.filterMap reference?

/-- The references of a route, in the order of its directives. -/
def references (set : DirectiveSet) : List Reference := referencesAmong set.locations

/-- The references that are not the first to their target. -/
def repeated (refs : List Reference) : List Reference :=
  (refs.zipIdx.filter fun x => (refs.take x.2).any (·.target == x.1.target)).map (·.1)

/-- What becomes of a parameter: the first reference to it binds it, and nothing else does. -/
structure Linked (refs : List Reference) (p p' : ParamNode) : Prop where
  context : p.isContext = true → p' = p
  bound_iff : p.isContext = false →
    (p'.location.isSome = true ↔ ∃ r ∈ refs, r.target = p.name)
  first : ∀ (before : List Reference) (r : Reference) (behind : List Reference),
    refs = before ++ r :: behind → p.isContext = false →
    r.target = p.name → (∀ b ∈ before, b.target ≠ p.name) →
    p' = { p with
      location := some r.location
      wireName := (r.directive.optionText? "name").getD p.name
      validator := r.directive.optionText? "validate"
      description := r.directive.description
      directiveSpan := some r.directive.span }
  unnamed : (∀ r ∈ refs, r.target ≠ p.name) → p' = p

/-- What linking the parameters of a route with a path gives. -/
structure Links (fullPath : String) (pathSpan : Span) (refs : List Reference)
    (params linked : List ParamNode) (linkage : Linkage) : Prop where
  parameters : List.Forall₂ (Linked refs) params linked
  unreferenced : linkage.unreferenced =
    (params.filter fun p => !p.isContext && refs.all (·.target != p.name)).map fun p =>
      ⟨p.name, p.span⟩
  unknownRefs : linkage.unknownRefs =
    (refs.filter fun r => params.all fun p => p.isContext || p.name != r.target).map (·.issue)
  duplicateRefs : linkage.duplicateRefs = (repeated refs).flatMap fun r =>
    (params.filter fun p => !p.isContext && p.name == r.target).map fun _ => r.issue
  missingPathRefs : linkage.missingPathRefs =
    ((placeholders fullPath).filter fun slot => linked.all fun p =>
      p.location != some .path || p.wireName != slot).map fun slot => ⟨slot, pathSpan⟩
  notInRoute : List.Forall₂ (fun p issue => issue.name = p.wireName ∧
      p.directiveSpan = some issue.span)
    (linked.filter fun p =>
      p.location == some .path && !(placeholders fullPath).contains p.wireName)
    linkage.notInRoute

variable {refs : List Reference} {entry : ParamLocation × Directive} {p : ParamNode}
  {params : List ParamNode}

/-! ## The parameters -/

/-- A parameter after the first reference to it. -/
def linkedBy (refs : List Reference) (p : ParamNode) : ParamNode :=
  match refs.find? fun r => names r.target p with
  | some r => bound r.location r.directive p
  | none => p

/-- A parameter is bound by the first reference that names it. -/
theorem linkedBy_of_first {r : Reference}
    (h : refs.find? (fun r => names r.target p) = some r) :
    linkedBy refs p = bound r.location r.directive p := by
  unfold linkedBy
  rw [h]

/-- A parameter that no reference names stays as it is. -/
theorem linkedBy_of_none (h : ∀ r ∈ refs, names r.target p = false) : linkedBy refs p = p := by
  have hnone : refs.find? (fun r => names r.target p) = none := by
    rw [List.find?_eq_none]
    intro r hr
    simp [h r hr]
  unfold linkedBy
  rw [hnone]

/-- The first reference binds the parameters that it names. -/
theorem linkedBy_cons_of_named {r : Reference} (h : names r.target p = true) :
    linkedBy (r :: refs) p = bound r.location r.directive p := by
  apply linkedBy_of_first
  exact List.find?_cons_of_pos (p := fun r : Reference => names r.target p) h

/-- A reference that does not name a parameter does nothing to it. -/
theorem linkedBy_cons_of_not_named {r : Reference} (h : names r.target p = false) :
    linkedBy (r :: refs) p = linkedBy refs p := by
  unfold linkedBy
  rw [List.find?_cons_of_neg (p := fun r : Reference => names r.target p) (by simp [h])]

/-- The directive that decides about a parameter is the first reference to it. -/
theorem decided_eq (entries : List (ParamLocation × Directive)) (p : ParamNode) :
    decided entries p = linkedBy (referencesAmong entries) p := by
  unfold decided deciding? referencesAmong
  induction entries with
  | nil => rfl
  | cons entry entries ih =>
    cases hvalue : entry.2.value with
    | none =>
      have hskip : isNamedBy p entry = false := by simp [isNamedBy, hvalue]
      have href : reference? entry = none := by simp [reference?, hvalue]
      rw [List.find?_cons_of_neg (by simp [hskip]), List.filterMap_cons_none href, ih]
    | some target =>
      have hnamed : isNamedBy p entry = names target p := by simp [isNamedBy, hvalue]
      have href : reference? entry = some ⟨entry.1, entry.2, target⟩ := by
        simp [reference?, hvalue]
      rw [List.filterMap_cons_some href]
      cases hr : names target p with
      | true => rw [List.find?_cons_of_pos (hnamed.trans hr), linkedBy_cons_of_named hr]
      | false =>
        rw [List.find?_cons_of_neg (by simp [hnamed, hr]), linkedBy_cons_of_not_named hr, ih]

/-- A reference changes neither the name of a parameter nor its place, nor whether it is a
context. -/
theorem linkedBy_keeps (refs : List Reference) (p : ParamNode) :
    (linkedBy refs p).name = p.name ∧ (linkedBy refs p).span = p.span ∧
      (linkedBy refs p).isContext = p.isContext := by
  unfold linkedBy
  split
  · exact ⟨rfl, rfl, rfl⟩
  · exact ⟨rfl, rfl, rfl⟩

/-- Linking changes nothing about what names a parameter. -/
theorem names_linkedBy (target : String) (refs : List Reference) (p : ParamNode) :
    names target (linkedBy refs p) = names target p := by
  obtain ⟨hname, -, hcontext⟩ := linkedBy_keeps refs p
  unfold names
  rw [hname, hcontext]

/-- A parameter is bound if and only if there is a reference to it. -/
theorem isSome_location_linkedBy (hp : p.location = none) :
    (linkedBy refs p).location.isSome = refs.any fun r => names r.target p := by
  induction refs with
  | nil => simp [linkedBy, hp]
  | cons r refs ih =>
    rw [List.any_cons]
    cases hr : names r.target p with
    | true =>
      rw [linkedBy_cons_of_named hr]
      rfl
    | false => rw [linkedBy_cons_of_not_named hr, ih, Bool.false_or]

/-- A parameter without a location is linked as the references say. -/
theorem linked_linkedBy (hp : p.location = none) : Linked refs p (linkedBy refs p) where
  context := by
    intro hc
    apply linkedBy_of_none
    simp [names, hc]
  bound_iff := by
    intro hc
    rw [isSome_location_linkedBy hp, List.any_eq_true]
    simp only [names, hc, Bool.not_false, Bool.true_and, beq_iff_eq]
    simp only [eq_comm]
  first := by
    intro before r behind hrefs hc hr hbefore
    have hfirst : refs.find? (fun r => names r.target p) = some r := by
      rw [hrefs, List.find?_eq_some_iff_append]
      refine ⟨by simp [names, hc, hr], before, behind, rfl, ?_⟩
      intro b hb
      simp [names, hc, Ne.symm (hbefore b hb)]
    rw [linkedBy_of_first hfirst]
    rfl
  unnamed := by
    intro hnone
    apply linkedBy_of_none
    intro r hr
    simp [names, Ne.symm (hnone r hr)]

/-- A parameter that is bound knows the place of the directive that has bound it. -/
theorem isSome_directiveSpan_linkedBy (hp : p.location = none)
    (h : (linkedBy refs p).location.isSome = true) :
    (linkedBy refs p).directiveSpan.isSome = true := by
  unfold linkedBy at h ⊢
  split at h
  · rfl
  · rw [hp] at h
    cases h

/-! ## The references -/

/-- One more reference is repeated if an earlier one has its target. -/
theorem repeated_concat (refs : List Reference) (r : Reference) :
    repeated (refs ++ [r]) =
      repeated refs ++ if refs.any (·.target == r.target) then [r] else [] := by
  have hearlier : refs.zipIdx.filter
        (fun x => ((refs ++ [r]).take x.2).any (·.target == x.1.target)) =
      refs.zipIdx.filter fun x => (refs.take x.2).any (·.target == x.1.target) := by
    apply List.filter_congr
    rintro ⟨x, i⟩ hx
    have hi : i ≤ refs.length := by
      have := (List.mem_zipIdx hx).2.1
      omega
    rw [List.take_append_of_le_length hi]
  unfold repeated
  rw [List.zipIdx_append, List.filter_append, List.map_append, hearlier]
  congr 1
  cases hany : refs.any (·.target == r.target) <;> simp [hany]

/-- An entry that refers to nothing changes nothing. -/
theorem step_of_none (b : Binding) (h : reference? entry = none) : b.step entry = b := by
  have hvalue : entry.2.value = none := Option.map_eq_none_iff.1 h
  unfold Binding.step
  simp only [hvalue]

/-- A reference to no parameter is noted as unknown. -/
theorem unknownRefs_step (b : Binding) {r : Reference} (h : reference? entry = some r) :
    (b.step entry).unknownRefs =
      b.unknownRefs ++ if b.params.any (names r.target) then [] else [r.issue] := by
  obtain ⟨target, hvalue, rfl⟩ := Option.map_eq_some_iff.1 h
  unfold Binding.step
  simp only [hvalue]
  split
  · simp
  · rfl

/-- A reference is noted once for each parameter of its name that is bound already. -/
theorem duplicateRefs_step (b : Binding) {r : Reference} (h : reference? entry = some r) :
    (b.step entry).duplicateRefs = b.duplicateRefs ++
      (b.params.filter fun p => names r.target p && p.location.isSome).map fun _ => r.issue := by
  obtain ⟨target, hvalue, rfl⟩ := Option.map_eq_some_iff.1 h
  unfold Binding.step
  simp only [hvalue]
  split
  · rfl
  · rename_i hnone
    have hempty : (b.params.filter fun p => names target p && p.location.isSome) = [] := by
      rw [List.filter_eq_nil_iff]
      intro p hp hboth
      apply hnone
      rw [List.any_eq_true]
      exact ⟨p, hp, (Bool.and_eq_true_iff.1 hboth).1⟩
    simp [hempty]

/-- What is noted about some references to some parameters. -/
structure Noted (params : List ParamNode) (refs : List Reference) (b : Binding) : Prop where
  parameters : b.params = params.map (linkedBy refs)
  unknownRefs : b.unknownRefs = (refs.filter fun r => !params.any (names r.target)).map (·.issue)
  duplicateRefs : b.duplicateRefs = (repeated refs).flatMap fun r =>
    (params.filter (names r.target)).map fun _ => r.issue

/-- One more reference is noted as the earlier ones say. -/
theorem Noted.step (hparams : ∀ p ∈ params, p.location = none) {b : Binding}
    (h : Noted params refs b) {r : Reference} (href : reference? entry = some r) :
    (b.step entry).unknownRefs =
        ((refs ++ [r]).filter fun r => !params.any (names r.target)).map (·.issue) ∧
      (b.step entry).duplicateRefs = (repeated (refs ++ [r])).flatMap fun r =>
        (params.filter (names r.target)).map fun _ => r.issue := by
  have hany : b.params.any (names r.target) = params.any (names r.target) := by
    rw [h.parameters, List.any_map]
    simp only [Function.comp_def, names_linkedBy]
  -- Whether a parameter of the name is bound already depends on the earlier references alone.
  have hbound : ∀ p ∈ params, (names r.target (linkedBy refs p) &&
        (linkedBy refs p).location.isSome) =
      (names r.target p && refs.any (·.target == r.target)) := by
    intro p hp
    rw [isSome_location_linkedBy (hparams p hp), names_linkedBy]
    cases hnames : names r.target p with
    | false => rfl
    | true =>
      obtain ⟨hc, hname⟩ : p.isContext = false ∧ p.name = r.target := by
        simpa [names] using hnames
      simp [names, hc, hname, BEq.comm]
  constructor
  · rw [unknownRefs_step b href, h.unknownRefs, hany, List.filter_append, List.map_append]
    cases hcase : params.any (names r.target) <;> simp [hcase]
  · rw [duplicateRefs_step b href, h.duplicateRefs, repeated_concat, List.flatMap_append,
      h.parameters, List.filter_map, List.map_map]
    congr 1
    have hfilter : params.filter ((fun p => names r.target p && p.location.isSome) ∘
        linkedBy refs) = params.filter fun p =>
          names r.target p && refs.any (·.target == r.target) := List.filter_congr hbound
    rw [hfilter]
    cases refs.any (·.target == r.target) <;> simp [Function.comp_def]

/-- What is noted behind some entries is told by the references among them. -/
theorem noted_foldl (hparams : ∀ p ∈ params, p.location = none)
    (entries : List (ParamLocation × Directive)) :
    Noted params (referencesAmong entries)
      (entries.foldl Binding.step ⟨params, [], []⟩) := by
  have hlinked : ∀ entries : List (ParamLocation × Directive),
      (entries.foldl Binding.step ⟨params, [], []⟩).params =
        params.map (linkedBy (referencesAmong entries)) := by
    intro entries
    rw [params_foldl entries hparams]
    exact List.map_congr_left fun p _ => decided_eq entries p
  induction entries using List.reverseRecOn with
  | nil => exact ⟨hlinked [], rfl, rfl⟩
  | append_singleton entries entry ih =>
    cases href : reference? entry with
    | none =>
      have hsame : referencesAmong (entries ++ [entry]) = referencesAmong entries := by
        simp [referencesAmong, href]
      rw [hsame, List.foldl_concat, step_of_none _ href]
      exact ih
    | some r =>
      have hmore : referencesAmong (entries ++ [entry]) = referencesAmong entries ++ [r] := by
        simp [referencesAmong, href]
      have hstep := ih.step hparams href
      rw [← hmore] at hstep
      refine ⟨hlinked _, ?_, ?_⟩
      · rw [List.foldl_concat, hstep.1]
      · rw [List.foldl_concat, hstep.2]

/-! ## The whole linkage -/

/-- The parameters that are left without a location are those without a reference. -/
theorem unreferenced_eq (h : ∀ p ∈ params, p.location = none) :
    ((params.map (linkedBy refs)).filter fun p => !p.isContext && p.location.isNone).map
        (fun p => (⟨p.name, p.span⟩ : LinkIssue)) =
      (params.filter fun p => !p.isContext && refs.all (·.target != p.name)).map fun p =>
        ⟨p.name, p.span⟩ := by
  rw [List.filter_map, List.map_map]
  have hfilter : params.filter ((fun p => !p.isContext && p.location.isNone) ∘ linkedBy refs) =
      params.filter fun p => !p.isContext && refs.all (·.target != p.name) := by
    apply List.filter_congr
    intro p hp
    have hlocation : (linkedBy refs p).location.isSome = refs.any fun r => names r.target p :=
      isSome_location_linkedBy (h p hp)
    show (!(linkedBy refs p).isContext && (linkedBy refs p).location.isNone) = _
    rw [(linkedBy_keeps refs p).2.2, ← Option.not_isSome, hlocation, List.not_any_eq_all_not]
    cases hc : p.isContext with
    | true => rfl
    | false => simp [names, hc, bne, BEq.comm]
  rw [hfilter]
  apply List.map_congr_left
  intro p _
  show (⟨(linkedBy refs p).name, (linkedBy refs p).span⟩ : LinkIssue) = _
  rw [(linkedBy_keeps refs p).1, (linkedBy_keeps refs p).2.1]

/-- The parameters in the path that are bound to no placeholder are noted at the places of the
directives that have bound them. -/
theorem forall₂_notInRoute (h : ∀ p ∈ params, p.location = none) (slots : List String) :
    List.Forall₂ (fun p issue => issue.name = p.wireName ∧ p.directiveSpan = some issue.span)
      ((params.map (linkedBy refs)).filter fun p =>
        p.location == some .path && !slots.contains p.wireName)
      ((((params.map (linkedBy refs)).filter inPath).filter fun p =>
        !slots.contains p.wireName).map fun p =>
          (⟨p.wireName, p.directiveSpan.getD p.span⟩ : LinkIssue)) := by
  have hboth : ∀ p : ParamNode, (!slots.contains p.wireName && inPath p) =
      (p.location == some .path && !slots.contains p.wireName) :=
    fun p => Bool.and_comm _ _
  rw [List.filter_filter, List.forall₂_map_right_iff]
  simp only [hboth]
  rw [List.forall₂_same]
  intro p' hp'
  obtain ⟨hmem, hpath⟩ := List.mem_filter.1 hp'
  obtain ⟨p, hp, rfl⟩ := List.mem_map.1 hmem
  have hbound : (linkedBy refs p).location.isSome = true := by
    rw [beq_iff_eq.1 (Bool.and_eq_true_iff.1 hpath).1]
    rfl
  obtain ⟨span, hspan⟩ :=
    Option.isSome_iff_exists.1 (isSome_directiveSpan_linkedBy (h p hp) hbound)
  refine ⟨rfl, ?_⟩
  rw [hspan, Option.getD_some]

/-- What linking does to the parameters of a route, and what it notes. -/
theorem linkParameters_exact (fullPath : String) (pathSpan : Span) (set : DirectiveSet)
    (h : ∀ p ∈ params, p.location = none) :
    Links fullPath pathSpan (references set) params
      (linkParameters fullPath pathSpan set params).1
      (linkParameters fullPath pathSpan set params).2 := by
  have hnoted : Noted params (references set) (bindAll set params) := noted_foldl h set.locations
  unfold linkParameters
  dsimp only
  rw [hnoted.parameters]
  refine ⟨?_, unreferenced_eq h, ?_, hnoted.duplicateRefs, ?_, forall₂_notInRoute h _⟩
  · rw [List.forall₂_map_right_iff, List.forall₂_same]
    exact fun p hp => linked_linkedBy (h p hp)
  · rw [hnoted.unknownRefs]
    simp [names, List.not_any_eq_all_not, bne]
  · simp [inPath, List.not_any_eq_all_not, bne, Function.comp_def]

/-- A parameter that is a text or the context. -/
def textParam (ordinal : Nat) (name : String) (isContext : Bool) : ParamNode where
  ordinal := ordinal
  name := name
  span := {}
  type := ⟨"string", "string", "", "", "", .predeclared, true, false, .builtin, none, []⟩
  wireName := name
  isContext := isContext

/-- Parameters of which a context shares its name with another one, and two others do as well. -/
def tangledParams : List ParamNode :=
  [textParam 0 "id" true, textParam 1 "id" false, textParam 2 "limit" false,
   textParam 3 "limit" false, textParam 4 "slug" false, textParam 5 "rest" false]

/-- Directives among which there are repeated references, unknown ones and another name in the
path. -/
def tangledSet : DirectiveSet :=
  .ofText ("@Path(id, \x7bname: \"key\"\x7d)\n@Query(limit)\n@Header(limit)\n@Query(ghost)\n" ++
    "@Path(slug)\n@Header(ghost)")

/-- The path of the tangled route, in which placeholders are repeated. -/
def tangledPath : String := "/x/\x7bkey\x7d/\x7bkey\x7d/\x7bgone\x7d/\x7bgone\x7d"

/-- Repeated and missing references are told apart in one route. -/
theorem linkParameters_exact_tangled :
    (∀ p ∈ tangledParams, p.location = none) ∧
      ((linkParameters tangledPath {} tangledSet tangledParams).1.map fun p =>
        (p.location, p.wireName)) =
        [(none, "id"), (some .path, "key"), (some .query, "limit"), (some .query, "limit"),
         (some .path, "slug"), (none, "rest")] ∧
      (linkParameters tangledPath {} tangledSet tangledParams).2.duplicateRefs.map (·.name) =
        ["limit", "limit"] ∧
      Links tangledPath {} (references tangledSet) tangledParams
        (linkParameters tangledPath {} tangledSet tangledParams).1
        (linkParameters tangledPath {} tangledSet tangledParams).2 := by
  have hnone : ∀ p ∈ tangledParams, p.location = none := by decide +kernel
  exact ⟨hnone, by decide +kernel, by decide +kernel,
    linkParameters_exact tangledPath {} tangledSet hnone⟩

end RouteAtlas.Route
