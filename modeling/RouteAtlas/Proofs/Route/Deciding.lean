import RouteAtlas.Proofs.Route.Binding

/-!
# Which directive decides

The directives of a route are gone through one after the other, and each may bind any parameter. But
for one parameter only one of them counts, the first that names it, so what becomes of a parameter
can be told without the others.
-/

set_option autoImplicit false

namespace RouteAtlas.Route

variable {entries : List (ParamLocation × Directive)} {p : ParamNode}

/-- Whether a directive names a parameter. -/
def isNamedBy (p : ParamNode) (entry : ParamLocation × Directive) : Bool :=
  entry.2.value.any fun target => names target p

/-- The directive that decides about a parameter: the first one that names it. -/
def deciding? (entries : List (ParamLocation × Directive)) (p : ParamNode) :
    Option (ParamLocation × Directive) :=
  entries.find? (isNamedBy p)

/-- A parameter after the directive that decides about it. -/
def decided (entries : List (ParamLocation × Directive)) (p : ParamNode) : ParamNode :=
  match deciding? entries p with
  | some (location, a) => bound location a p
  | none => p

/-- A parameter after one directive, which may have no value. -/
def afterEntry (p : ParamNode) (entry : ParamLocation × Directive) : ParamNode :=
  match entry.2.value with
  | some target => bindIfNamed entry.1 entry.2 target p
  | none => p

/-- An entry that does not name a parameter leaves it as it is. -/
theorem afterEntry_of_not_named {entry : ParamLocation × Directive}
    (h : isNamedBy p entry = false) : afterEntry p entry = p := by
  unfold afterEntry
  cases hvalue : entry.2.value with
  | none => rfl
  | some target =>
    have hnames : names target p = false := by simpa [isNamedBy, hvalue] using h
    simp [bindIfNamed, hnames]

/-- A parameter that is bound stays as it is. -/
theorem afterEntry_of_bound (h : p.location.isSome = true) (entry : ParamLocation × Directive) :
    afterEntry p entry = p := by
  unfold afterEntry
  cases entry.2.value with
  | none => rfl
  | some target =>
    have hbound : p.location.isNone = false := by
      rw [← Option.not_isSome, h]
      rfl
    simp [bindIfNamed, hbound]

/-- The first entry that names a parameter binds it. -/
theorem afterEntry_of_named {entry : ParamLocation × Directive} (hnone : p.location = none)
    (h : isNamedBy p entry = true) : afterEntry p entry = bound entry.1 entry.2 p := by
  unfold afterEntry
  cases hvalue : entry.2.value with
  | none => simp [isNamedBy, hvalue] at h
  | some target =>
    have hnames : names target p = true := by simpa [isNamedBy, hvalue] using h
    simp [bindIfNamed, hnames, hnone]

/-- A directive does to each parameter what it does to it alone. -/
theorem params_step (b : Binding) (entry : ParamLocation × Directive) :
    (b.step entry).params = b.params.map fun p => afterEntry p entry := by
  obtain ⟨location, a⟩ := entry
  rw [Binding.step]
  cases hvalue : a.value with
  | none => simp [afterEntry, hvalue]
  | some target =>
    simp only
    split
    · simp [afterEntry, hvalue]
    · rename_i hnone
      have hsame : ∀ p ∈ b.params, afterEntry p (location, a) = p := by
        intro p hp
        apply afterEntry_of_not_named
        simp only [List.any_eq_true, not_exists, not_and, Bool.not_eq_true] at hnone
        simp [isNamedBy, hvalue, hnone p hp]
      rw [List.map_congr_left hsame, List.map_id']

/-- Of all directives, only the one that decides does something to a parameter. -/
theorem foldl_afterEntry (h : p.location = none) :
    entries.foldl afterEntry p = decided entries p := by
  induction entries with
  | nil => rfl
  | cons entry entries ih =>
    rw [List.foldl_cons]
    cases hnamed : isNamedBy p entry with
    | true =>
      have hrest : ∀ l : List (ParamLocation × Directive),
          l.foldl afterEntry (bound entry.1 entry.2 p) = bound entry.1 entry.2 p := by
        intro l
        induction l with
        | nil => rfl
        | cons e l ih => rw [List.foldl_cons, afterEntry_of_bound rfl, ih]
      rw [afterEntry_of_named h hnamed, hrest, decided, deciding?,
        List.find?_cons_of_pos hnamed]
    | false =>
      rw [afterEntry_of_not_named hnamed, ih, decided, decided, deciding?, deciding?,
        List.find?_cons_of_neg (by simp [hnamed])]

/-- Several directives do to each parameter what they do to it alone. -/
theorem params_foldl_step (entries : List (ParamLocation × Directive)) (b : Binding) :
    (entries.foldl Binding.step b).params = b.params.map (entries.foldl afterEntry) := by
  induction entries generalizing b with
  | nil => exact (List.map_id' b.params).symm
  | cons entry entries ih =>
    rw [List.foldl_cons, ih, params_step, List.map_map]
    rfl

/-- Some entries decide every parameter by itself. -/
theorem params_foldl (entries : List (ParamLocation × Directive)) {params : List ParamNode}
    (h : ∀ p ∈ params, p.location = none) :
    (entries.foldl Binding.step ⟨params, [], []⟩).params = params.map (decided entries) := by
  rw [params_foldl_step]
  exact List.map_congr_left fun p hp => foldl_afterEntry (h p hp)

/-- The locations of a set decide every parameter by itself. -/
theorem params_bindAll (set : DirectiveSet) {params : List ParamNode}
    (h : ∀ p ∈ params, p.location = none) :
    (bindAll set params).params = params.map (decided set.locations) :=
  params_foldl set.locations h

/-- The name of a parameter in the path, if the directive that decides puts it there. -/
def pathName? (entries : List (ParamLocation × Directive)) (p : ParamNode) : Option String :=
  match deciding? entries p with
  | some (.path, a) => some ((a.optionText? "name").getD p.name)
  | _ => none

/-- The names of the parameters in the path are those that the deciding directives give. -/
theorem pathNames_bindAll (set : DirectiveSet) {params : List ParamNode}
    (h : ∀ p ∈ params, p.location = none) :
    ((bindAll set params).params.filter inPath).map (·.wireName) =
      params.filterMap (pathName? set.locations) := by
  rw [params_bindAll set h, ← List.filterMap_eq_map, ← List.filterMap_eq_filter,
    List.filterMap_filterMap, List.filterMap_map]
  refine List.filterMap_congr fun p hp => ?_
  have hnone := h p hp
  simp only [Function.comp_apply, decided, pathName?]
  rcases deciding? set.locations p with _ | ⟨location, a⟩
  · simp [inPath, hnone]
  · cases location <;> simp [inPath, bound]

end RouteAtlas.Route
