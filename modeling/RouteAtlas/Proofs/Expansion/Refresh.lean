import RouteAtlas.Proofs.Expansion.Visit

/-!
# Refreshing cached metadata

Metadata that was read off the same declaration before, in whatever surroundings, is as good as the
declaration itself: to refresh it, the same type expressions are visited in the same order as to
compute it anew, and the result is the same (`plan_of_describedBy`, `planned?_of_describedBy`).
Cached fields are looked up by name, so a struct has to give its fields different names.
-/

set_option autoImplicit false

namespace RouteAtlas

/-- The fields of a struct. -/
def TypeShape.fields : TypeShape → List FieldDecl
  | .struct fields => fields
  | .interface | .named _ | .synonym _ => []

/-- A declaration in which no two fields have the same name, blank ones aside. -/
def TypeDecl.DistinctFields (decl : TypeDecl) : Prop :=
  decl.shape.fields.Pairwise fun f f' => f.label = f'.label → f.label = "_"

instance (decl : TypeDecl) : Decidable decl.DistinctFields :=
  inferInstanceAs (Decidable (decl.shape.fields.Pairwise fun f f' =>
    f.label = f'.label → f.label = "_"))

/-- Metadata that was read off a declaration with the same identity and the same text. -/
def ResolvedDecl.DescribedBy (d : ResolvedDecl) (m : ModelMetadata) : Prop :=
  ∃ (source : PackageSource Id) (d₀ : ResolvedDecl),
    d₀.id = d.id ∧ d₀.decl = d.decl ∧ source.metadata? d₀ = some m

/-- A field that is on the wire is not the blank one. -/
theorem FieldDecl.label_ne_blank {f : FieldDecl} (h : f.wireName?.isSome = true) :
    f.label ≠ "_" := by
  intro hlabel
  have hcapital : Text.startsCapital "_" = false := by decide
  simp [wireName?, hlabel, hcapital] at h

/-- A field with a name is found under it. -/
theorem find?_label {fields : List FieldDecl}
    (h : fields.Pairwise fun f f' => f.label = f'.label → f.label = "_") {f : FieldDecl}
    (hf : f ∈ fields) (hblank : f.label ≠ "_") :
    fields.find? (·.label == f.label) = some f := by
  induction fields with
  | nil => simp at hf
  | cons first rest ih =>
    obtain ⟨hfirst, hrest⟩ := List.pairwise_cons.1 h
    by_cases hlabel : first.label = f.label
    · rw [List.find?_cons_of_pos (by simpa using hlabel)]
      rcases List.mem_cons.1 hf with rfl | hf
      · rfl
      · exact absurd (hlabel ▸ hfirst f hf hlabel) hblank
    · rw [List.find?_cons_of_neg (by simpa using hlabel)]
      rcases List.mem_cons.1 hf with rfl | hf
      · exact absurd rfl hlabel
      · exact ih hrest hf

section Fields

variable (source source₀ : PackageSource Id) {d d₀ : ResolvedDecl} {fields : List FieldDecl}
  (h : fields.Pairwise fun f f' => f.label = f'.label → f.label = "_")

include h

/-- A declared field either has no name in documents, or it is found by its label. -/
theorem wireName?_cases {f : FieldDecl} (hf : f ∈ fields) :
    f.wireName? = none ∨ ∃ wireName, f.wireName? = some wireName ∧
      fields.find? (·.label == f.label) = some f := by
  cases hw : f.wireName? with
  | none => exact .inl rfl
  | some wireName =>
    exact .inr ⟨wireName, rfl, find?_label h hf (FieldDecl.label_ne_blank (by simp [hw]))⟩

/-- The fields that were read off some declared fields give what the declared ones give. -/
theorem refreshedFields?_filterMap {l : List FieldDecl} (hl : ∀ f ∈ l, f ∈ fields) :
    source.refreshedFields? d fields (l.filterMap (source₀.fieldOf? d₀)) =
      some (l.filterMap (source.fieldOf? d)) := by
  induction l with
  | nil => rfl
  | cons f l ih =>
    have hrest := ih fun f hf => hl f (by simp [hf])
    rcases wireName?_cases h (hl f (by simp)) with hw | ⟨wireName, hw, hfind⟩
    · simpa [PackageSource.fieldOf?, hw] using hrest
    · simp only [List.filterMap_cons, PackageSource.fieldOf?, hw, Option.map_some]
      rw [PackageSource.refreshedFields?]
      simp only [hfind]
      rw [hrest]
      rfl

/-- The fields that were read off some declared fields lead to the types of the declared ones. -/
theorem cachedFieldParts_filterMap {l : List FieldDecl} (hl : ∀ f ∈ l, f ∈ fields) :
    ResolvedDecl.cachedFieldParts fields (l.filterMap (source₀.fieldOf? d₀)) =
      (l.filter (·.wireName?.isSome)).map fun f => (.field f.label, f.type) := by
  induction l with
  | nil => rfl
  | cons f l ih =>
    have hrest := ih fun f hf => hl f (by simp [hf])
    rcases wireName?_cases h (hl f (by simp)) with hw | ⟨wireName, hw, hfind⟩
    · simpa [PackageSource.fieldOf?, hw] using hrest
    · simp only [List.filterMap_cons, PackageSource.fieldOf?, hw, Option.map_some]
      rw [ResolvedDecl.cachedFieldParts]
      simp only [hfind]
      rw [hrest, List.filter_cons_of_pos (by simp [hw])]
      rfl

end Fields

namespace PackageSource

variable (source : PackageSource Id) {d : ResolvedDecl} {m : ModelMetadata}

/-- Either the metadata of a declaration is refreshed from what was read off it before, and then by
way of all its types, or it is computed anew. -/
theorem refreshed?_of_describedBy (hdistinct : d.decl.DistinctFields) (h : d.DescribedBy m) :
    (source.refreshed? d m = source.metadata? d ∧ d.cachedParts m = d.parts) ∨
      (source.refreshed? d m = none ∧ d.cachedParts m = []) := by
  obtain ⟨source₀, d₀, hid, hdecl, hm⟩ := h
  unfold metadata? at hm
  rw [hdecl, hid] at hm
  unfold metadata? refreshed? ResolvedDecl.cachedParts ResolvedDecl.parts
  cases hs : d.decl.shape with
  | interface => simp [hs] at hm
  | struct fields =>
    simp only [hs, Option.some.injEq] at hm
    subst hm
    have hpairwise : fields.Pairwise fun f f' => f.label = f'.label → f.label = "_" := by
      simpa [TypeDecl.DistinctFields, hs, TypeShape.fields] using hdistinct
    refine .inl ⟨?_, cachedFieldParts_filterMap source₀ hpairwise fun f hf => hf⟩
    simp only [refreshedFields?_filterMap source source₀ hpairwise fun f hf => hf]
    rfl
  | synonym e =>
    have hkind : d.kind = .synonym := by simp [ResolvedDecl.kind, hs]
    simp only [hs, Option.some.injEq] at hm
    subst hm
    simp [synonymOf, hkind, hid, hdecl]
  | named e =>
    simp only [hs] at hm
    by_cases henum : d₀.kind = .enum
    · rw [if_pos henum] at hm
      obtain rfl := Option.some.inj hm
      simp
    · rw [if_neg henum] at hm
      obtain rfl := Option.some.inj hm
      by_cases hkind : d.kind = .synonym
      · simp [synonymOf, hkind, hid, hdecl]
      · simp [synonymOf, hkind]

/-- To refresh what was read off a declaration before, the same types are visited as to compute it
anew. -/
theorem plan_of_describedBy (hmodel : d.kind.isModel = true) (hdistinct : d.decl.DistinctFields)
    (h : d.DescribedBy m) : d.plan source (some m) = d.parts := by
  obtain ⟨metadata, hmetadata⟩ := source.exists_metadata hmodel
  rw [ResolvedDecl.plan]
  rcases source.refreshed?_of_describedBy hdistinct h with ⟨hsome, hparts⟩ | ⟨hnone, hparts⟩
  · simp [hsome, hmetadata, hparts]
  · simp [hnone, hparts]

/-- Refreshing what was read off a declaration before gives what computing it anew gives. -/
theorem planned?_of_describedBy (hdistinct : d.decl.DistinctFields) (h : d.DescribedBy m) :
    source.planned? d (some m) = source.metadata? d := by
  rw [planned?]
  rcases source.refreshed?_of_describedBy hdistinct h with ⟨hsome, -⟩ | ⟨hnone, -⟩
  · rw [hsome, Option.or_self]
  · rw [hnone, Option.none_or]

end PackageSource

end RouteAtlas
