import RouteAtlas.Proofs.Expansion.Visit

/-!
# What metadata refers to

The models that the use of a type refers to are those that its innermost types resolve to, and the
models that metadata refers to are those of the type expressions it was made from. So what an
expansion has to visit can be read off the metadata it gives.
-/

set_option autoImplicit false

namespace RouteAtlas

namespace TypeUse

/-- The models of a use inside containers: those in the containers, and its own. -/
theorem referencedModels_within (t : TypeUse) (layers : List TypeLayer) :
    (t.within layers).referencedModels = referencedByLayers layers ++ t.modelId?.toList := by
  obtain ⟨name, baseName, packagePath, packageName, description, importKind, isBuiltin,
    isByReference, symbolKind, synonym, _⟩ := t
  simp only [within, referencedModels, modelId?]
  split <;> rfl

end TypeUse

namespace PackageSource

variable (source : PackageSource Id)

/-- An innermost type of an expression that refers to the declaration of a model. -/
def Mentions (file : SourceFile) (packagePath : String) (leaves : List TypeExpr)
    (d : ResolvedDecl) : Prop :=
  d.kind.isModel = true ∧ ∃ leaf ∈ leaves, source.resolve file packagePath leaf = .ok (.declared d)

variable {source} {file : SourceFile} {packagePath : String} {d : ResolvedDecl}

/-- What some innermost types mention is mentioned by more of them. -/
theorem Mentions.mono {l l' : List TypeExpr} (h : source.Mentions file packagePath l d)
    (hl : ∀ leaf ∈ l, leaf ∈ l') : source.Mentions file packagePath l' d := by
  obtain ⟨hk, leaf, hmem, hr⟩ := h
  exact ⟨hk, leaf, hl leaf hmem, hr⟩

variable (source file packagePath)

/-- The model of the use of an innermost type is the declaration it resolves to. -/
theorem modelId?_leafUse (leaf : TypeExpr) (id : DeclId) :
    (source.leafUse file packagePath leaf).modelId? = some id ↔
      ∃ d, source.Mentions file packagePath [leaf] d ∧ d.id = id := by
  unfold leafUse Mentions
  rcases hr : source.resolve file packagePath leaf with e | r
  · simp [hr, TypeUse.modelId?, TypeUse.bare, SymbolKind.isModel]
  · cases r with
    | declared d =>
      by_cases hk : d.kind.isModel = true
      · simp [hr, TypeUse.modelId?, ResolvedDecl.bareUse, TypeUse.bare, hk]
      · simp [hr, TypeUse.modelId?, ResolvedDecl.bareUse, TypeUse.bare, hk]
    | _ => simp [hr, TypeUse.modelId?, TypeUse.bare, SymbolKind.isModel]

/-- The models in the containers of an expression are those that the keys of its maps mention. -/
theorem mem_referencedByLayers_layersOf (e : TypeExpr) (id : DeclId) :
    id ∈ TypeUse.referencedByLayers (source.layersOf file packagePath e) ↔
      ∃ d, source.Mentions file packagePath e.keyLeaves d ∧ d.id = id := by
  induction e with
  | named q name => simp [layersOf, TypeExpr.keyLeaves, TypeUse.referencedByLayers, Mentions]
  | inline text => simp [layersOf, TypeExpr.keyLeaves, TypeUse.referencedByLayers, Mentions]
  | pointer elem ih | slice elem ih | array len elem ih | chan elem ih =>
    simpa [layersOf, TypeExpr.keyLeaves, TypeUse.referencedByLayers, TypeUse.referencedByLayer]
      using ih
  | map key value ihk ihv =>
    have hbase := modelId?_leafUse source file packagePath key.base id
    simp only [layersOf, TypeExpr.keyLeaves, TypeUse.referencedByLayers,
      TypeUse.referencedByLayer, TypeUse.referencedModels_within, List.mem_append,
      Option.mem_toList, ihk, ihv, hbase]
    constructor
    · rintro ((⟨d, hd, rfl⟩ | ⟨d, hd, rfl⟩) | ⟨d, hd, rfl⟩)
      · exact ⟨d, hd.mono (by simp +contextual), rfl⟩
      · exact ⟨d, hd.mono (by simp +contextual), rfl⟩
      · exact ⟨d, hd.mono (by simp +contextual), rfl⟩
    · rintro ⟨d, ⟨hk, leaf, hmem, hr⟩, rfl⟩
      rcases List.mem_append.1 hmem with hmem | hmem
      · rcases List.mem_cons.1 hmem with rfl | hmem
        · exact .inl (.inr ⟨d, ⟨hk, key.base, by simp, hr⟩, rfl⟩)
        · exact .inl (.inl ⟨d, ⟨hk, leaf, hmem, hr⟩, rfl⟩)
      · exact .inr ⟨d, ⟨hk, leaf, hmem, hr⟩, rfl⟩

/-- The models that the use of an expression refers to are those that its innermost types
mention. -/
theorem mem_referencedModels_useOf (e : TypeExpr) (id : DeclId) :
    id ∈ (source.useOf file packagePath e).referencedModels ↔
      ∃ d, source.Mentions file packagePath e.leaves d ∧ d.id = id := by
  rw [useOf, TypeUse.referencedModels_within, List.mem_append, Option.mem_toList,
    modelId?_leafUse, mem_referencedByLayers_layersOf]
  constructor
  · rintro (⟨d, hd, rfl⟩ | ⟨d, hd, rfl⟩)
    · exact ⟨d, hd.mono (by simp +contextual [TypeExpr.leaves]), rfl⟩
    · exact ⟨d, hd.mono (by simp +contextual [TypeExpr.leaves]), rfl⟩
  · rintro ⟨d, ⟨hk, leaf, hmem, hr⟩, rfl⟩
    rcases List.mem_cons.1 hmem with rfl | hmem
    · exact .inr ⟨d, ⟨hk, e.base, by simp, hr⟩, rfl⟩
    · exact .inl ⟨d, ⟨hk, leaf, hmem, hr⟩, rfl⟩

end PackageSource

namespace ModelMetadata

/-- The uses of types in metadata. -/
def types : ModelMetadata → List TypeUse
  | .struct s => s.fields.map (·.type)
  | .synonym a => [a.underlying]
  | .enum _ => []

/-- The models that metadata refers to. -/
def references (m : ModelMetadata) : List DeclId := m.types.flatMap TypeUse.referencedModels

end ModelMetadata

namespace PackageSource

variable (source : PackageSource Id)

/-- The types in the metadata of a declaration are the uses of its parts. -/
theorem types_metadata? {d : ResolvedDecl} {m : ModelMetadata} (h : source.metadata? d = some m) :
    m.types = d.parts.map fun part => source.useIn d part.2 := by
  unfold metadata? at h
  unfold ResolvedDecl.parts
  cases hs : d.decl.shape with
  | struct fields =>
    simp only [hs, Option.some.injEq] at h
    subst h
    simp only [ModelMetadata.types, List.map_map]
    clear hs
    induction fields with
    | nil => rfl
    | cons f rest ih =>
      cases hw : f.wireName? with
      | none => simpa [hw, fieldOf?] using ih
      | some wireName => simpa [hw, fieldOf?] using ih
  | named e =>
    by_cases hk : d.kind = .enum
    · simp only [hs, hk, if_true, Option.some.injEq] at h
      subst h
      simp [hk, ModelMetadata.types]
    · simp only [hs, hk, if_false, Option.some.injEq] at h
      subst h
      simp [hk, ModelMetadata.types, synonymOf]
  | synonym e =>
    simp only [hs, Option.some.injEq] at h
    subst h
    simp [ModelMetadata.types, synonymOf]
  | interface => simp [hs] at h

/-- The types of refreshed fields are the uses of the parts that were looked at. -/
theorem types_refreshedFields? {d : ResolvedDecl} {fields : List FieldDecl}
    {cached refreshed : List FieldMetadata}
    (h : source.refreshedFields? d fields cached = some refreshed) :
    refreshed.map (·.type) =
      (ResolvedDecl.cachedFieldParts fields cached).map fun part => source.useIn d part.2 := by
  induction cached generalizing refreshed with
  | nil =>
    simp only [refreshedFields?, Option.some.injEq] at h
    subst h
    rfl
  | cons f rest ih =>
    rw [refreshedFields?] at h
    rw [ResolvedDecl.cachedFieldParts]
    cases hf : fields.find? (·.label == f.name) with
    | none => simp [hf] at h
    | some decl =>
      simp only [hf, Option.map_eq_some_iff] at h
      obtain ⟨tail, htail, rfl⟩ := h
      simp [ih htail]

/-- The types in refreshed metadata are the uses of the parts that were looked at. -/
theorem types_refreshed? {d : ResolvedDecl} {cached m : ModelMetadata}
    (h : source.refreshed? d cached = some m) :
    m.types = (d.cachedParts cached).map fun part => source.useIn d part.2 := by
  unfold refreshed? at h
  unfold ResolvedDecl.cachedParts
  cases cached with
  | struct s =>
    cases hs : d.decl.shape with
    | struct fields =>
      simp only [hs, Option.map_eq_some_iff] at h
      obtain ⟨refreshed, hrefreshed, rfl⟩ := h
      exact types_refreshedFields? source hrefreshed
    | _ => simp [hs] at h
  | enum e => simp at h
  | synonym a =>
    cases hs : d.decl.shape with
    | named e | synonym e =>
      simp only [hs, Option.ite_none_right_eq_some, Option.some.injEq] at h
      obtain ⟨hk, rfl⟩ := h
      simp [hk, ModelMetadata.types]
    | _ => simp [hs] at h

/-- Whatever metadata refers to is mentioned by something that was looked at to make it. -/
theorem mentions_of_mem_references {d : ResolvedDecl} {cached : Option ModelMetadata}
    {m : ModelMetadata} (h : source.planned? d cached = some m) {id : DeclId}
    (hid : id ∈ m.references) :
    ∃ part ∈ d.plan source cached, ∃ d',
      source.Mentions d.file d.package.importPath part.2.leaves d' ∧ d'.id = id := by
  have htypes : ∀ t ∈ m.types, ∃ part ∈ d.plan source cached, t = source.useIn d part.2 := by
    intro t ht
    cases cached with
    | none =>
      rw [source.types_metadata? h, List.mem_map] at ht
      obtain ⟨part, hpart, rfl⟩ := ht
      exact ⟨part, hpart, rfl⟩
    | some cached =>
      cases hr : source.refreshed? d cached with
      | some refreshed =>
        rw [planned?, hr, Option.some_or, Option.some.injEq] at h
        subst h
        rw [source.types_refreshed? hr, List.mem_map] at ht
        obtain ⟨part, hpart, rfl⟩ := ht
        exact ⟨part, List.mem_append_left _ hpart, rfl⟩
      | none =>
        rw [planned?, hr, Option.none_or] at h
        rw [source.types_metadata? h, List.mem_map] at ht
        obtain ⟨part, hpart, rfl⟩ := ht
        exact ⟨part, List.mem_append_right _ (by simpa [hr] using hpart), rfl⟩
  obtain ⟨t, ht, hid⟩ := List.mem_flatMap.1 hid
  obtain ⟨part, hpart, rfl⟩ := htypes t ht
  obtain ⟨d', hd', rfl⟩ := (source.mem_referencedModels_useOf _ _ _ _).1 hid
  exact ⟨part, hpart, d', hd', rfl⟩

end PackageSource

end RouteAtlas
