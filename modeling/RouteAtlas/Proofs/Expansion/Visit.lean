import RouteAtlas.Proofs.Build.Run

/-!
# What an expansion visits and what it answers

Turning a type expression into metadata does two things that can be told apart: it visits the
innermost types of the expression one after the other, which may expand models and may fail, and
it answers with a use that depends on the file, the package and the expression alone. The
equations `typeUse_eq`, `computeModel_eq` and `refreshModel_eq` say so for expressions, for
declarations and for what the cache holds about a declaration. Everything that is proved about
expansions starts from them.
-/

set_option autoImplicit false

namespace RouteAtlas

namespace TypeExpr

/-- The innermost types in the keys of the maps around an expression, from the outside. -/
def keyLeaves : TypeExpr → List TypeExpr
  | .pointer elem => elem.keyLeaves
  | .slice elem => elem.keyLeaves
  | .array _ elem => elem.keyLeaves
  | .chan elem => elem.keyLeaves
  | .map key value => key.base :: key.keyLeaves ++ value.keyLeaves
  | .named _ _ => []
  | .inline _ => []

/-- The innermost types of an expression: its own first, then those in the keys of maps. -/
def leaves (e : TypeExpr) : List TypeExpr := e.base :: e.keyLeaves

/-- The innermost types of a key are among those of the map. -/
theorem mem_leaves_key {key value leaf : TypeExpr} (h : leaf ∈ key.leaves) :
    leaf ∈ (TypeExpr.map key value).leaves :=
  List.mem_cons_of_mem _ (List.mem_append_left _ h)

/-- The innermost types of a value are among those of the map. -/
theorem mem_leaves_value {key value leaf : TypeExpr} (h : leaf ∈ value.leaves) :
    leaf ∈ (TypeExpr.map key value).leaves := by
  rcases List.mem_cons.1 h with rfl | h
  · exact List.mem_cons_self
  · exact List.mem_cons_of_mem _ (List.mem_append_right _ h)

/-- The innermost type of an expression is its own innermost type. -/
@[simp] theorem base_base (e : TypeExpr) : e.base.base = e.base := by
  induction e <;> simp_all [base]

/-- None of the innermost types of an expression has containers. -/
theorem base_of_mem_leaves (e : TypeExpr) {leaf : TypeExpr} (h : leaf ∈ e.leaves) :
    leaf.base = leaf := by
  have hkeys : ∀ e : TypeExpr, leaf ∈ e.keyLeaves → leaf.base = leaf := by
    intro e
    induction e with
    | named q name => simp [keyLeaves]
    | inline text => simp [keyLeaves]
    | pointer elem ih => exact ih
    | slice elem ih => exact ih
    | array len elem ih => exact ih
    | chan elem ih => exact ih
    | map key value ihk ihv =>
      intro h
      rcases List.mem_append.1 h with h | h
      · rcases List.mem_cons.1 h with rfl | h
        · exact key.base_base
        · exact ihk h
      · exact ihv h
  rcases List.mem_cons.1 h with rfl | h
  · exact e.base_base
  · exact hkeys e h

end TypeExpr

namespace PackageSource

variable (source : PackageSource Id)

/-- What the innermost type of an expression refers to in a file of a package. -/
def resolve (file : SourceFile) (packagePath : String) (leaf : TypeExpr) :
    Except Failure Resolution :=
  (source.resolveBase file packagePath leaf).run

/-- The use of an innermost type, read off what it refers to. One that refers to nothing counts as
a type without a name. -/
def leafUse (file : SourceFile) (packagePath : String) (leaf : TypeExpr) : TypeUse :=
  match source.resolve file packagePath leaf with
  | .ok (.predeclared name) => .bare name .builtin true
  | .ok (.special path packageName name importKind) =>
    { TypeUse.bare name .special true with
      packagePath := path, packageName := packageName, importKind := importKind }
  | .ok (.inline text) => .bare text .inline false
  | .ok (.declared d) => d.bareUse
  | .ok (.unresolved _) => .bare leaf.render .inline false
  | .error _ => .bare leaf.render .inline false

/-- The containers of an expression. -/
def layersOf (file : SourceFile) (packagePath : String) : TypeExpr → List TypeLayer
  | .pointer elem => .pointer :: layersOf file packagePath elem
  | .slice elem => .slice :: layersOf file packagePath elem
  | .array len elem => .array len :: layersOf file packagePath elem
  | .chan elem => .chan :: layersOf file packagePath elem
  | .map key value =>
    .map ((source.leafUse file packagePath key.base).within (layersOf file packagePath key)) ::
      layersOf file packagePath value
  | .named _ _ => []
  | .inline _ => []

/-- The use of a type expression: a function of the file, the package and the expression. -/
def useOf (file : SourceFile) (packagePath : String) (e : TypeExpr) : TypeUse :=
  (source.leafUse file packagePath e.base).within (source.layersOf file packagePath e)

/-- The use of a type expression that stands in a declaration. -/
def useIn (d : ResolvedDecl) (e : TypeExpr) : TypeUse := source.useOf d.file d.package.importPath e

/-- The metadata of a field, read off its declaration; `none` when it is not on the wire. -/
def fieldOf? (d : ResolvedDecl) (f : FieldDecl) : Option FieldMetadata :=
  f.wireName?.map fun wireName =>
    { name := f.label
      wireName := wireName
      type := source.useIn d f.type
      description := (DirectiveSet.ofDoc f.doc).description
      validator := (f.tagValue? "validate").filter (!·.isEmpty)
      deprecated := (DirectiveSet.ofDoc f.doc).has .deprecated
      embedded := f.isEmbedded }

/-- The metadata of a synonym, read off its declaration. -/
def synonymOf (d : ResolvedDecl) (isTransparent : Bool) (e : TypeExpr) : ModelMetadata :=
  .synonym ⟨d.id, (DirectiveSet.ofDoc d.decl.doc).description,
    (DirectiveSet.ofDoc d.decl.doc).has .deprecated, isTransparent, source.useIn d e⟩

/-- The metadata of a declaration, read off the declaration itself. An interface has none. -/
def metadata? (d : ResolvedDecl) : Option ModelMetadata :=
  let set := DirectiveSet.ofDoc d.decl.doc
  match d.decl.shape with
  | .struct fields =>
    some (.struct
      ⟨d.id, set.description, set.has .deprecated, fields.filterMap (source.fieldOf? d)⟩)
  | .named e =>
    if d.kind = .enum then
      some (.enum ⟨d.id, set.description, set.has .deprecated, e.render, d.enumValues⟩)
    else some (source.synonymOf d false e)
  | .synonym e => some (source.synonymOf d true e)
  | .interface => none

/-- Every model has metadata. -/
theorem exists_metadata {d : ResolvedDecl} (h : d.kind.isModel = true) :
    ∃ m, source.metadata? d = some m := by
  unfold metadata?
  cases hs : d.decl.shape with
  | struct fields => exact ⟨_, rfl⟩
  | synonym e => exact ⟨_, rfl⟩
  | named e =>
    by_cases hk : d.kind = .enum
    · exact ⟨_, if_pos hk⟩
    · exact ⟨_, if_neg hk⟩
  | interface =>
    have hkind : d.kind = .interface := by simp [ResolvedDecl.kind, hs]
    simp [hkind, SymbolKind.isModel] at h

/-- The cached fields of a struct with their types read off its declaration. -/
def refreshedFields? (d : ResolvedDecl) (fields : List FieldDecl) :
    List FieldMetadata → Option (List FieldMetadata)
  | [] => some []
  | f :: rest =>
    match fields.find? (·.label == f.name) with
    | none => none
    | some decl =>
      (refreshedFields? d fields rest).map ({ f with type := source.useIn d decl.type } :: ·)

/-- Cached metadata with its types read off the declaration; `none` when the two do not fit. -/
def refreshed? (d : ResolvedDecl) (cached : ModelMetadata) : Option ModelMetadata :=
  match cached, d.decl.shape with
  | .struct s, .struct fields =>
    (source.refreshedFields? d fields s.fields).map fun fields =>
      .struct { s with fields := fields }
  | .synonym a, .named e =>
    if d.kind = .synonym then some (.synonym { a with underlying := source.useIn d e }) else none
  | .synonym a, .synonym e =>
    if d.kind = .synonym then some (.synonym { a with underlying := source.useIn d e }) else none
  | _, _ => none

/-- The metadata that a declaration is given, depending on what the cache holds about it. -/
def planned? (d : ResolvedDecl) : Option ModelMetadata → Option ModelMetadata
  | none => source.metadata? d
  | some cached => (source.refreshed? d cached).or (source.metadata? d)

/-- Metadata is planned for every declaration of a model, from the cache or anew. -/
theorem exists_planned {d : ResolvedDecl} (h : d.kind.isModel = true)
    (cached : Option ModelMetadata) : ∃ m, source.planned? d cached = some m := by
  obtain ⟨m, hm⟩ := source.exists_metadata h
  cases cached with
  | none => exact ⟨m, hm⟩
  | some cached =>
    rw [planned?, hm]
    cases source.refreshed? d cached with
    | none => exact ⟨m, rfl⟩
    | some refreshed => exact ⟨refreshed, rfl⟩

end PackageSource

/-- A type expression, with the scope that failures about it are wrapped in. -/
abbrev TypePart := Scope × TypeExpr

namespace ResolvedDecl

/-- The type expressions that the metadata of a declaration is made from: those of the fields on
the wire, or the one under a synonym. -/
def parts (d : ResolvedDecl) : List TypePart :=
  match d.decl.shape with
  | .struct fields =>
    (fields.filter (·.wireName?.isSome)).map fun f => (.field f.label, f.type)
  | .named e => if d.kind = .enum then [] else [(.underlying, e)]
  | .synonym e => [(.underlying, e)]
  | .interface => []

/-- The type expressions of cached fields, up to the first field that is not declared. -/
def cachedFieldParts (fields : List FieldDecl) : List FieldMetadata → List TypePart
  | [] => []
  | f :: rest =>
    match fields.find? (·.label == f.name) with
    | none => []
    | some decl => (.field f.name, decl.type) :: cachedFieldParts fields rest

/-- The type expressions that are looked at to refresh cached metadata. -/
def cachedParts (d : ResolvedDecl) (cached : ModelMetadata) : List TypePart :=
  match cached, d.decl.shape with
  | .struct s, .struct fields => cachedFieldParts fields s.fields
  | .synonym _, .named e => if d.kind = .synonym then [(.underlying, e)] else []
  | .synonym _, .synonym e => if d.kind = .synonym then [(.underlying, e)] else []
  | _, _ => []

/-- All type expressions that are looked at to give a declaration its metadata. -/
def plan (source : PackageSource Id) (d : ResolvedDecl) : Option ModelMetadata → List TypePart
  | none => d.parts
  | some cached =>
    d.cachedParts cached ++ if (source.refreshed? d cached).isSome then [] else d.parts

end ResolvedDecl

namespace Expansion

variable (source : PackageSource Id) (expand : Expander)

/-- Visits what an innermost type refers to, which expands it if it is a model. -/
def visitResolved (leaf : TypeExpr) : Resolution → Build Unit
  | .unresolved reason => throw (.unresolved leaf.render reason)
  | .declared d => if d.kind.isModel then expand d else return
  | _ => return

/-- Visits an innermost type. -/
def visitLeaf (file : SourceFile) (packagePath : String) (leaf : TypeExpr) : Build Unit :=
  Build.ofExcept (source.resolve file packagePath leaf) >>= visitResolved expand leaf

/-- Visits the innermost types of an expression. -/
def visit (file : SourceFile) (packagePath : String) (e : TypeExpr) : Build Unit :=
  e.leaves.forM (visitLeaf source expand file packagePath)

/-- Visits some type expressions of a file, each in its scope. -/
def visitParts (file : SourceFile) (packagePath : String) (parts : List TypePart) : Build Unit :=
  parts.forM fun part => Build.inScope part.1 (visit source expand file packagePath part.2)

/-- Visits some type expressions of a declaration. -/
def visitIn (d : ResolvedDecl) (parts : List TypePart) : Build Unit :=
  visitParts source expand d.file d.package.importPath parts

/-- The metadata of a declaration, given what the cache holds about it. -/
def metadataFrom (d : ResolvedDecl) : Option ModelMetadata → Build ModelMetadata
  | none => computeModel source expand d
  | some cached => refreshModel source expand d cached

/-- The answer of an expansion: metadata, or the refusal of a declaration that has none. -/
def answer (d : ResolvedDecl) : Option ModelMetadata → Build ModelMetadata
  | some metadata => return metadata
  | none => throw (.malformedDeclaration d.id.render "interfaces are not expanded")

/-- The use of an innermost type is read off after the type has been visited. -/
theorem baseUse_eq (file : SourceFile) (packagePath : String) (leaf : TypeExpr) :
    baseUse source expand file packagePath leaf =
      (fun _ => source.leafUse file packagePath leaf) <$>
        visitLeaf source expand file packagePath leaf := by
  rw [baseUse, visitLeaf, PackageSource.leafUse, PackageSource.resolve]
  rcases (source.resolveBase file packagePath leaf).run with e | r
  · rfl
  · cases r with
    | declared d =>
      simp only [Build.ofExcept, pure_bind, visitResolved]
      split <;> simp
    | _ => rfl

/-- The containers of an expression are read off after the keys of its maps have been visited. -/
theorem layersUse_eq (file : SourceFile) (packagePath : String) (e : TypeExpr) :
    layersUse source expand file packagePath e =
      (fun _ => source.layersOf file packagePath e) <$>
        e.keyLeaves.forM (visitLeaf source expand file packagePath) := by
  induction e with
  | named q name => rfl
  | inline text => rfl
  | pointer elem ih => simp [layersUse, ih, PackageSource.layersOf, TypeExpr.keyLeaves]
  | slice elem ih => simp [layersUse, ih, PackageSource.layersOf, TypeExpr.keyLeaves]
  | array len elem ih => simp [layersUse, ih, PackageSource.layersOf, TypeExpr.keyLeaves]
  | chan elem ih => simp [layersUse, ih, PackageSource.layersOf, TypeExpr.keyLeaves]
  | map key value ihk ihv =>
    simp [layersUse, ihk, ihv, baseUse_eq, PackageSource.layersOf, TypeExpr.keyLeaves]

/-- The use of an expression is read off after its innermost types have been visited. -/
theorem typeUse_eq (file : SourceFile) (packagePath : String) (e : TypeExpr) :
    typeUse source expand file packagePath e =
      (fun _ => source.useOf file packagePath e) <$> visit source expand file packagePath e := by
  simp [typeUse, baseUse_eq, layersUse_eq, visit, TypeExpr.leaves, PackageSource.useOf]

/-- The metadata of fields is read off after those on the wire have been visited. -/
theorem fieldsMetadata_eq (d : ResolvedDecl) (fields : List FieldDecl) :
    fieldsMetadata source expand d fields =
      (fun _ => fields.filterMap (source.fieldOf? d)) <$>
        visitIn source expand d
          ((fields.filter (·.wireName?.isSome)).map fun f => (.field f.label, f.type)) := by
  induction fields with
  | nil => rfl
  | cons f rest ih =>
    rw [fieldsMetadata]
    cases hw : f.wireName? with
    | none => simp [hw, ih, PackageSource.fieldOf?]
    | some wireName =>
      simp [hw, ih, PackageSource.fieldOf?, typeUse_eq, Build.inScope_map, visitIn, visitParts,
        PackageSource.useIn]

/-- The metadata of a declaration is read off after its parts have been visited. -/
theorem computeModel_eq (d : ResolvedDecl) :
    computeModel source expand d =
      visitIn source expand d d.parts >>= fun _ => answer d (source.metadata? d) := by
  rw [computeModel, PackageSource.metadata?, ResolvedDecl.parts]
  cases d.decl.shape with
  | struct fields => simp [fieldsMetadata_eq, answer]
  | interface => simp [visitIn, visitParts, answer]
  | named e =>
    by_cases hk : d.kind = .enum
    · simp [hk, visitIn, visitParts, answer]
    · simp [hk, visitIn, visitParts, answer, underlyingUse, typeUse_eq, Build.inScope_map,
        PackageSource.synonymOf, PackageSource.useIn]
  | synonym e =>
    simp [visitIn, visitParts, answer, underlyingUse, typeUse_eq, Build.inScope_map,
      PackageSource.synonymOf, PackageSource.useIn]

/-- Cached fields are refreshed after those that are declared have been visited. -/
theorem refreshFields_eq (d : ResolvedDecl) (fields : List FieldDecl)
    (cached : List FieldMetadata) :
    refreshFields source expand d fields cached =
      (fun _ => source.refreshedFields? d fields cached) <$>
        visitIn source expand d (ResolvedDecl.cachedFieldParts fields cached) := by
  induction cached with
  | nil => rfl
  | cons f rest ih =>
    rw [refreshFields, PackageSource.refreshedFields?, ResolvedDecl.cachedFieldParts]
    cases fields.find? (·.label == f.name) with
    | none => rfl
    | some decl =>
      simp [ih, typeUse_eq, Build.inScope_map, visitIn, visitParts, PackageSource.useIn]

/-- Cached metadata is refreshed after its parts have been visited, and computed anew when it does
not fit the declaration. -/
theorem refreshModel_eq (d : ResolvedDecl) (cached : ModelMetadata) :
    refreshModel source expand d cached =
      visitIn source expand d (d.cachedParts cached) >>= fun _ =>
        match source.refreshed? d cached with
        | some metadata => return metadata
        | none => computeModel source expand d := by
  cases cached with
  | struct s =>
    cases hs : d.decl.shape with
    | struct fields =>
      simp only [refreshModel, ResolvedDecl.cachedParts, PackageSource.refreshed?, hs,
        refreshFields_eq]
      cases source.refreshedFields? d fields s.fields <;> simp
    | _ =>
      simp [refreshModel, ResolvedDecl.cachedParts, PackageSource.refreshed?, hs, visitIn,
        visitParts]
  | enum e =>
    simp [refreshModel, ResolvedDecl.cachedParts, PackageSource.refreshed?, visitIn, visitParts]
  | synonym a =>
    cases hs : d.decl.shape with
    | named e =>
      by_cases hk : d.kind = .synonym <;>
        simp [refreshModel, ResolvedDecl.cachedParts, PackageSource.refreshed?, hs, hk, visitIn,
          visitParts, underlyingUse, typeUse_eq, Build.inScope_map, PackageSource.useIn]
    | synonym e =>
      by_cases hk : d.kind = .synonym <;>
        simp [refreshModel, ResolvedDecl.cachedParts, PackageSource.refreshed?, hs, hk, visitIn,
          visitParts, underlyingUse, typeUse_eq, Build.inScope_map, PackageSource.useIn]
    | _ =>
      simp [refreshModel, ResolvedDecl.cachedParts, PackageSource.refreshed?, hs, visitIn,
        visitParts]

/-- The metadata of a declaration is read off after everything it is made from has been visited. -/
theorem metadataFrom_eq (d : ResolvedDecl) (cached : Option ModelMetadata) :
    metadataFrom source expand d cached =
      visitIn source expand d (d.plan source cached) >>= fun _ =>
        answer d (source.planned? d cached) := by
  cases cached with
  | none => exact computeModel_eq source expand d
  | some cached =>
    rw [metadataFrom, refreshModel_eq, ResolvedDecl.plan, PackageSource.planned?]
    cases source.refreshed? d cached with
    | some metadata => simp [answer]
    | none => simp [computeModel_eq, visitIn, visitParts]

end Expansion

/-! ## Routes -/

namespace RouteDecl

/-- The type expressions of the parameters of a route. -/
def paramParts (r : RouteDecl) : List TypePart :=
  r.method.params.zipIdx.map fun (p, ordinal) =>
    (.parameter (Route.paramName p ordinal), p.type)

/-- The type expressions of the results of a route. -/
def returnParts (r : RouteDecl) : List TypePart :=
  r.method.results.zipIdx.map fun (p, ordinal) => (.result ordinal, p.type)

/-- The type expressions of a route. -/
def parts (r : RouteDecl) : List TypePart := r.paramParts ++ r.returnParts

/-- The type of each parameter and each result is among the type expressions of a route. -/
theorem exists_part {r : RouteDecl} {p : ParamDecl} (h : p ∈ r.method.params ++ r.method.results) :
    ∃ part ∈ r.parts, part.2 = p.type := by
  rcases List.mem_append.1 h with h | h
  · obtain ⟨ordinal, hlt, rfl⟩ := List.getElem_of_mem h
    refine ⟨_, List.mem_append_left _ (List.mem_map.2 ⟨(_, ordinal), ?_, rfl⟩), rfl⟩
    exact List.mk_mem_zipIdx_iff_getElem?.2 (List.getElem?_eq_getElem hlt)
  · obtain ⟨ordinal, hlt, rfl⟩ := List.getElem_of_mem h
    refine ⟨_, List.mem_append_right _ (List.mem_map.2 ⟨(_, ordinal), ?_, rfl⟩), rfl⟩
    exact List.mk_mem_zipIdx_iff_getElem?.2 (List.getElem?_eq_getElem hlt)

end RouteDecl

namespace PackageSource

variable (source : PackageSource Id)

/-- The parameters of a route in a package, read off its declaration. -/
def paramsOf (packagePath : String) (r : RouteDecl) : List ParamNode :=
  r.method.params.zipIdx.map fun (p, ordinal) =>
    Route.paramNode p ordinal (source.useOf r.file packagePath p.type)

/-- The results of a route in a package, read off its declaration. -/
def returnsOf (config : Config) (packagePath : String) (r : RouteDecl) : List ReturnNode :=
  r.method.results.zipIdx.map fun (p, ordinal) =>
    Route.returnNode config p ordinal (source.useOf r.file packagePath p.type)

/-- A route of a controller with its parameters and results, read off its declaration. -/
def routePartsOf (config : Config) (c : ControllerNode) (r : RouteDecl) : RouteParts :=
  Route.assemble config c r (source.paramsOf c.id.package r)
    (source.returnsOf config c.id.package r)

end PackageSource

namespace Build

open Expansion

variable (source : PackageSource Id) (config : Config) (expand : Expander)

/-- What is made of the parts of a list is made of them after all have been visited. -/
theorem mapM_typeUse_eq {α β : Type} (file : SourceFile) (packagePath : String)
    (scope : α → Scope) (type : α → TypeExpr) (make : α → TypeUse → β) (l : List α) :
    (l.mapM fun a => do
      return make a (← inScope (scope a) (typeUse source expand file packagePath (type a)))) =
      (fun _ => l.map fun a => make a (source.useOf file packagePath (type a))) <$>
        visitParts source expand file packagePath (l.map fun a => (scope a, type a)) := by
  induction l with
  | nil => rfl
  | cons a l ih =>
    rw [List.mapM_cons, ih]
    simp [typeUse_eq, inScope_map, visitParts]

/-- A route is read off after its parameters and results have been visited. -/
theorem routeParts_eq (c : ControllerNode) (r : RouteDecl) :
    routeParts source config expand c r =
      (fun _ => source.routePartsOf config c r) <$>
        visitParts source expand r.file c.id.package r.parts := by
  have hparams := mapM_typeUse_eq source expand r.file c.id.package
    (fun x : ParamDecl × Nat => .parameter (Route.paramName x.1 x.2)) (·.1.type)
    (fun x t => Route.paramNode x.1 x.2 t) r.method.params.zipIdx
  have hreturns := mapM_typeUse_eq source expand r.file c.id.package
    (fun x : ParamDecl × Nat => .result x.2) (·.1.type)
    (fun x t => Route.returnNode config x.1 x.2 t) r.method.results.zipIdx
  have hparts : visitParts source expand r.file c.id.package r.parts =
      visitParts source expand r.file c.id.package r.paramParts >>= fun _ =>
        visitParts source expand r.file c.id.package r.returnParts := by
    simp [visitParts, RouteDecl.parts]
  rw [hparts]
  simp only [routeParts, routeParams, routeReturns]
  rw [hparams, hreturns]
  simp [PackageSource.routePartsOf, PackageSource.paramsOf, PackageSource.returnsOf,
    RouteDecl.paramParts, RouteDecl.returnParts]

end Build

end RouteAtlas
