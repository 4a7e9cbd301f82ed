import RouteAtlas.Cache.Store
import RouteAtlas.Directive.Parser
import RouteAtlas.Graph.Basic
import RouteAtlas.Project.Resolution

/-!
# Expansion of models

The use of a type in a signature or a field is turned into metadata, and every model it refers to
is expanded: its own fields are turned into metadata in turn. A model that is being expanded or has
been is not expanded again, so a type that refers to itself does no harm, and a model whose
expansion has failed fails wherever it is used.
-/

set_option autoImplicit false

namespace RouteAtlas

/-- What a build works on. -/
structure BuildState where
  graph : SymbolGraph := {}
  cache : MetadataCache := {}
  deriving DecidableEq

/-- A step of a build. What it has done to the graph and the cache stays when it fails. -/
abbrev Build := ExceptT Failure (StateM BuildState)

namespace Build

/-- Changes the graph. -/
def onGraph {α : Type} (f : SymbolGraph → SymbolGraph × α) : Build α :=
  modifyGet fun s => let (g, a) := f s.graph; (a, { s with graph := g })

/-- Changes the graph without an answer. -/
def updateGraph (f : SymbolGraph → SymbolGraph) : Build Unit :=
  modify fun s => { s with graph := f s.graph }

/-- A step that neither needs nor changes anything. -/
def ofExcept {α : Type} : Except Failure α → Build α
  | .ok a => pure a
  | .error e => throw e

/-- Does something in a scope that its failures are wrapped in. -/
def inScope {α : Type} (scope : Scope) (x : Build α) : Build α :=
  tryCatch x fun e => throw (.within scope e)

/-- Links a node to the use of a type, and that to the models it refers to. -/
def attachType (i : NodeIndex) (edge : SymbolEdge) (t : TypeUse) : Build Unit :=
  updateGraph fun g =>
    let (g, typeIndex) := g.internType t
    t.referencedModels.foldl (fun g id =>
      match g.modelEntry? id with
      | some e => if e.state = .failed then g else g.link typeIndex e.node .references
      | none => g) (g.addEdge i typeIndex edge)

end Build

namespace ResolvedDecl

/-- The kind of a declared type. A named primitive type with constants is an enum. -/
def kind (d : ResolvedDecl) : SymbolKind :=
  match d.decl.shape with
  | .struct _ => .struct
  | .interface => .interface
  | .synonym _ => .synonym
  | .named (.named none name) =>
    if isPrimitive name && !(d.package.constsOf d.decl.name).isEmpty then .enum else .synonym
  | .named _ => .synonym

/-- What a use of a declared type carries about it. -/
def synonymInfo? (d : ResolvedDecl) : Option SynonymInfo :=
  let info := fun (underlying : TypeExpr) =>
    { name := d.decl.name
      underlying := underlying.render
      values :=
        if d.kind = .enum then
          (d.package.constsOf d.decl.name).map fun c => c.value.getD c.name
        else [] : SynonymInfo }
  match d.decl.shape with
  | .named underlying => some (info underlying)
  | .synonym underlying => some (info underlying)
  | .struct _ => none
  | .interface => none

def bareUse (d : ResolvedDecl) : TypeUse :=
  { TypeUse.bare d.id.name d.kind false with
    packagePath := d.id.package
    packageName := d.package.name
    description := (DirectiveSet.ofDoc d.decl.doc).description
    importKind := d.importKind
    synonym := d.synonymInfo? }

/-- The node of a declared type whose expansion begins. -/
def modelNode (d : ResolvedDecl) : ModelNode where
  id := d.id
  kind := d.kind
  file := d.file.path
  version := d.file.version
  span := d.decl.span
  directives := .ofDoc d.decl.doc
  fieldDirectives :=
    match d.decl.shape with
    | .struct fields => fields.map fun f => (f.label, f.span, .ofDoc f.doc)
    | _ => []
  metadata := none

def enumValues (d : ResolvedDecl) : List EnumValueMetadata :=
  (d.package.constsOf d.decl.name).map fun c =>
    let set := DirectiveSet.ofDoc c.doc
    { name := c.name
      value := c.value.getD ""
      description := set.description
      deprecated := set.has .deprecated }

end ResolvedDecl

namespace Expansion

variable (source : PackageSource Id)

/-- What expands a model that a use of a type refers to. -/
abbrev Expander := ResolvedDecl → Build Unit

/-- The use of the innermost type of an expression in a file of a package. -/
def baseUse (expand : Expander) (file : SourceFile) (packagePath : String) (base : TypeExpr) :
    Build TypeUse := do
  match ← Build.ofExcept (source.resolveBase file packagePath base).run with
  | .predeclared name => return .bare name .builtin true
  | .special packagePath packageName name importKind =>
    return { TypeUse.bare name .special true with
      packagePath := packagePath, packageName := packageName, importKind := importKind }
  | .inline text => return .bare text .inline false
  | .unresolved reason => throw (.unresolved base.render reason)
  | .declared d =>
    if d.kind.isModel then expand d
    return d.bareUse

/-- The containers of an expression. Only the keys of maps have to be looked into. -/
def layersUse (expand : Expander) (file : SourceFile) (packagePath : String) :
    TypeExpr → Build (List TypeLayer)
  | .pointer elem => return .pointer :: (← layersUse expand file packagePath elem)
  | .slice elem => return .slice :: (← layersUse expand file packagePath elem)
  | .array len elem => return .array len :: (← layersUse expand file packagePath elem)
  | .chan elem => return .chan :: (← layersUse expand file packagePath elem)
  | .map key value => do
    let base ← baseUse source expand file packagePath key.base
    let keyUse := base.within (← layersUse expand file packagePath key)
    return .map keyUse :: (← layersUse expand file packagePath value)
  | .named _ _ => return []
  | .inline _ => return []

/-- The use of a type expression in a file of a package: the innermost type first, then its
containers from the outside. -/
def typeUse (expand : Expander) (file : SourceFile) (packagePath : String) (e : TypeExpr) :
    Build TypeUse := do
  let base ← baseUse source expand file packagePath e.base
  return base.within (← layersUse source expand file packagePath e)

/-- The metadata of the fields of a struct that are on the wire. -/
def fieldsMetadata (expand : Expander) (d : ResolvedDecl) :
    List FieldDecl → Build (List FieldMetadata)
  | [] => return []
  | f :: rest => do
    match f.wireName? with
    | none => fieldsMetadata expand d rest
    | some wireName =>
      let type ← Build.inScope (.field f.label)
        (typeUse source expand d.file d.package.importPath f.type)
      let set := DirectiveSet.ofDoc f.doc
      let field : FieldMetadata :=
        { name := f.label
          wireName := wireName
          type := type
          description := set.description
          validator := (f.tagValue? "validate").filter (!·.isEmpty)
          deprecated := set.has .deprecated
          embedded := f.isEmbedded }
      return field :: (← fieldsMetadata expand d rest)

def underlyingUse (expand : Expander) (d : ResolvedDecl) (e : TypeExpr) : Build TypeUse :=
  Build.inScope .underlying (typeUse source expand d.file d.package.importPath e)

/-- The metadata of a model from its declaration. -/
def computeModel (expand : Expander) (d : ResolvedDecl) : Build ModelMetadata := do
  let set := DirectiveSet.ofDoc d.decl.doc
  let synonym := fun (isTransparent : Bool) (e : TypeExpr) => do
    let underlying ← underlyingUse source expand d e
    return ModelMetadata.synonym
      ⟨d.id, set.description, set.has .deprecated, isTransparent, underlying⟩
  match d.decl.shape with
  | .struct fields =>
    return .struct
      ⟨d.id, set.description, set.has .deprecated, ← fieldsMetadata source expand d fields⟩
  | .named e =>
    if d.kind = .enum then
      return .enum ⟨d.id, set.description, set.has .deprecated, e.render, d.enumValues⟩
    else synonym false e
  | .synonym e => synonym true e
  | .interface => throw (.malformedDeclaration d.id.render "interfaces are not expanded")

/-- The cached fields of a struct with their types taken from its declaration, `none` when a field
is not declared any more. -/
def refreshFields (expand : Expander) (d : ResolvedDecl) (fields : List FieldDecl) :
    List FieldMetadata → Build (Option (List FieldMetadata))
  | [] => return some []
  | f :: rest => do
    match fields.find? (·.label == f.name) with
    | none => return none
    | some decl =>
      let type ← Build.inScope (.field f.name)
        (typeUse source expand d.file d.package.importPath decl.type)
      return (← refreshFields expand d fields rest).map fun rest => { f with type := type } :: rest

/-- The metadata of a model from the cache. The declaration itself is unchanged, but what it refers
to in other files may not be, so its types are looked at again; the values of an enum are collected
anew. -/
def refreshModel (expand : Expander) (d : ResolvedDecl) (cached : ModelMetadata) :
    Build ModelMetadata := do
  match cached, d.decl.shape with
  | .struct s, .struct fields =>
    match ← refreshFields source expand d fields s.fields with
    | some fields => return .struct { s with fields := fields }
    | none => computeModel source expand d
  | .synonym a, .named e =>
    if d.kind = .synonym then
      return .synonym { a with underlying := ← underlyingUse source expand d e }
    else computeModel source expand d
  | .synonym a, .synonym e =>
    if d.kind = .synonym then
      return .synonym { a with underlying := ← underlyingUse source expand d e }
    else computeModel source expand d
  | _, _ => computeModel source expand d

/-- Stores the metadata of a model when the version of its file is known. -/
def store (d : ResolvedDecl) (metadata : ModelMetadata) : Build Unit :=
  match d.file.version with
  | some version => modify fun s => { s with cache := s.cache.put d.id metadata version }
  | none => return

/-- The metadata of a model, from the cache when the file of its declaration is unchanged. -/
def modelMetadata (expand : Expander) (d : ResolvedDecl) : Build ModelMetadata := do
  let cached ← modifyGet fun s =>
    let (found, cache) := s.cache.getFresh d.id d.file.version
    (found, { s with cache := cache })
  match cached with
  | some cached =>
    let metadata ← refreshModel source expand d cached
    if metadata ≠ cached then store d metadata
    return metadata
  | none =>
    let metadata ← computeModel source expand d
    store d metadata
    return metadata

/-- Links a model to the types in its metadata. -/
def attachMetadata (i : NodeIndex) : ModelMetadata → Build Unit
  | .struct s =>
    s.fields.zipIdx.forM fun (f, ordinal) => Build.attachType i (.field ordinal f.name) f.type
  | .synonym a => Build.attachType i .underlying a.underlying
  | .enum _ => return

/-- Expands a model, given what expands the models it refers to. -/
def expandWith (expand : Expander) (d : ResolvedDecl) : Build Unit := do
  match (← get).graph.modelEntry? d.id with
  | some e =>
    if e.state = .failed then
      throw (.unresolved d.id.render "an earlier expansion of this type failed")
  | none =>
    let i ← Build.onGraph fun g => g.beginModel d.modelNode
    tryCatch
      (do
        let metadata ← modelMetadata source expand d
        attachMetadata i metadata
        Build.updateGraph fun g => g.completeModel i metadata)
      fun e => do
        Build.updateGraph fun g => g.failModel d.id
        throw (.within (.type d.id) e)

/-- Expands a model whose expansion nests less than `fuel` deep. -/
def expandModel : Nat → Expander
  | 0 => fun d => throw (.unresolved d.id.render "expansion nests too deep")
  | fuel + 1 => expandWith source (expandModel fuel)

end Expansion

end RouteAtlas
