import RouteAtlas.Build.Expansion
import RouteAtlas.Config.Basic
import RouteAtlas.Project.Snapshot
import RouteAtlas.Route.Linkage

/-!
# Building the graph

The graph is built controller by controller in the order of their identities, and route by route in
the order of their declarations. A failure ends the route it arises in and nothing else; a build
fails when there was any.
-/

set_option autoImplicit false

namespace RouteAtlas

/-- A struct that is a controller. -/
structure ControllerDecl where
  id : DeclId
  file : SourceFile
  decl : TypeDecl

/-- A method that is a route, with its directives. -/
structure RouteDecl where
  file : SourceFile
  method : MethodDecl
  directives : DirectiveSet

/-- A route with its parameters and results. -/
structure RouteParts where
  route : RouteNode
  params : List ParamNode
  returns : List ReturnNode

namespace Config

/-- Whether a declared type is a controller: a struct that embeds the marker. -/
def isController (config : Config) (decl : TypeDecl) : Bool :=
  match decl.shape with
  | .struct fields =>
    fields.any fun f =>
      f.isEmbedded &&
        (match f.type.base with
         | .named _ name => name == config.controllerMarker
         | _ => false)
  | _ => false

/-- The controllers that some files declare, in the order of their identities. -/
def controllersIn (config : Config) (importPathOf : PathName → String) (files : List SourceFile) :
    List ControllerDecl :=
  Sorting.sorted (fun a b => a.id.le b.id) (files.flatMap fun f =>
    (f.types.filter config.isController).map fun d => ⟨⟨importPathOf f.path, d.name⟩, f, d⟩)

end Config

namespace ControllerDecl

/-- The node of a controller. -/
def node (c : ControllerDecl) : ControllerNode :=
  let set := DirectiveSet.ofDoc c.decl.doc
  { id := c.id
    file := c.file.path
    version := c.file.version
    span := c.decl.span
    directives := set
    tag := set.value? .tag
    routePrefix := (set.value? .route).getD ""
    security := set.security
    description := set.description
    deprecated := set.has .deprecated
    hidden := set.has .hidden }

/-- The routes of a controller: its exported methods whose comments hold directives. -/
def routes (c : ControllerDecl) (package : Package) : List RouteDecl :=
  (((package.methodsOf c.decl.name).filter fun (_, m) => m.isExported && !m.doc.isEmpty).map
    fun (f, m) => (⟨f, m, .ofDoc m.doc⟩ : RouteDecl)).filter fun r => r.directives.isAnnotated

end ControllerDecl

namespace Route

def paramName (p : ParamDecl) (ordinal : Nat) : String :=
  match p.name with
  | some name => if name = "_" then "#" ++ toString ordinal else name
  | none => "#" ++ toString ordinal

/-- Whether a type is the context that every call can be given. -/
def isContextType (t : TypeUse) : Bool :=
  t.symbolKind == .special && t.packagePath == "context" && t.baseName == "Context" &&
    t.layers.isEmpty

/-- A parameter that is not bound yet. -/
def paramNode (p : ParamDecl) (ordinal : Nat) (t : TypeUse) : ParamNode where
  ordinal := ordinal
  name := paramName p ordinal
  span := p.span
  type := t
  wireName := paramName p ordinal
  isContext := isContextType t

/-- A result. -/
def returnNode (config : Config) (p : ParamDecl) (ordinal : Nat) (t : TypeUse) : ReturnNode :=
  let isStructured := t.symbolKind == .struct && t.layers.all (· == .pointer) &&
    config.isStructuredError t.baseName
  { ordinal := ordinal
    span := p.span
    type := t
    isError := isStructured ||
      (t.symbolKind == .builtin && t.baseName == "error" && t.layers.isEmpty)
    isStructuredError := isStructured }

/-- The content types of a route: those its directive lists, or the usual one. -/
def contentTypes (config : Config) (set : DirectiveSet) : List String :=
  match set.value? .contentType with
  | some value => ((Text.splitOn value ',').map Text.trim).filter (!·.isEmpty)
  | none => [config.defaultContentType]

/-- The parts of a route of a controller, given its parameters and results with their types. -/
def assemble (config : Config) (c : ControllerNode) (r : RouteDecl) (params : List ParamNode)
    (returns : List ReturnNode) : RouteParts :=
  let set := r.directives
  let path := set.value? .route
  let fullPath := joinPaths c.routePrefix (path.getD "")
  let pathSpan := ((set.first? .route).map Directive.valueOrSpan).getD r.method.span
  let (params, linkage) := linkParameters fullPath pathSpan set params
  let route : RouteNode :=
    { id := ⟨c.id.package, r.method.qualifiedName⟩
      controller := c.id
      methodName := r.method.name
      file := r.file.path
      version := r.file.version
      span := r.method.span
      directives := set
      verb := (set.value? .method).bind HttpVerb.ofText?
      path := path
      fullPath := fullPath
      contentTypes := contentTypes config set
      security := set.security
      responses := set.responses
      description := set.description
      deprecated := set.has .deprecated
      hidden := set.has .hidden
      linkage := linkage }
  ⟨route, params, returns⟩

end Route

namespace Build

variable (source : PackageSource Id) (config : Config) (expand : Expansion.Expander)

/-- The parameters of a route with their types. -/
def routeParams (c : ControllerNode) (r : RouteDecl) : Build (List ParamNode) :=
  r.method.params.zipIdx.mapM fun (p, ordinal) => do
    let t ← inScope (.parameter (Route.paramName p ordinal))
      (Expansion.typeUse source expand r.file c.id.package p.type)
    return Route.paramNode p ordinal t

/-- The results of a route with their types. -/
def routeReturns (c : ControllerNode) (r : RouteDecl) : Build (List ReturnNode) :=
  r.method.results.zipIdx.mapM fun (p, ordinal) => do
    let t ← inScope (.result ordinal)
      (Expansion.typeUse source expand r.file c.id.package p.type)
    return Route.returnNode config p ordinal t

def routeParts (c : ControllerNode) (r : RouteDecl) : Build RouteParts := do
  let params ← routeParams source expand c r
  let returns ← routeReturns source config expand c r
  return Route.assemble config c r params returns

/-- Adds a route to the graph. -/
def addRoute (controller : NodeIndex) (ordinal : Nat) (parts : RouteParts) : Build Unit := do
  let i ← onGraph fun g => g.addRoute controller ordinal parts.route
  parts.params.forM fun p => do
    let j ← onGraph fun g => g.addParameter i p
    attachType j .typeOf p.type
  parts.returns.forM fun r => do
    let j ← onGraph fun g => g.addReturn i r
    attachType j .typeOf r.type

def buildRoute (c : ControllerNode) (controller : NodeIndex) (ordinal : Nat) (r : RouteDecl) :
    Build Unit := do
  let parts ← inScope (.controller c.id) (inScope (.route r.method.qualifiedName)
    (routeParts source config expand c r))
  addRoute controller ordinal parts

def failureOf (x : Build Unit) : StateM BuildState (List Failure) := do
  match ← x.run with
  | .ok () => return []
  | .error e => return [e]

/-- Builds the routes of a controller one after the other, whether they fail or not. -/
def buildRoutes (c : ControllerNode) (controller : NodeIndex) (routes : List RouteDecl) :
    StateM BuildState (List Failure) := do
  let failures ← routes.zipIdx.mapM fun (r, ordinal) =>
    failureOf (buildRoute source config expand c controller ordinal r)
  return failures.flatten

/-- Builds a controller. Without its package nothing of it is built. -/
def buildController (c : ControllerDecl) : StateM BuildState (List Failure) := do
  match (source.package c.id.package).run with
  | .error e => return [.within (.controller c.id) e]
  | .ok package =>
    let node := c.node
    let i ← modifyGet fun s =>
      let (g, i) := s.graph.addController node
      (i, { s with graph := g })
    buildRoutes source config expand node i (c.routes package)

def buildControllers (controllers : List ControllerDecl) :
    StateM BuildState (List Failure) := do
  let failures ← controllers.mapM (buildController source config expand)
  return failures.flatten

end Build

/-- Builds the graph of the controllers that some files declare, with an expansion that nests less
than `depth` deep. Gives the graph, or all failures, and the cache afterwards. -/
def buildGraph (source : PackageSource Id) (depth : Nat) (config : Config)
    (files : List SourceFile) (cache : MetadataCache) :
    Except BuildFailure SymbolGraph × MetadataCache :=
  let controllers := config.controllersIn source.importPathOf files
  let expand := Expansion.expandModel source depth
  let (failures, s) :=
    (Build.buildControllers source config expand controllers).run { cache := cache }
  (if failures.isEmpty then .ok s.graph else .error ⟨failures⟩, s.cache)

def Snapshot.buildGraph (s : Snapshot) (config : Config) (cache : MetadataCache) :
    Except BuildFailure SymbolGraph × MetadataCache :=
  RouteAtlas.buildGraph s.source s.declarationBound config s.files cache

end RouteAtlas
