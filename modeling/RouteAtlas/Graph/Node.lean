import RouteAtlas.Cache.Version
import RouteAtlas.Metadata.Model
import RouteAtlas.Metadata.Request

/-!
# Nodes of the symbol graph

A node stands for a controller, a route, a parameter, a result, a use of a type, or a model.
-/

set_option autoImplicit false

namespace RouteAtlas

/-- A controller. -/
structure ControllerNode where
  id : DeclId
  file : PathName
  version : Option FileVersion
  span : Span
  directives : DirectiveSet
  tag : Option String
  /-- What the paths of its routes begin with. -/
  routePrefix : String
  /-- The security of the routes that ask for none of their own. -/
  security : List SecurityRequirement
  description : String
  deprecated : Bool
  hidden : Bool
  deriving DecidableEq

/-- A name that could not be linked, and the place to report it at. -/
structure LinkIssue where
  name : String
  span : Span
  deriving DecidableEq, Repr

/-- What is wrong with the links between the placeholders of a path, the parameters of a method
and the directives that bind them. -/
structure Linkage where
  /-- Placeholders that no path parameter is bound to. -/
  missingPathRefs : List LinkIssue := []
  /-- Parameters that no directive names. -/
  unreferenced : List LinkIssue := []
  /-- Directives that name no parameter. -/
  unknownRefs : List LinkIssue := []
  /-- Further directives that name a parameter. -/
  duplicateRefs : List LinkIssue := []
  /-- Path parameters that are bound to no placeholder. -/
  notInRoute : List LinkIssue := []
  deriving DecidableEq, Repr

/-- Whether nothing is wrong. -/
def Linkage.isClean (l : Linkage) : Bool :=
  l.missingPathRefs.isEmpty && l.unreferenced.isEmpty && l.unknownRefs.isEmpty &&
    l.duplicateRefs.isEmpty && l.notInRoute.isEmpty

/-- A route. -/
structure RouteNode where
  /-- The package of the method, and its name behind the name of its type. -/
  id : DeclId
  controller : DeclId
  methodName : String
  file : PathName
  version : Option FileVersion
  span : Span
  directives : DirectiveSet
  /-- Missing when it is not given or not a verb. -/
  verb : Option HttpVerb
  /-- The path as given, without what the controller puts before it. -/
  path : Option String
  fullPath : String
  contentTypes : List String
  security : List SecurityRequirement
  responses : List ResponseMetadata
  description : String
  deprecated : Bool
  hidden : Bool
  linkage : Linkage
  deriving DecidableEq

/-- A parameter of a route. -/
structure ParamNode where
  ordinal : Nat
  name : String
  span : Span
  type : TypeUse
  /-- Where the parameter is read from, once a directive has bound it. -/
  location : Option ParamLocation := none
  /-- The name in requests. -/
  wireName : String
  validator : Option String := none
  description : String := ""
  /-- The place of the directive that has bound it. -/
  directiveSpan : Option Span := none
  /-- A context is passed in and never bound. -/
  isContext : Bool
  deriving DecidableEq

/-- A result of a route. -/
structure ReturnNode where
  ordinal : Nat
  span : Span
  type : TypeUse
  isError : Bool
  /-- Whether it is a struct that carries errors. -/
  isStructuredError : Bool
  deriving DecidableEq

/-- A model. -/
structure ModelNode where
  id : DeclId
  kind : SymbolKind
  file : PathName
  version : Option FileVersion
  span : Span
  directives : DirectiveSet
  /-- The directives of the fields of a struct, with the name and the place of each field. -/
  fieldDirectives : List (String × Span × DirectiveSet)
  /-- Missing while the declaration is being expanded. -/
  metadata : Option ModelMetadata
  deriving DecidableEq

/-- A node. -/
inductive SymbolNode where
  | controller (c : ControllerNode)
  | route (r : RouteNode)
  | parameter (p : ParamNode)
  | result (r : ReturnNode)
  | type (t : TypeUse)
  | model (m : ModelNode)
  deriving DecidableEq

namespace SymbolNode

/-- The label of a node. -/
def label : SymbolNode → String
  | .controller c => "controller " ++ c.id.name
  | .route r =>
    match r.verb, r.path with
    | some verb, some _ => "route " ++ r.methodName ++ " " ++ verb.name ++ " " ++ r.fullPath
    | _, _ => "route " ++ r.methodName
  | .parameter p =>
    match p.location with
    | some l => "param " ++ p.name ++ " (" ++ l.name ++ "): " ++ p.type.name
    | none => "param " ++ p.name ++ ": " ++ p.type.name
  | .result r => "return #" ++ toString r.ordinal ++ ": " ++ r.type.name
  | .type t => "type " ++ t.name ++ " [" ++ t.symbolKind.name ++ "]"
  | .model m => m.kind.name ++ " " ++ m.id.render

def controller? : SymbolNode → Option ControllerNode
  | .controller c => some c
  | _ => none

def route? : SymbolNode → Option RouteNode
  | .route r => some r
  | _ => none

def parameter? : SymbolNode → Option ParamNode
  | .parameter p => some p
  | _ => none

def result? : SymbolNode → Option ReturnNode
  | .result r => some r
  | _ => none

def type? : SymbolNode → Option TypeUse
  | .type t => some t
  | _ => none

def model? : SymbolNode → Option ModelNode
  | .model m => some m
  | _ => none

end SymbolNode

end RouteAtlas
