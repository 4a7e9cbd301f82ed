import RouteAtlas.Metadata.Model
import RouteAtlas.Metadata.Request

/-!
# The catalog

What generators work from: every controller with its routes, and every model these refer to, in a
fixed order and without any reference to the graph.
-/

set_option autoImplicit false

namespace RouteAtlas

/-- A parameter of a route. -/
structure CatalogParam where
  ordinal : Nat
  name : String
  wireName : String
  /-- Missing for a context. -/
  location : Option ParamLocation
  type : TypeUse
  validator : Option String
  description : String
  isContext : Bool
  deriving DecidableEq

/-- A result of a route. -/
structure CatalogReturn where
  ordinal : Nat
  type : TypeUse
  isError : Bool
  isStructuredError : Bool
  deriving DecidableEq

/-- A route. -/
structure CatalogRoute where
  operationId : String
  verb : Option HttpVerb
  path : String
  description : String
  deprecated : Bool
  hidden : Bool
  contentTypes : List String
  security : List SecurityRequirement
  responses : List ResponseMetadata
  params : List CatalogParam
  returns : List CatalogReturn
  deriving DecidableEq

/-- A controller. -/
structure CatalogController where
  name : String
  package : String
  tag : Option String
  description : String
  deprecated : Bool
  routes : List CatalogRoute
  deriving DecidableEq

/-- The models by sort. -/
structure CatalogModels where
  structs : List StructMetadata := []
  enums : List EnumMetadata := []
  synonyms : List SynonymMetadata := []
  deriving DecidableEq

def CatalogModels.size (m : CatalogModels) : Nat :=
  m.structs.length + m.enums.length + m.synonyms.length

/-- Models by sort, each sort in the order given. -/
def CatalogModels.ofModels (models : List ModelMetadata) : CatalogModels where
  structs := models.filterMap fun m =>
    match m with
    | .struct s => some s
    | _ => none
  enums := models.filterMap fun m =>
    match m with
    | .enum e => some e
    | _ => none
  synonyms := models.filterMap fun m =>
    match m with
    | .synonym a => some a
    | _ => none

/-- The catalog of a project. -/
structure Catalog where
  controllers : List CatalogController
  models : CatalogModels
  /-- Whether a route returns a struct that carries errors. -/
  hasErrorTypes : Bool
  deriving DecidableEq

/-- A parameter as a JSON object; a missing validator is left out. -/
def CatalogParam.toJson (p : CatalogParam) : Json :=
  .object
    ([("ordinal", .nat p.ordinal), ("name", .string p.name), ("wire_name", .string p.wireName),
      ("location", .ofOption (fun l => .string l.name) p.location), ("type", p.type.toJson)] ++
     (match p.validator with
      | some v => [("validator", .string v)]
      | none => []) ++
     [("description", .string p.description), ("is_context", .bool p.isContext)])

def CatalogReturn.toJson (r : CatalogReturn) : Json :=
  .object
    [("ordinal", .nat r.ordinal), ("type", r.type.toJson), ("is_error", .bool r.isError),
     ("is_structured_error", .bool r.isStructuredError)]

def CatalogRoute.toJson (r : CatalogRoute) : Json :=
  .object
    [("operation_id", .string r.operationId),
     ("verb", .ofOption (fun v => .string v.name) r.verb), ("path", .string r.path),
     ("description", .string r.description), ("deprecated", .bool r.deprecated),
     ("hidden", .bool r.hidden), ("content_types", .strings r.contentTypes),
     ("security", .array (r.security.map SecurityRequirement.toJson)),
     ("responses", .array (r.responses.map ResponseMetadata.toJson)),
     ("params", .array (r.params.map CatalogParam.toJson)),
     ("returns", .array (r.returns.map CatalogReturn.toJson))]

def CatalogController.toJson (c : CatalogController) : Json :=
  .object
    [("name", .string c.name), ("package", .string c.package),
     ("tag", .ofOption .string c.tag), ("description", .string c.description),
     ("deprecated", .bool c.deprecated),
     ("routes", .array (c.routes.map CatalogRoute.toJson))]

def CatalogModels.toJson (m : CatalogModels) : Json :=
  .object
    [("structs", .array (m.structs.map fun s => .object s.members)),
     ("enums", .array (m.enums.map fun e => .object e.members)),
     ("aliases", .array (m.synonyms.map fun a => .object a.members))]

def Catalog.toJson (c : Catalog) : Json :=
  .object
    [("controllers", .array (c.controllers.map CatalogController.toJson)),
     ("models", c.models.toJson), ("has_error_type_references", .bool c.hasErrorTypes)]

end RouteAtlas
