import RouteAtlas.Metadata.TypeUse

/-!
# Models

The declarations that routes refer to through their parameters and results: structs, enums and
synonyms, with everything a generator needs to know about them.
-/

set_option autoImplicit false

namespace RouteAtlas

/-- A field as it is seen on the wire. -/
structure FieldMetadata where
  name : String
  /-- The name on the wire. -/
  wireName : String
  type : TypeUse
  description : String
  validator : Option String
  deprecated : Bool
  embedded : Bool
  deriving DecidableEq

/-- A struct. -/
structure StructMetadata where
  id : DeclId
  description : String
  deprecated : Bool
  fields : List FieldMetadata
  deriving DecidableEq

/-- A value of an enum. -/
structure EnumValueMetadata where
  name : String
  value : String
  description : String
  deprecated : Bool
  deriving DecidableEq, Repr

/-- An enum: a type over a primitive one, and the constants of that type. -/
structure EnumMetadata where
  id : DeclId
  description : String
  deprecated : Bool
  underlying : String
  values : List EnumValueMetadata
  deriving DecidableEq, Repr

/-- Any other named type. -/
structure SynonymMetadata where
  id : DeclId
  description : String
  deprecated : Bool
  /-- Whether it is another name for its type rather than a new type. -/
  isTransparent : Bool
  underlying : TypeUse
  deriving DecidableEq

/-- A model. -/
inductive ModelMetadata where
  | struct (s : StructMetadata)
  | enum (e : EnumMetadata)
  | synonym (a : SynonymMetadata)
  deriving DecidableEq

namespace ModelMetadata

/-- The identity of a model. -/
def id : ModelMetadata → DeclId
  | .struct s => s.id
  | .enum e => e.id
  | .synonym a => a.id

def kind : ModelMetadata → SymbolKind
  | .struct _ => .struct
  | .enum _ => .enum
  | .synonym _ => .synonym

end ModelMetadata

def FieldMetadata.toJson (f : FieldMetadata) : Json :=
  .object
    [("name", .string f.name), ("json_name", .string f.wireName), ("type", f.type.toJson),
     ("description", .string f.description), ("validator", .ofOption .string f.validator),
     ("deprecated", .bool f.deprecated), ("embedded", .bool f.embedded)]

def StructMetadata.members (s : StructMetadata) : List (String × Json) :=
  [("id", s.id.toJson), ("description", .string s.description),
   ("deprecated", .bool s.deprecated), ("fields", .array (s.fields.map FieldMetadata.toJson))]

def EnumValueMetadata.toJson (v : EnumValueMetadata) : Json :=
  .object
    [("name", .string v.name), ("value", .string v.value),
     ("description", .string v.description), ("deprecated", .bool v.deprecated)]

def EnumMetadata.members (e : EnumMetadata) : List (String × Json) :=
  [("id", e.id.toJson), ("description", .string e.description),
   ("deprecated", .bool e.deprecated), ("underlying", .string e.underlying),
   ("values", .array (e.values.map EnumValueMetadata.toJson))]

def SynonymMetadata.members (a : SynonymMetadata) : List (String × Json) :=
  [("id", a.id.toJson), ("description", .string a.description),
   ("deprecated", .bool a.deprecated), ("is_type_alias", .bool a.isTransparent),
   ("underlying", a.underlying.toJson)]

def ModelMetadata.toJson : ModelMetadata → Json
  | .struct s => .object (("kind", .string "struct") :: s.members)
  | .enum e => .object (("kind", .string "enum") :: e.members)
  | .synonym a => .object (("kind", .string "alias") :: a.members)

end RouteAtlas
