import RouteAtlas.Directive.Basic
import RouteAtlas.Json.Decode

/-!
# What a route asks for and answers with

The security that requests have to satisfy, and the responses that a route declares. Both are read
from the directives of a declaration.
-/

set_option autoImplicit false

namespace RouteAtlas

/-- A security scheme that requests have to satisfy. -/
structure SecurityRequirement where
  scheme : String
  scopes : List String
  deriving DecidableEq, Repr

/-- A declared response. -/
structure ResponseMetadata where
  /-- The status code, when the value is one. -/
  code : Option Nat
  /-- The value as written. -/
  rawCode : String
  description : String
  isError : Bool
  deriving DecidableEq, Repr

def SecurityRequirement.toJson (r : SecurityRequirement) : Json :=
  .object [("scheme", .string r.scheme), ("scopes", .strings r.scopes)]

/-- Decodes a requirement. -/
def SecurityRequirement.ofJson? (j : Json) : Option SecurityRequirement := do
  let r ← Json.record? ["scheme", "scopes"] j
  some ⟨← r.field? "scheme" Json.text?, ← r.field? "scopes" Json.texts?⟩

def ResponseMetadata.toJson (r : ResponseMetadata) : Json :=
  .object
    [("code", .ofOption .nat r.code), ("raw_code", .string r.rawCode),
     ("description", .string r.description), ("is_error", .bool r.isError)]

namespace DirectiveSet

def security (set : DirectiveSet) : List SecurityRequirement :=
  (set.ofKind .security).filterMap fun a =>
    a.value.map fun scheme => ⟨scheme, a.optionTexts "scopes"⟩

def declaresResponse (a : Directive) : Bool :=
  a.kind == .response || a.kind == .errorResponse

def responses (set : DirectiveSet) : List ResponseMetadata :=
  (set.directives.filter declaresResponse).map fun a =>
    let raw := a.value.getD ""
    { code := statusCode? raw
      rawCode := raw
      description := a.description
      isError := a.kind == .errorResponse }

end DirectiveSet

end RouteAtlas
