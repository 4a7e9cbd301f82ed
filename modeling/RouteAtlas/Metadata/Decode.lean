import RouteAtlas.Json.Decode
import RouteAtlas.Metadata.Model

/-!
# Decoding metadata

The inverse of the encodings of identities, uses of types and models.
-/

set_option autoImplicit false

namespace RouteAtlas

/-- Decodes an identity. -/
def DeclId.ofJson? (j : Json) : Option DeclId := do
  let r ← Json.record? ["package", "name"] j
  some ⟨← r.field? "package" Json.text?, ← r.field? "name" Json.text?⟩

/-- Decodes what is known about an enum or a synonym. -/
def SynonymInfo.ofJson? (j : Json) : Option SynonymInfo := do
  let r ← Json.record? ["name", "underlying", "values"] j
  some ⟨← r.field? "name" Json.text?, ← r.field? "underlying" Json.text?,
    ← r.field? "values" Json.texts?⟩

/-- Decodes a container, given how to decode the key of a map. -/
def TypeLayer.ofJsonWith? (key? : Json → Option TypeUse) (j : Json) : Option TypeLayer := do
  let (tag, rest) ← Json.tagged? "layer" j
  if tag = "pointer" then some .pointer
  else if tag = "slice" then some .slice
  else if tag = "chan" then some .chan
  else if tag = "array" then
    let r ← Json.record? ["len"] rest
    some (.array (← r.field? "len" Json.text?))
  else if tag = "map" then
    let r ← Json.record? ["key"] rest
    some (.map (← r.field? "key" key?))
  else none

/-- Decodes a use, given how to decode its containers. -/
def TypeUse.ofJsonWith? (layer? : Json → Option TypeLayer) (j : Json) : Option TypeUse := do
  let r ← Json.record?
    ["name", "base_name", "package_path", "default_alias", "description", "import_kind",
     "is_builtin", "is_by_reference", "symbol_kind", "alias", "layers"] j
  some
    { name := ← r.field? "name" Json.text?
      baseName := ← r.field? "base_name" Json.text?
      packagePath := ← r.field? "package_path" Json.text?
      packageName := ← r.field? "default_alias" Json.text?
      description := ← r.field? "description" Json.text?
      importKind := ← r.field? "import_kind" (Json.choice? ImportKind.ofName?)
      isBuiltin := ← r.field? "is_builtin" Json.bool?
      isByReference := ← r.field? "is_by_reference" Json.bool?
      symbolKind := ← r.field? "symbol_kind" (Json.choice? SymbolKind.ofName?)
      synonym := ← r.optional? "alias" SynonymInfo.ofJson?
      layers := ← r.field? "layers" (Json.list? layer?) }

/-- Decodes a use in which maps are nested in the keys of maps less than `fuel` deep. -/
def TypeUse.ofJsonWithin? : Nat → Json → Option TypeUse
  | 0, _ => none
  | fuel + 1, j => TypeUse.ofJsonWith? (TypeLayer.ofJsonWith? (TypeUse.ofJsonWithin? fuel)) j

/-- Decodes a use. -/
def TypeUse.ofJson? (j : Json) : Option TypeUse := TypeUse.ofJsonWithin? (j.depth + 1) j

/-- Decodes a field. -/
def FieldMetadata.ofJson? (j : Json) : Option FieldMetadata := do
  let r ← Json.record?
    ["name", "json_name", "type", "description", "validator", "deprecated", "embedded"] j
  some
    { name := ← r.field? "name" Json.text?
      wireName := ← r.field? "json_name" Json.text?
      type := ← r.field? "type" TypeUse.ofJson?
      description := ← r.field? "description" Json.text?
      validator := ← r.optional? "validator" Json.text?
      deprecated := ← r.field? "deprecated" Json.bool?
      embedded := ← r.field? "embedded" Json.bool? }

/-- Decodes a struct. -/
def StructMetadata.ofJson? (j : Json) : Option StructMetadata := do
  let r ← Json.record? ["id", "description", "deprecated", "fields"] j
  some
    { id := ← r.field? "id" DeclId.ofJson?
      description := ← r.field? "description" Json.text?
      deprecated := ← r.field? "deprecated" Json.bool?
      fields := ← r.field? "fields" (Json.list? FieldMetadata.ofJson?) }

def EnumValueMetadata.ofJson? (j : Json) : Option EnumValueMetadata := do
  let r ← Json.record? ["name", "value", "description", "deprecated"] j
  some
    { name := ← r.field? "name" Json.text?
      value := ← r.field? "value" Json.text?
      description := ← r.field? "description" Json.text?
      deprecated := ← r.field? "deprecated" Json.bool? }

/-- Decodes an enum. -/
def EnumMetadata.ofJson? (j : Json) : Option EnumMetadata := do
  let r ← Json.record? ["id", "description", "deprecated", "underlying", "values"] j
  some
    { id := ← r.field? "id" DeclId.ofJson?
      description := ← r.field? "description" Json.text?
      deprecated := ← r.field? "deprecated" Json.bool?
      underlying := ← r.field? "underlying" Json.text?
      values := ← r.field? "values" (Json.list? EnumValueMetadata.ofJson?) }

/-- Decodes a synonym. -/
def SynonymMetadata.ofJson? (j : Json) : Option SynonymMetadata := do
  let r ← Json.record? ["id", "description", "deprecated", "is_type_alias", "underlying"] j
  some
    { id := ← r.field? "id" DeclId.ofJson?
      description := ← r.field? "description" Json.text?
      deprecated := ← r.field? "deprecated" Json.bool?
      isTransparent := ← r.field? "is_type_alias" Json.bool?
      underlying := ← r.field? "underlying" TypeUse.ofJson? }

/-- Decodes a model. -/
def ModelMetadata.ofJson? (j : Json) : Option ModelMetadata := do
  let (kind, rest) ← Json.tagged? "kind" j
  if kind = "struct" then (StructMetadata.ofJson? rest).map .struct
  else if kind = "enum" then (EnumMetadata.ofJson? rest).map .enum
  else if kind = "alias" then (SynonymMetadata.ofJson? rest).map .synonym
  else none

end RouteAtlas
