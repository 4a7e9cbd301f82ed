import RouteAtlas.Metadata.Identity
import RouteAtlas.Source.Import

/-!
# Uses of types

The metadata of a type as it is used in a signature or in a field: the innermost type, where it is
declared, and the containers around it. Two uses are the same exactly when all of this agrees, and
that is what the graph keeps one node for.
-/

set_option autoImplicit false

namespace RouteAtlas

/-- What a use of a type refers to. -/
inductive SymbolKind where
  /-- A predeclared type. -/
  | builtin
  /-- A type of the standard library, which is never looked into. -/
  | special
  | struct
  | enum
  | synonym
  /-- An interface, which is never looked into. -/
  | interface
  /-- A type without a name. -/
  | inline
  deriving DecidableEq, Repr

namespace SymbolKind

def name : SymbolKind → String
  | .builtin => "builtin"
  | .special => "special"
  | .struct => "struct"
  | .enum => "enum"
  | .synonym => "alias"
  | .interface => "interface"
  | .inline => "opaque"

def all : List SymbolKind :=
  [.builtin, .special, .struct, .enum, .synonym, .interface, .inline]

def ofName? (s : String) : Option SymbolKind := all.find? (·.name == s)

/-- Whether a use of this kind refers to a declaration that is a model. -/
def isModel : SymbolKind → Bool
  | .struct | .enum | .synonym => true
  | _ => false

end SymbolKind

/-- What a use of an enum or of a synonym carries about its declaration. -/
structure SynonymInfo where
  name : String
  underlying : String
  /-- The values of an enum. -/
  values : List String
  deriving DecidableEq, Repr

mutual

/-- A container around a used type. -/
inductive TypeLayer where
  | pointer
  | slice
  | array (len : String)
  | map (key : TypeUse)
  | chan

/-- A use of a type. -/
structure TypeUse where
  /-- The type with its containers, its innermost name without qualifier. -/
  name : String
  /-- The innermost type. -/
  baseName : String
  /-- Import path of the package that declares it; empty for a predeclared type. -/
  packagePath : String
  /-- The name of that package. -/
  packageName : String
  description : String
  importKind : ImportKind
  isBuiltin : Bool
  isByReference : Bool
  symbolKind : SymbolKind
  synonym : Option SynonymInfo
  /-- The containers, the outermost first. -/
  layers : List TypeLayer

end

mutual

/-- Decides whether two containers are equal. -/
def TypeLayer.decEq : (a b : TypeLayer) → Decidable (a = b)
  | .pointer, .pointer => isTrue rfl
  | .slice, .slice => isTrue rfl
  | .chan, .chan => isTrue rfl
  | .array a, .array b =>
    if h : a = b then isTrue (by rw [h]) else isFalse (by intro e; cases e; exact h rfl)
  | .map a, .map b =>
    match TypeUse.decEq a b with
    | isTrue h => isTrue (by rw [h])
    | isFalse h => isFalse (by intro e; cases e; exact h rfl)
  | .pointer, .slice | .pointer, .chan | .pointer, .array _ | .pointer, .map _
  | .slice, .pointer | .slice, .chan | .slice, .array _ | .slice, .map _
  | .chan, .pointer | .chan, .slice | .chan, .array _ | .chan, .map _
  | .array _, .pointer | .array _, .slice | .array _, .chan | .array _, .map _
  | .map _, .pointer | .map _, .slice | .map _, .chan | .map _, .array _ =>
    isFalse (by intro e; cases e)

/-- Decides whether two lists of containers are equal. -/
def TypeLayer.decEqList : (a b : List TypeLayer) → Decidable (a = b)
  | [], [] => isTrue rfl
  | [], _ :: _ => isFalse (by intro e; cases e)
  | _ :: _, [] => isFalse (by intro e; cases e)
  | x :: xs, y :: ys =>
    match TypeLayer.decEq x y, TypeLayer.decEqList xs ys with
    | isTrue h, isTrue hs => isTrue (by rw [h, hs])
    | isFalse h, _ => isFalse (by intro e; cases e; exact h rfl)
    | _, isFalse hs => isFalse (by intro e; cases e; exact hs rfl)

/-- Decides whether two uses are equal. -/
def TypeUse.decEq : (a b : TypeUse) → Decidable (a = b)
  | ⟨n, bn, pp, pn, d, ik, ib, ir, sk, sy, ls⟩, ⟨n', bn', pp', pn', d', ik', ib', ir', sk', sy', ls'⟩ =>
    match TypeLayer.decEqList ls ls' with
    | isFalse h => isFalse (by intro e; cases e; exact h rfl)
    | isTrue h =>
      if hs : n = n' ∧ bn = bn' ∧ pp = pp' ∧ pn = pn' ∧ d = d' ∧ ik = ik' ∧ ib = ib' ∧ ir = ir' ∧
          sk = sk' ∧ sy = sy' then
        isTrue (by obtain ⟨rfl, rfl, rfl, rfl, rfl, rfl, rfl, rfl, rfl, rfl⟩ := hs; rw [h])
      else isFalse (by intro e; cases e; exact hs ⟨rfl, rfl, rfl, rfl, rfl, rfl, rfl, rfl, rfl, rfl⟩)

end

instance : DecidableEq TypeLayer := TypeLayer.decEq

instance : DecidableEq TypeUse := TypeUse.decEq

namespace TypeLayer

/-- How a container is written before the type it contains. -/
def render : TypeLayer → String
  | .pointer => "*"
  | .slice => "[]"
  | .array len => "[" ++ len ++ "]"
  | .map key => "map[" ++ key.name ++ "]"
  | .chan => "chan "

end TypeLayer

namespace TypeUse

/-- A type with containers around it, the outermost first. -/
def formatName (layers : List TypeLayer) (base : String) : String :=
  String.join (layers.map TypeLayer.render) ++ base

def modelId? (t : TypeUse) : Option DeclId :=
  if t.symbolKind.isModel then some ⟨t.packagePath, t.baseName⟩ else none

mutual

/-- The models a use refers to: those in the keys of maps first, its own innermost type last. -/
def referencedModels : TypeUse → List DeclId
  | ⟨_, baseName, packagePath, _, _, _, _, _, symbolKind, _, layers⟩ =>
    referencedByLayers layers ++
      (if symbolKind.isModel then [⟨packagePath, baseName⟩] else [])

/-- The models that the keys among some containers refer to. -/
def referencedByLayers : List TypeLayer → List DeclId
  | [] => []
  | layer :: rest => referencedByLayer layer ++ referencedByLayers rest

def referencedByLayer : TypeLayer → List DeclId
  | .map key => referencedModels key
  | .pointer | .slice | .array _ | .chan => []

end

/-- The use of a type without containers that is declared nowhere. -/
def bare (name : String) (kind : SymbolKind) (isBuiltin : Bool) : TypeUse where
  name := name
  baseName := name
  packagePath := ""
  packageName := ""
  description := ""
  importKind := .predeclared
  isBuiltin := isBuiltin
  isByReference := false
  symbolKind := kind
  synonym := none
  layers := []

/-- The use of the same type inside containers. -/
def within (t : TypeUse) (layers : List TypeLayer) : TypeUse :=
  { t with
    isByReference := layers.head? = some .pointer
    name := formatName layers t.baseName
    layers := layers }

end TypeUse

/-- What is known about an enum or a synonym, as a JSON object. -/
def SynonymInfo.toJson (info : SynonymInfo) : Json :=
  .object
    [("name", .string info.name), ("underlying", .string info.underlying),
     ("values", .strings info.values)]

mutual

def TypeLayer.toJson : TypeLayer → Json
  | .pointer => .object [("layer", .string "pointer")]
  | .slice => .object [("layer", .string "slice")]
  | .array len => .object [("layer", .string "array"), ("len", .string len)]
  | .map key => .object [("layer", .string "map"), ("key", key.toJson)]
  | .chan => .object [("layer", .string "chan")]

/-- Containers as JSON objects. -/
def TypeLayer.listToJson : List TypeLayer → List Json
  | [] => []
  | layer :: rest => layer.toJson :: TypeLayer.listToJson rest

def TypeUse.toJson : TypeUse → Json
  | ⟨name, baseName, packagePath, packageName, description, importKind, isBuiltin, isByReference,
      symbolKind, synonym, layers⟩ =>
    .object
      [("name", .string name), ("base_name", .string baseName),
       ("package_path", .string packagePath), ("default_alias", .string packageName),
       ("description", .string description), ("import_kind", .string importKind.name),
       ("is_builtin", .bool isBuiltin), ("is_by_reference", .bool isByReference),
       ("symbol_kind", .string symbolKind.name), ("alias", .ofOption SynonymInfo.toJson synonym),
       ("layers", .array (TypeLayer.listToJson layers))]

end

end RouteAtlas
