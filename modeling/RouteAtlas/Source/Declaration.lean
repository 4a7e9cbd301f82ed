import RouteAtlas.Comment
import RouteAtlas.Source.Import
import RouteAtlas.Source.TypeExpr
import RouteAtlas.Text.Capital

/-!
# Declarations of a source file

What the analysis knows about a file: its package, its imports, and the types, methods and
constants it declares, each with its comment and its place.
-/

set_option autoImplicit false

namespace RouteAtlas

/-- A field of a struct. -/
structure FieldDecl where
  /-- An embedded field has no name. -/
  name : Option String
  type : TypeExpr
  /-- The tag without its quotes. -/
  tag : Option String
  doc : DocComment
  span : Span
  deriving DecidableEq, Repr

/-- The value a struct tag gives to a key: what stands between the quotes after the first place
where the key, a colon and a quote stand together. -/
def tagValue? (tag : Option String) (key : String) : Option String := do
  let tag ← tag
  let rest ← Text.afterFirst? (key.toList ++ [':', '"']) tag.toList
  if rest.contains '"' then some (String.ofList (rest.takeWhile (· != '"'))) else none

namespace FieldDecl

/-- Whether the field has no name of its own. -/
def isEmbedded (f : FieldDecl) : Bool := f.name.isNone

def tagValue? (f : FieldDecl) (key : String) : Option String := RouteAtlas.tagValue? f.tag key

/-- The name of the field; an embedded field is called like its type. -/
def label (f : FieldDecl) : String :=
  f.name.getD f.type.baseLabel

/-- The name of the field on the wire, if it is on the wire at all: not so when its name is not
exported or when the tag is a dash. -/
def wireName? (f : FieldDecl) : Option String :=
  if Text.startsCapital f.label then
    match f.tagValue? "json" with
    | none => some f.label
    | some tag =>
      let first := Text.before tag ','
      if first = "-" then none else if first = "" then some f.label else some first
  else none

end FieldDecl

/-- The shape of a declared type. -/
inductive TypeShape where
  | struct (fields : List FieldDecl)
  | interface
  /-- A new type over another. -/
  | named (underlying : TypeExpr)
  /-- Another name for a type. -/
  | synonym (target : TypeExpr)
  deriving DecidableEq, Repr

/-- A declared type. -/
structure TypeDecl where
  name : String
  shape : TypeShape
  doc : DocComment
  span : Span
  deriving DecidableEq, Repr

/-- A parameter or a result of a method. -/
structure ParamDecl where
  name : Option String
  type : TypeExpr
  span : Span
  deriving DecidableEq, Repr

/-- A method. -/
structure MethodDecl where
  name : String
  /-- The name of the type it belongs to. -/
  receiver : String
  pointerReceiver : Bool
  params : List ParamDecl
  results : List ParamDecl
  doc : DocComment
  span : Span
  deriving DecidableEq, Repr

namespace MethodDecl

/-- Whether the method can be called from other packages. -/
def isExported (m : MethodDecl) : Bool := Text.startsCapital m.name

def qualifiedName (m : MethodDecl) : String := m.receiver ++ "." ++ m.name

end MethodDecl

/-- A constant. -/
structure ConstDecl where
  name : String
  type : Option TypeExpr
  value : Option String
  doc : DocComment
  span : Span
  deriving DecidableEq, Repr

end RouteAtlas
