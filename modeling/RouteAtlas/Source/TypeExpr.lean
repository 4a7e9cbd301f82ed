/-!
# Type expressions

A type as it is written in a source file: a name, perhaps qualified, inside any number of
containers. Types without a name of their own are kept as their source text.
-/

set_option autoImplicit false

namespace RouteAtlas

/-- A type as written. -/
inductive TypeExpr where
  /-- A name, perhaps qualified by the name of an import. -/
  | named (qualifier : Option String) (name : String)
  | pointer (elem : TypeExpr)
  | slice (elem : TypeExpr)
  | array (len : String) (elem : TypeExpr)
  | map (key value : TypeExpr)
  | chan (elem : TypeExpr)
  /-- A type without a name: a function, a struct, an interface or an instance of a generic type. -/
  | inline (text : String)
  deriving DecidableEq, Repr, Inhabited

/-- A container around a type expression. -/
inductive ExprLayer where
  | pointer
  | slice
  | array (len : String)
  | map (key : TypeExpr)
  | chan
  deriving DecidableEq, Repr

namespace TypeExpr

/-- Whether the expression is a name without any container. -/
def isNamed : TypeExpr → Bool
  | .named _ _ => true
  | _ => false

def render : TypeExpr → String
  | .named (some q) name => q ++ "." ++ name
  | .named none name => name
  | .pointer elem => "*" ++ elem.render
  | .slice elem => "[]" ++ elem.render
  | .array len elem => "[" ++ len ++ "]" ++ elem.render
  | .map key value => "map[" ++ key.render ++ "]" ++ value.render
  | .chan elem => "chan " ++ elem.render
  | .inline text => text

/-- The containers of an expression, the outermost first. -/
def layers : TypeExpr → List ExprLayer
  | .pointer elem => .pointer :: elem.layers
  | .slice elem => .slice :: elem.layers
  | .array len elem => .array len :: elem.layers
  | .map key value => .map key :: value.layers
  | .chan elem => .chan :: elem.layers
  | .named _ _ => []
  | .inline _ => []

/-- The expression without its containers. -/
def base : TypeExpr → TypeExpr
  | .pointer elem => elem.base
  | .slice elem => elem.base
  | .array _ elem => elem.base
  | .map _ value => value.base
  | .chan elem => elem.base
  | .named q name => .named q name
  | .inline text => .inline text

/-- The name of the innermost type, or its source text when it has none. -/
def baseLabel (e : TypeExpr) : String :=
  match e.base with
  | .named _ name => name
  | other => other.render

end TypeExpr

end RouteAtlas
