import RouteAtlas.Json.Value

/-!
# Identities of declarations

A declaration is known by the import path of its package and by its name. Identities are ordered
by package and then by name; lists in the output follow this order.
-/

set_option autoImplicit false

namespace RouteAtlas

/-- The identity of a declaration. -/
structure DeclId where
  package : String
  name : String
  deriving DecidableEq, Repr, Inhabited, Hashable

namespace DeclId

/-- The identity in messages and dumps. -/
def render (id : DeclId) : String :=
  if id.package.isEmpty then id.name else id.package ++ "." ++ id.name

/-- Whether an identity comes before another or is the same. -/
def le (a b : DeclId) : Bool :=
  a.package < b.package || (a.package == b.package && a.name ≤ b.name)

def toJson (id : DeclId) : Json :=
  .object [("package", .string id.package), ("name", .string id.name)]

end DeclId

end RouteAtlas
