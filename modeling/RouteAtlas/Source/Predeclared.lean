/-!
# Predeclared types

The types every file knows without an import.
-/

set_option autoImplicit false

namespace RouteAtlas

def predeclaredTypes : List String :=
  ["bool", "string", "int", "int8", "int16", "int32", "int64", "uint", "uint8", "uint16", "uint32",
   "uint64", "uintptr", "byte", "rune", "float32", "float64", "complex64", "complex128", "error",
   "any", "comparable"]

def isPredeclared (name : String) : Bool := predeclaredTypes.contains name

/-- Whether a name is that of a predeclared type with plain values: not an error, and not a type
that stands for others. -/
def isPrimitive (name : String) : Bool :=
  isPredeclared name && name != "error" && name != "any" && name != "comparable"

end RouteAtlas
