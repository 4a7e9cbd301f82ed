import RouteAtlas.Span
import RouteAtlas.Text.Pieces

/-!
# Imports

How a file reaches the names of other packages.
-/

set_option autoImplicit false

namespace RouteAtlas

/-- How a name comes into a file. -/
inductive ImportKind where
  /-- Through an import under its usual name. -/
  | plain
  /-- Through an import under a name of its own. -/
  | renamed
  /-- Through an import that exposes its names unqualified. -/
  | dot
  /-- Through an import for its effects alone. -/
  | blank
  /-- From the package of the file itself. -/
  | samePackage
  /-- From the language. -/
  | predeclared
  deriving DecidableEq, Repr

namespace ImportKind

def name : ImportKind → String
  | .plain => "plain"
  | .renamed => "aliased"
  | .dot => "dot"
  | .blank => "blank"
  | .samePackage => "local"
  | .predeclared => "universe"

def all : List ImportKind := [.plain, .renamed, .dot, .blank, .samePackage, .predeclared]

def ofName? (s : String) : Option ImportKind := all.find? (·.name == s)

end ImportKind

/-- An import of a file. -/
structure Import where
  path : String
  /-- The name given to the package in this file. -/
  newName : Option String
  kind : ImportKind
  span : Span
  deriving DecidableEq, Repr

namespace Import

/-- Whether a path segment is a major version: `v` and digits. -/
def isVersion (segment : String) : Bool :=
  match segment.toList with
  | 'v' :: c :: rest => (c :: rest).all Char.isDigit
  | _ => false

/-- The segment of a path that names its package: the last one, or the one before a version. -/
def namingSegment (path : String) : String :=
  match (Text.splitOn path '/').reverse with
  | [] => path
  | [last] => last
  | last :: before :: _ => if isVersion last then before else last

/-- The name a file refers to an import by, as far as the import alone tells: the name given to
it, else the naming segment of its path, with underscores for dashes. -/
def defaultName (i : Import) : String :=
  match i.newName with
  | some name => name
  | none =>
    String.ofList ((namingSegment i.path).toList.map fun c => if c = '-' then '_' else c)

end Import

end RouteAtlas
