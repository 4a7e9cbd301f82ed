import RouteAtlas.Files.PathName
import RouteAtlas.Metadata.Identity

/-!
# Failures

A failure stops the analysis of the declaration it arises in. On its way out it is wrapped in the
scopes it passes through, so that its message tells the way from the controller to the fault.
-/

set_option autoImplicit false

namespace RouteAtlas

/-- What a failure passes through on its way out. -/
inductive Scope where
  | controller (id : DeclId)
  | route (name : String)
  | parameter (name : String)
  | result (ordinal : Nat)
  | type (id : DeclId)
  | field (name : String)
  | underlying
  /-- Anything else, by its own words. -/
  | other (words : String)
  deriving DecidableEq, Repr

/-- The words for a scope. -/
def Scope.render : Scope → String
  | .controller id => "controller " ++ id.render
  | .route name => "route " ++ name
  | .parameter name => "parameter '" ++ name ++ "'"
  | .result ordinal => "return value #" ++ toString ordinal
  | .type id => "type " ++ id.render
  | .field name => "field '" ++ name ++ "'"
  | .underlying => "underlying type"
  | .other words => words

/-- Why something could not be analysed. -/
inductive Failure where
  | unreadable (path : PathName) (reason : String)
  | unparsable (path : PathName) (reason : String)
  | packageLoad (importPath reason : String)
  | unresolved (name reason : String)
  | invalidPattern (pattern reason : String)
  | malformedDeclaration (name reason : String)
  /-- A failure inside a scope. -/
  | within (scope : Scope) (cause : Failure)
  deriving DecidableEq, Repr

namespace Failure

/-- The wording of a failure, the outermost scope first. -/
def message : Failure → String
  | .unreadable path reason => "failed to read " ++ path.text ++ ": " ++ reason
  | .unparsable path reason => "failed to parse " ++ path.text ++ ": " ++ reason
  | .packageLoad importPath reason => "failed to load package '" ++ importPath ++ "': " ++ reason
  | .unresolved name reason => "cannot resolve type '" ++ name ++ "': " ++ reason
  | .invalidPattern pattern reason => "invalid glob pattern '" ++ pattern ++ "': " ++ reason
  | .malformedDeclaration name reason => "malformed declaration '" ++ name ++ "': " ++ reason
  | .within scope cause => scope.render ++ ": " ++ cause.message

def root : Failure → Failure
  | .within _ cause => cause.root
  | f => f

/-- The scopes of a failure, the outermost first. -/
def scopes : Failure → List Scope
  | .within scope cause => scope :: cause.scopes
  | _ => []

end Failure

/-- The failures of one build, in the order in which they arose. -/
structure BuildFailure where
  errors : List Failure
  deriving DecidableEq, Repr

namespace BuildFailure

def message (b : BuildFailure) : String :=
  "graph build failed with " ++ toString b.errors.length ++ " error(s); last error: " ++
    ((b.errors.getLast?.map Failure.message).getD "none")

/-- Each failure on a line of its own, numbered from one. -/
def stack (b : BuildFailure) : List String :=
  b.errors.zipIdx.map fun (e, i) => "#" ++ toString (i + 1) ++ " " ++ e.message

end BuildFailure

end RouteAtlas
