import RouteAtlas.Failure
import RouteAtlas.Source.File

/-!
# Packages

A package is what the files of one directory declare together. Packages are asked for by import
path; how they are found, and whether they are remembered, is up to their source.
-/

set_option autoImplicit false

namespace RouteAtlas

/-- Where an import path leads. -/
inductive PackageOrigin where
  /-- Into the module that is analysed. -/
  | sameModule
  /-- Into the standard library. -/
  | standard
  /-- Anywhere else. -/
  | external
  deriving DecidableEq, Repr

/-- A package. -/
structure Package where
  importPath : String
  /-- The name its files declare. -/
  name : String
  dir : PathName
  /-- Its files in the order of their paths. -/
  files : List SourceFile
  deriving DecidableEq

namespace Package

def findType? (p : Package) (name : String) : Option (SourceFile × TypeDecl) :=
  p.files.findSome? fun f => (f.findType? name).map fun d => (f, d)

def methodsOf (p : Package) (receiver : String) : List (SourceFile × MethodDecl) :=
  p.files.flatMap fun f => (f.methods.filter (·.receiver == receiver)).map fun m => (f, m)

def constsOf (p : Package) (typeName : String) : List ConstDecl :=
  p.files.flatMap fun f => f.consts.filter (·.type == some (.named none typeName))

end Package

/-- Gives packages by import path, within the effects of `m`. -/
structure PackageSource (m : Type → Type) where
  origin : String → PackageOrigin
  package : String → ExceptT Failure m Package
  /-- The import path of the package that a file belongs to. -/
  importPathOf : PathName → String

end RouteAtlas
