import RouteAtlas.Project.Package
import RouteAtlas.Source.Predeclared

/-!
# Resolution of type names

What the name of a type refers to, given the file it stands in. An unqualified name is looked for
in the packages that the file exposes unqualified, then in the package of the file, then among the
predeclared types. A qualified one is looked for in the package of the import that the qualifier
names.
-/

set_option autoImplicit false

namespace RouteAtlas

/-- A declared type that a name refers to. -/
structure ResolvedDecl where
  id : DeclId
  package : Package
  /-- The file that declares it. -/
  file : SourceFile
  decl : TypeDecl
  /-- How its name comes into the file that refers to it. -/
  importKind : ImportKind
  deriving DecidableEq

/-- What the name of a type refers to. -/
inductive Resolution where
  | predeclared (name : String)
  /-- A type of the standard library. -/
  | special (packagePath packageName name : String) (importKind : ImportKind)
  | declared (decl : ResolvedDecl)
  /-- A type without a name. -/
  | inline (text : String)
  | unresolved (reason : String)
  deriving DecidableEq

namespace Resolution

def declaredIn? (p : Package) (name : String) (kind : ImportKind) : Option Resolution :=
  (p.findType? name).map fun (file, decl) =>
    .declared ⟨⟨p.importPath, name⟩, p, file, decl, kind⟩

/-- Whether the text of a type is that of an interface without methods. -/
def isEmptyInterface (text : String) : Bool :=
  Text.squeeze text == "interface\x7b\x7d"

end Resolution

namespace PackageSource

variable {m : Type → Type} [Monad m]

/-- The first of some imports that is under its usual name, within the module, and whose package
calls itself by a name. -/
def importOfPackage? (source : PackageSource m) (name : String) :
    List Import → ExceptT Failure m (Option Import)
  | [] => return none
  | i :: rest => do
    if i.kind != .plain || source.origin i.path != .sameModule then
      source.importOfPackage? name rest
    else if (← source.package i.path).name == name then return some i
    else source.importOfPackage? name rest

/-- The import that a qualifier names. The imports alone usually tell; only when they do not, the
packages of the module are asked for their names. -/
def findImport? (source : PackageSource m) (file : SourceFile) (qualifier : String) :
    ExceptT Failure m (Option Import) :=
  match file.importByName? qualifier with
  | some i => return some i
  | none => source.importOfPackage? qualifier file.imports

/-- What a qualified name refers to. -/
def resolveQualified (source : PackageSource m) (file : SourceFile) (qualifier name : String) :
    ExceptT Failure m Resolution := do
  match ← source.findImport? file qualifier with
  | none =>
    return .unresolved ("no import named '" ++ qualifier ++ "' in " ++ file.path.text)
  | some i =>
    if source.origin i.path == .standard then
      return .special i.path i.defaultName name i.kind
    else
      let package ← source.package i.path
      return (Resolution.declaredIn? package name i.kind).getD
        (.unresolved ("type not found in package '" ++ package.importPath ++ "'"))

/-- The declaration of a name in the packages of some imports, the first that has one. The standard
library is passed over. -/
def findExposed? (source : PackageSource m) (name : String) :
    List Import → ExceptT Failure m (Option Resolution)
  | [] => return none
  | i :: rest => do
    if source.origin i.path == .standard then source.findExposed? name rest
    else
      match Resolution.declaredIn? (← source.package i.path) name .dot with
      | some found => return some found
      | none => source.findExposed? name rest

def resolveUnqualified (source : PackageSource m) (file : SourceFile)
    (packagePath name : String) : ExceptT Failure m Resolution := do
  match ← source.findExposed? name file.dotImports with
  | some found => return found
  | none =>
    match Resolution.declaredIn? (← source.package packagePath) name .samePackage with
    | some found => return found
    | none =>
      if isPredeclared name then return .predeclared name
      else return .unresolved ("not declared in package '" ++ packagePath ++ "'")

def resolveName (source : PackageSource m) (file : SourceFile) (packagePath : String)
    (qualifier : Option String) (name : String) : ExceptT Failure m Resolution :=
  match qualifier with
  | some q => source.resolveQualified file q name
  | none => source.resolveUnqualified file packagePath name

/-- What a type expression without containers refers to in a file of a package. -/
def resolveBase (source : PackageSource m) (file : SourceFile) (packagePath : String)
    (base : TypeExpr) : ExceptT Failure m Resolution :=
  match base with
  | .named qualifier name => source.resolveName file packagePath qualifier name
  | .inline text =>
    if Resolution.isEmptyInterface text then return .predeclared "any" else return .inline text
  | other => return .unresolved ("'" ++ other.render ++ "' is not a named type")

end PackageSource

end RouteAtlas
