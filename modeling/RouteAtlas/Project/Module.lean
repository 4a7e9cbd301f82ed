import RouteAtlas.Config.Basic
import RouteAtlas.Files.Tree
import RouteAtlas.Project.Package
import RouteAtlas.Sorting

/-!
# Modules

A module is a directory with a name; its packages are the directories below it, and the import path
of a package is the name of the module followed by the way to its directory.
-/

set_option autoImplicit false

namespace RouteAtlas

/-- A module: where it is, and what the import paths of its packages begin with. -/
structure ModuleRoot where
  root : PathName
  path : String
  deriving DecidableEq, Repr

namespace ModuleRoot

/-- The name that a line of a module file gives to the module. -/
def nameInLine? (line : String) : Option String := do
  let rest ← Text.stripLead? "module" (Text.trim line)
  match rest.toList with
  | c :: _ =>
    if Text.isBlank c then
      let name := Text.trimMatching (· == '"') (Text.trim rest)
      if name.isEmpty then none else some name
    else none
  | [] => none

/-- The name that a module file gives to its module. -/
def nameInText? (text : String) : Option String :=
  (Text.lines text).findSome? nameInLine?

/-- The module at a directory. Without a module file it is called like the directory. -/
def ofTree (t : FileTree) (root : PathName) : ModuleRoot :=
  let name? := match t.textAt (root.join "go.mod") with
    | .ok text => nameInText? text
    | .error _ => none
  ⟨root, name?.getD (root.fileName?.getD "main")⟩

/-- The import path of the package in a directory. -/
def importPathFor (r : ModuleRoot) (dir : PathName) : String :=
  let below := (PathName.componentsBelow? r.root dir).getD dir.components
  match below with
  | [] => r.path
  | cs => r.path ++ "/" ++ Text.join "/" (cs.map (·.text))

def importPathOf (r : ModuleRoot) (file : PathName) : String :=
  r.importPathFor (file.parent?.getD r.root)

/-- What follows the name of the module and a slash in an import path. -/
def pathBelow? (r : ModuleRoot) (importPath : String) : Option String :=
  (Text.stripLead? r.path importPath).bind (Text.stripLead? "/")

/-- The directory of the package with an import path. -/
def dirFor? (r : ModuleRoot) (importPath : String) : Option PathName :=
  if importPath = r.path then some r.root
  else (r.pathBelow? importPath).map fun rest => (Text.splitOn rest '/').foldl PathName.join r.root

/-- Where an import path leads. The first segment of a path outside of the standard library has a
dot. -/
def origin (r : ModuleRoot) (importPath : String) : PackageOrigin :=
  if importPath = r.path || (r.pathBelow? importPath).isSome then .sameModule
  else if (Text.before importPath '/').toList.contains '.' then .external
  else .standard

/-- Whether a file name is that of a source file that is not a test. -/
def isSourceName (name : String) : Bool :=
  Text.endsIn ".go" name && !Text.endsIn "_test.go" name

/-- Whether a directory is passed over when the files of a module are collected. -/
def isSkipped (name : String) : Bool :=
  Text.beginsWith "." name || ["vendor", "testdata", "node_modules"].contains name

def wayBelow? : Location → Location → Option Location
  | [], l => some l
  | _ :: _, [] => none
  | b :: base, n :: names => if b = n then wayBelow? base names else none

/-- The way from the root of a module to a source file of it: not through directories that are
passed over. -/
def sourceWay? (rootPlace : Location) (place : Location) (e : FileEntry) : Option Location := do
  let way ← wayBelow? rootPlace place
  let name ← way.getLast?
  if e.isFile && isSourceName name && !way.dropLast.any isSkipped then some way else none

/-- The source files of a module that a filter accepts, in the order of their paths. -/
def collectFiles (r : ModuleRoot) (t : FileTree) (filter : PathFilter) : List PathName :=
  match t.locate r.root with
  | .error _ => []
  | .ok place =>
    if t.isDirectoryAt place then
      let ways := t.entries.filterMap fun (l, e) => sourceWay? place l e
      Sorting.sorted PathName.le
        (((ways.map (Text.join "/")).filter filter.accepts).map r.root.join)
    else []

/-- Why a package cannot be loaded from a directory, or the paths of its files in order. -/
def packagePaths (r : ModuleRoot) (t : FileTree) (importPath : String) :
    Except Failure (PathName × List PathName) := do
  match r.dirFor? importPath with
  | none => .error (.packageLoad importPath ("not inside module '" ++ r.path ++ "'"))
  | some dir =>
    match t.directoryAt dir with
    | .error e =>
      .error (.packageLoad importPath ("cannot read " ++ dir.text ++ ": " ++ e.message))
    | .ok names =>
      let sources := names.filter fun (name, e) => e.isFile && isSourceName name
      match sources with
      | [] => .error (.packageLoad importPath ("no Go files in " ++ dir.text))
      | _ => .ok (dir, Sorting.sorted PathName.le (sources.map fun (name, _) => dir.join name))

/-- Neighbours that are equal taken together. -/
def distinct : List String → List String
  | [] => []
  | [a] => [a]
  | a :: b :: rest => if a = b then distinct (b :: rest) else a :: distinct (b :: rest)

def packageOf (importPath : String) (dir : PathName) (files : List SourceFile) :
    Except Failure Package :=
  match distinct (Sorting.sorted (fun a b => a ≤ b) (files.map (·.package))) with
  | [name] => .ok ⟨importPath, name, dir, files⟩
  | names =>
    .error (.packageLoad importPath ("found multiple packages: " ++ Text.join ", " names))

/-- Why a package outside of the module is not loaded. -/
def refusal? (r : ModuleRoot) (importPath : String) : Option Failure :=
  match r.origin importPath with
  | .sameModule => none
  | .standard => some (.packageLoad importPath "standard library packages are not loaded")
  | .external => some (.packageLoad importPath ("outside module '" ++ r.path ++ "'"))

/-- The source file with some contents, together with its version. -/
def sourceOf (p : PathName) (contents : ByteArray) (modified : Int) : SourceFile :=
  { SourceFile.read p contents with
    version := some (.ofContents p (min modified.toNat (UInt64.size - 1)) contents) }

def readSource (t : FileTree) (p : PathName) : Except Failure SourceFile :=
  match t.fileAt p with
  | .error e => .error (.unreadable p e.message)
  | .ok (contents, modified) => .ok (sourceOf p contents modified)

end ModuleRoot

end RouteAtlas
