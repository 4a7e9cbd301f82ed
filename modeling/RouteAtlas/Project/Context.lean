import RouteAtlas.Project.Module

/-!
# Contexts

A context remembers the files it has read and the packages it has loaded, so that a later change of
a file does not show in it.
-/

set_option autoImplicit false

namespace RouteAtlas

/-- What is remembered about a module. -/
structure AnalysisContext where
  base : ModuleRoot
  files : List SourceFile := []
  packages : List Package := []
  deriving DecidableEq

namespace AnalysisContext

/-- A fresh context for the module at a directory. -/
def ofTree (t : FileTree) (root : PathName) : AnalysisContext := { base := .ofTree t root }

/-- An action on a context that may fail. -/
abbrev Action := ExceptT Failure (StateM AnalysisContext)

/-- The file at a path, read when it is not remembered. -/
def analyzeFile (t : FileTree) (p : PathName) : Action SourceFile := do
  match (← get).files.find? fun f => f.path.same p with
  | some f => return f
  | none =>
    match ModuleRoot.readSource t p with
    | .error e => throw e
    | .ok f =>
      modify fun c => { c with files := c.files ++ [f] }
      return f

/-- The files at some paths, each read when it is not remembered. Those that cannot be read are
reported one by one. -/
def analyzeFiles (t : FileTree) (paths : List PathName) :
    StateM AnalysisContext (List (Except Failure SourceFile)) :=
  paths.mapM fun p => (analyzeFile t p).run

/-- The package with an import path, loaded when it is not remembered. All files of the package are
read before the first failure counts. -/
def package (t : FileTree) (importPath : String) : Action Package := do
  let c ← get
  match c.packages.find? (·.importPath == importPath) with
  | some p => return p
  | none =>
    match c.base.refusal? importPath with
    | some e => throw e
    | none =>
      let (dir, paths) ← (c.base.packagePaths t importPath : Except Failure _)
      let results ← analyzeFiles t paths
      let files ← results.mapM fun r =>
        match r with
        | .ok f => pure f
        | .error e => throw (.packageLoad importPath e.message)
      let p ← (ModuleRoot.packageOf importPath dir files : Except Failure _)
      modify fun c => { c with packages := c.packages ++ [p] }
      return p

def source (t : FileTree) (r : ModuleRoot) : PackageSource (StateM AnalysisContext) where
  origin := r.origin
  package := package t
  importPathOf := r.importPathOf

/-- The files of the module that a filter accepts, in the order of their paths; those that cannot
be read are passed over. -/
def scan (t : FileTree) (filter : PathFilter) : StateM AnalysisContext (List SourceFile) := do
  let results ← analyzeFiles t ((← get).base.collectFiles t filter)
  return Sorting.sorted (fun a b => a.path.le b.path) (results.filterMap fun r =>
    match r with
    | .ok f => some f
    | .error _ => none)

end AnalysisContext

end RouteAtlas
