import RouteAtlas.Project.Module

/-!
# Snapshots

A snapshot is a module at one moment. Nothing changes in it, so its packages are a plain function
of their import paths. The source files of the whole tree are read once, when it is taken.
-/

set_option autoImplicit false

namespace RouteAtlas

def FileTree.sources (t : FileTree) : List (Location × SourceFile) :=
  t.entries.filterMap fun (l, e) =>
    match l.getLast?, e with
    | some name, .file contents modified =>
      if ModuleRoot.isSourceName name then
        some (l, ModuleRoot.sourceOf (.ofLocation l) contents modified)
      else none
    | _, _ => none

/-- A module at one moment. -/
structure Snapshot where
  base : ModuleRoot
  tree : FileTree
  /-- The source files of the tree, as they were read. -/
  sources : List (Location × SourceFile)
  sources_eq : sources = tree.sources
  /-- The files that the analysis starts from. -/
  files : List SourceFile

namespace Snapshot

/-- The same file under another path. -/
def renamed (f : SourceFile) (p : PathName) : SourceFile :=
  { f with path := p, version := f.version.map fun v => { v with path := p } }

/-- The source file at a path of a tree, taken from those that were read. -/
def readFrom (t : FileTree) (sources : List (Location × SourceFile)) (p : PathName) :
    Except Failure SourceFile :=
  match t.fileAt p with
  | .error e => .error (.unreadable p e.message)
  | .ok (contents, modified) =>
    match (t.locate p).toOption.bind fun l => sources.find? (·.1 == l) with
    | some (_, f) => .ok (renamed f p)
    | none => .ok (ModuleRoot.sourceOf p contents modified)

/-- The snapshot of a module that starts from the files a filter accepts. -/
def ofTree (t : FileTree) (root : PathName) (filter : PathFilter) : Snapshot :=
  let base := ModuleRoot.ofTree t root
  let sources := t.sources
  let files := (base.collectFiles t filter).filterMap fun p => (readFrom t sources p).toOption
  ⟨base, t, sources, rfl, files⟩

/-- The snapshot of a module that starts from the files at some paths. -/
def ofPaths (t : FileTree) (root : PathName) (paths : List PathName) :
    Except Failure Snapshot := do
  let sources := t.sources
  let files ← paths.mapM (readFrom t sources)
  return ⟨.ofTree t root, t, sources, rfl, files⟩

/-- The file at a path: one of those the analysis starts from, or else read. -/
def file (s : Snapshot) (p : PathName) : Except Failure SourceFile :=
  match s.files.find? fun f => f.path.same p with
  | some f => .ok f
  | none => readFrom s.tree s.sources p

def package (s : Snapshot) (importPath : String) : Except Failure Package :=
  match s.base.refusal? importPath with
  | some e => .error e
  | none => do
    let (dir, paths) ← s.base.packagePaths s.tree importPath
    let files ← paths.mapM fun p =>
      match s.file p with
      | .ok f => .ok f
      | .error e => .error (.packageLoad importPath e.message)
    ModuleRoot.packageOf importPath dir files

def source (s : Snapshot) : PackageSource Id where
  origin := s.base.origin
  package := fun importPath => s.package importPath
  importPathOf := s.base.importPathOf

/-- A bound on the number of identities that declarations of a snapshot can have: a package is
known by the path of an import or as that of a file. -/
def declarationBound (s : Snapshot) : Nat :=
  let files := s.sources.map (·.2) ++ s.files
  ((files.flatMap (·.imports)).length + files.length + 1) * (files.flatMap (·.types)).length + 1

end Snapshot

end RouteAtlas
