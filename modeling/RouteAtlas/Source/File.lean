import RouteAtlas.Cache.Version
import RouteAtlas.Source.Parser

/-!
# Source files

A source file as the analysis sees it, read from its bytes.
-/

set_option autoImplicit false

namespace RouteAtlas

/-- What a source file declares. -/
structure SourceFile where
  path : PathName
  package : String := ""
  imports : List Import := []
  types : List TypeDecl := []
  methods : List MethodDecl := []
  consts : List ConstDecl := []
  /-- The version of the file it was read from. -/
  version : Option FileVersion := none
  /-- Whether the brackets in the file do not match, the only error in it that is looked for. -/
  hasErrors : Bool := false
  /-- Whether a number in it did not fit a word. -/
  overflows : Bool := false
  deriving DecidableEq, Repr

namespace SourceFile

def findType? (f : SourceFile) (name : String) : Option TypeDecl :=
  f.types.find? (·.name == name)

/-- The import that a name refers to, as far as the imports alone tell. -/
def importByName? (f : SourceFile) (name : String) : Option Import :=
  (f.imports.filter fun i => i.kind != .dot && i.kind != .blank).find? (·.defaultName == name)

/-- The imports that expose their names unqualified. -/
def dotImports (f : SourceFile) : List Import := f.imports.filter (·.kind == .dot)

/-- The file with one more declaration. The first package clause counts. -/
def add (f : SourceFile) (decl : Source.TopLevel × Span × DocComment) : SourceFile :=
  let (content, _, doc) := decl
  match content with
  | .package name => if f.package.isEmpty then { f with package := name } else f
  | .imports specs => { f with imports := f.imports ++ specs }
  | .types specs =>
    let types := (Source.withSharedDoc doc specs).map fun (spec, span, doc) =>
      { name := spec.1, shape := spec.2, doc := doc, span := span }
    { f with types := f.types ++ types }
  | .method (some m) => { f with methods := f.methods ++ [{ m with doc := doc }] }
  | .method none => f
  | .consts specs =>
    let consts := Source.constants (Source.withSharedDoc doc specs)
    { f with consts := f.consts ++ consts.value, overflows := f.overflows || consts.overflows }
  | .other => f

/-- The declarations in the tokens of a file, each with its span and the comment before it. -/
def declarations (src : Source.Contents) (ts : List Source.Token) :
    List (Source.TopLevel × Span × DocComment) :=
  Source.withDocs (Source.topLevelsFrom src ts.length ts)

/-- The file with some contents. -/
def read (path : PathName) (bytes : ByteArray) : SourceFile :=
  let ts := Source.layout (Source.tokens bytes.toList)
  (declarations ⟨bytes⟩ ts).foldl add { path := path, hasErrors := !Source.isClosed 0 ts }

/-- What comes out of reading a file where arithmetic is checked. -/
def outcome (f : SourceFile) : Except Overflow SourceFile := (Checked.mk f f.overflows).outcome

end SourceFile

end RouteAtlas
