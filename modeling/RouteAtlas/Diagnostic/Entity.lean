import RouteAtlas.Diagnostic.Basic
import RouteAtlas.Files.PathName
import RouteAtlas.Json.Decode

/-!
# Findings by entity

The findings of an analysis form trees: a controller has its routes below it, a route its
parameters and results. Counting, searching and summarising go through a whole tree, an entity
before its children.
-/

set_option autoImplicit false

namespace RouteAtlas

/-- What an entity of the report is. -/
inductive EntityKind where
  | controller
  | route
  | parameter
  | result
  | struct
  | enum
  | synonym
  deriving DecidableEq, Repr

namespace EntityKind

/-- The word for a kind in reports. -/
def label : EntityKind → String
  | .controller => "controller"
  | .route => "route"
  | .parameter => "parameter"
  | .result => "return"
  | .struct => "struct"
  | .enum => "enum"
  | .synonym => "alias"

/-- The name of a kind in stored reports. -/
def name : EntityKind → String
  | .result => "returnvalue"
  | kind => kind.label

def all : List EntityKind :=
  [.controller, .route, .parameter, .result, .struct, .enum, .synonym]

/-- The kind of a name in stored reports. -/
def ofName? (s : String) : Option EntityKind := all.find? (·.name == s)

end EntityKind

/-- An entity with its findings. -/
structure DiagnosticEntity where
  kind : EntityKind
  name : String
  file : Option PathName
  diagnostics : List Diagnostic
  children : List DiagnosticEntity

/-- Findings by severity. -/
structure ClassifiedFindings where
  errors : List Diagnostic := []
  warnings : List Diagnostic := []
  infos : List Diagnostic := []
  hints : List Diagnostic := []

namespace ClassifiedFindings

/-- One more finding, behind the others of its severity. -/
def add (c : ClassifiedFindings) (d : Diagnostic) : ClassifiedFindings :=
  match d.severity with
  | .error => { c with errors := c.errors ++ [d] }
  | .warning => { c with warnings := c.warnings ++ [d] }
  | .info => { c with infos := c.infos ++ [d] }
  | .hint => { c with hints := c.hints ++ [d] }

def ofSeverity (c : ClassifiedFindings) : Severity → List Diagnostic
  | .error => c.errors
  | .warning => c.warnings
  | .info => c.infos
  | .hint => c.hints

end ClassifiedFindings

namespace DiagnosticEntity

mutual

def findings : DiagnosticEntity → List Diagnostic
  | ⟨_, _, _, diagnostics, children⟩ => diagnostics ++ findingsOfAll children

/-- The findings of several trees. -/
def findingsOfAll : List DiagnosticEntity → List Diagnostic
  | [] => []
  | e :: rest => findings e ++ findingsOfAll rest

end

mutual

/-- Adds the findings of a tree: its own first, then those of the trees below it. -/
def collectInto (out : ClassifiedFindings) : DiagnosticEntity → ClassifiedFindings
  | ⟨_, _, _, diagnostics, children⟩ =>
    collectAllInto (diagnostics.foldl ClassifiedFindings.add out) children

/-- Adds the findings of several trees. -/
def collectAllInto (out : ClassifiedFindings) : List DiagnosticEntity → ClassifiedFindings
  | [] => out
  | e :: rest => collectAllInto (collectInto out e) rest

end

/-- The findings of the tree by severity. -/
def classify (e : DiagnosticEntity) : ClassifiedFindings := collectInto {} e

/-- The findings of one severity in the tree. -/
def ofSeverity (e : DiagnosticEntity) (s : Severity) : List Diagnostic := e.classify.ofSeverity s

mutual

/-- Whether there is an error in the tree. -/
def hasErrors : DiagnosticEntity → Bool
  | ⟨_, _, _, diagnostics, children⟩ =>
    diagnostics.any (·.severity == .error) || anyHasErrors children

/-- Whether there is an error in one of several trees. -/
def anyHasErrors : List DiagnosticEntity → Bool
  | [] => false
  | e :: rest => hasErrors e || anyHasErrors rest

end

mutual

def find? (kind : EntityKind) (name : String) : DiagnosticEntity → Option DiagnosticEntity
  | ⟨k, n, file, diagnostics, children⟩ =>
    if k = kind && n == name then some ⟨k, n, file, diagnostics, children⟩
    else findInAll? kind name children

/-- The first entity of a kind and name in several trees. -/
def findInAll? (kind : EntityKind) (name : String) :
    List DiagnosticEntity → Option DiagnosticEntity
  | [] => none
  | e :: rest => (find? kind name e).orElse fun _ => findInAll? kind name rest

end

mutual

/-- The tree as a JSON object; a missing file and an empty list of children are left out. -/
def toJson : DiagnosticEntity → Json
  | ⟨kind, name, file, diagnostics, children⟩ =>
    .object
      ([("kind", .string kind.name), ("name", .string name)] ++
       (match file with
        | some p => [("file", .string p.text)]
        | none => []) ++
       [("diagnostics", .array (diagnostics.map Diagnostic.toJson))] ++
       (match children with
        | [] => []
        | c :: rest => [("children", .array (c.toJson :: listToJson rest))]))

/-- Trees as JSON objects. -/
def listToJson : List DiagnosticEntity → List Json
  | [] => []
  | e :: rest => e.toJson :: listToJson rest

end

end DiagnosticEntity

/-- Decodes a span. -/
def Span.ofJson? (j : Json) : Option Span := do
  let r ← Json.record?
    ["start_byte", "end_byte", "start_line", "start_col", "end_line", "end_col"] j
  some
    { startByte := ← r.field? "start_byte" Json.word?
      endByte := ← r.field? "end_byte" Json.word?
      startLine := ← r.field? "start_line" Json.word?
      startCol := ← r.field? "start_col" Json.word?
      endLine := ← r.field? "end_line" Json.word?
      endCol := ← r.field? "end_col" Json.word? }

/-- Decodes a finding. -/
def Diagnostic.ofJson? (j : Json) : Option Diagnostic := do
  let r ← Json.record? ["message", "severity", "code", "span"] j
  some
    { message := ← r.field? "message" Json.text?
      severity := ← r.field? "severity" (Json.choice? Severity.ofName?)
      code := ← r.field? "code" (Json.choice? DiagnosticCode.ofName?)
      span := ← r.field? "span" Span.ofJson? }

/-- Decodes an entity, given how to decode its children. -/
def DiagnosticEntity.ofJsonWith? (child? : Json → Option DiagnosticEntity) (j : Json) :
    Option DiagnosticEntity := do
  let r ← Json.record? ["kind", "name", "file", "diagnostics", "children"] j
  some
    { kind := ← r.field? "kind" (Json.choice? EntityKind.ofName?)
      name := ← r.field? "name" Json.text?
      file := ← r.optional? "file" fun j => j.text?.map PathName.mk
      diagnostics := ← r.field? "diagnostics" (Json.list? Diagnostic.ofJson?)
      children := ← r.field? "children" (Json.list? child?) }

/-- Decodes a tree of less than `fuel` levels. -/
def DiagnosticEntity.ofJsonWithin? : Nat → Json → Option DiagnosticEntity
  | 0, _ => none
  | fuel + 1, j => DiagnosticEntity.ofJsonWith? (DiagnosticEntity.ofJsonWithin? fuel) j

/-- Decodes a tree. -/
def DiagnosticEntity.ofJson? (j : Json) : Option DiagnosticEntity :=
  DiagnosticEntity.ofJsonWithin? (j.depth + 1) j

/-- How many findings of each severity there are. -/
structure Totals where
  errors : Nat
  warnings : Nat
  infos : Nat
  hints : Nat
  deriving DecidableEq, Repr

namespace Totals

def ofClassified (c : ClassifiedFindings) : Totals where
  errors := c.errors.length
  warnings := c.warnings.length
  infos := c.infos.length
  hints := c.hints.length

/-- The totals of a tree. -/
def ofEntity (e : DiagnosticEntity) : Totals := ofClassified e.classify

def add (a b : Totals) : Totals where
  errors := a.errors + b.errors
  warnings := a.warnings + b.warnings
  infos := a.infos + b.infos
  hints := a.hints + b.hints

/-- The totals of several trees. -/
def ofEntities (es : List DiagnosticEntity) : Totals :=
  es.foldl (fun acc e => acc.add (ofEntity e)) ⟨0, 0, 0, 0⟩

/-- The number of findings. -/
def total (t : Totals) : Nat := t.errors + t.warnings + t.infos + t.hints

/-- Whether there is no error. -/
def passed (t : Totals) : Bool := t.errors == 0

/-- The totals in words. -/
def render (t : Totals) : String :=
  toString t.errors ++ " error(s), " ++ toString t.warnings ++ " warning(s), " ++
    toString t.infos ++ " info, " ++ toString t.hints ++ " hint(s)"

end Totals

/-- The failure of an analysis whose findings hold an error. -/
structure ValidationFailure where
  summary : String
  errorCount : Nat
  deriving DecidableEq, Repr

namespace ValidationFailure

def indent (depth : Nat) : String := String.ofList (List.replicate (2 * depth) ' ')

/-- A line of the summary about one finding of an entity. -/
def findingLine (depth : Nat) (file : Option PathName) (d : Diagnostic) : String :=
  let place := match file with
    | some p => p.text ++ ":" ++ d.span.render
    | none => d.span.render
  "\n" ++ indent depth ++ "  " ++ d.severity.name ++ "[" ++ d.code.name ++ "] " ++ place ++ ": " ++
    d.message

mutual

/-- The lines of the summary about a tree; a tree without findings has none. -/
def entityLines (depth : Nat) : DiagnosticEntity → String
  | ⟨kind, name, file, diagnostics, children⟩ =>
    let totals := Totals.ofEntity ⟨kind, name, file, diagnostics, children⟩
    if totals.total = 0 then ""
    else
      "\n" ++ indent depth ++ kind.label ++ " " ++ name ++ ": " ++ totals.render ++
        String.join (diagnostics.map (findingLine depth file)) ++ childLines (depth + 1) children

/-- The lines of the summary about several trees. -/
def childLines (depth : Nat) : List DiagnosticEntity → String
  | [] => ""
  | e :: rest => entityLines depth e ++ childLines depth rest

end

/-- The failure of some trees, `none` when there is no error in them. -/
def ofEntities? (es : List DiagnosticEntity) : Option ValidationFailure :=
  let errors := es.foldl (fun n e => n + e.classify.errors.length) 0
  if errors = 0 then none
  else some
    { summary :=
        "validation failed with " ++ toString errors ++ " error(s)" ++ childLines 1 es
      errorCount := errors }

end ValidationFailure

end RouteAtlas
