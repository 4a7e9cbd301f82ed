import RouteAtlas.Diagnostic.Entity
import RouteAtlas.Json.Writer
import RouteAtlas.Report.Paint

/-!
# Reports

The findings of an analysis for a reader, as indented text, and for a program, as JSON. Trees
without findings are left out of the text.
-/

set_option autoImplicit false

namespace RouteAtlas

namespace Report

/-- The version that reports carry. -/
def version : String := "0.1.0"

/-- The findings as JSON, with the path that was analysed. -/
def json (path : String) (entities : List DiagnosticEntity) : Json :=
  let totals := Totals.ofEntities entities
  .object
    [("version", .string version), ("path", .string path), ("passed", .bool totals.passed),
     ("errors", .nat totals.errors), ("warnings", .nat totals.warnings),
     ("infos", .nat totals.infos), ("hints", .nat totals.hints),
     ("entities", .array (DiagnosticEntity.listToJson entities))]

/-- The word for a severity, all of one width. -/
def severityTag (colors : Bool) : Severity → String
  | .error => Paint.red.apply colors "ERROR"
  | .warning => Paint.yellow.apply colors "WARN "
  | .info => Paint.blue.apply colors "INFO "
  | .hint => Paint.dimmed.apply colors "HINT "

def indent (depth : Nat) : String := String.ofList (List.replicate (2 * depth) ' ')

/-- A file as it is shown: below the root by the rest of its path. -/
def shownFile (root file : PathName) : String :=
  match root.componentsBelow? file with
  | some rest => (PathName.ofComponents rest).text
  | none => file.text

/-- The two lines about a finding. -/
def findingLines (colors : Bool) (root : PathName) (file : Option PathName) (depth : Nat)
    (d : Diagnostic) : String :=
  let place := match file with
    | some f => Paint.blue.apply colors (shownFile root f)
    | none => ""
  indent depth ++ "  " ++ severityTag colors d.severity ++ " " ++
    Paint.dimmed.apply colors (Text.padTo 30 d.code.name) ++ place ++
    Paint.dimmed.apply colors (":" ++ d.span.render) ++ "\n" ++
    indent depth ++ "          " ++ d.message ++ "\n"

mutual

/-- The lines about a tree. -/
def entityLines (colors : Bool) (root : PathName) (depth : Nat) : DiagnosticEntity → String
  | ⟨kind, name, file, diagnostics, children⟩ =>
    let totals := Totals.ofEntity ⟨kind, name, file, diagnostics, children⟩
    if totals.total = 0 then ""
    else
      indent depth ++ Paint.dimmed.apply colors kind.label ++ " " ++
        Paint.bold.apply colors name ++ " " ++
        Paint.dimmed.apply colors
          ("(" ++ toString totals.errors ++ " error(s), " ++ toString totals.warnings ++
            " warning(s))") ++ "\n" ++
        String.join (diagnostics.map (findingLines colors root file depth)) ++
        childLines colors root (depth + 1) children

/-- The lines about several trees. -/
def childLines (colors : Bool) (root : PathName) (depth : Nat) : List DiagnosticEntity → String
  | [] => ""
  | e :: rest => entityLines colors root depth e ++ childLines colors root depth rest

end

/-- The findings as text, with the path that was analysed. -/
def text (colors : Bool) (path : String) (root : PathName) (entities : List DiagnosticEntity) :
    String :=
  let totals := Totals.ofEntities entities
  let trees := entities.map fun e =>
    if (Totals.ofEntity e).total = 0 then "" else entityLines colors root 1 e ++ "\n"
  let status :=
    if totals.passed then Paint.green.apply colors "PASSED" else Paint.red.apply colors "FAILED"
  "\n  " ++ Paint.boldCyan.apply colors "routescan" ++ " v" ++ version ++ "\n\n  " ++
    Paint.dimmed.apply colors "Scanning: " ++ path ++ "\n\n" ++ String.join trees ++ "  " ++
    Paint.dimmed.apply colors totals.render ++ "  " ++ status ++ "\n\n"

end Report

end RouteAtlas
