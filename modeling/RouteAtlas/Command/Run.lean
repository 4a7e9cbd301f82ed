import RouteAtlas.Command.Basic
import RouteAtlas.Config.Reader
import RouteAtlas.Pipeline
import RouteAtlas.Report.Basic

/-!
# Running commands

A command reads a file tree and gives what it prints, its exit code and the tree it leaves behind.
The cache is written back whether or not the analysis succeeds, and it does not matter when it
cannot be written.
-/

set_option autoImplicit false

namespace RouteAtlas

/-- What a command leaves behind. -/
structure Outcome where
  exitCode : Nat
  out : String := ""
  err : String := ""
  tree : FileTree

/-- Why a project cannot be analysed at all. -/
inductive OpenError where
  | inaccessible (path : PathName) (error : FileError)
  | notDirectory (path : PathName)
  | config (error : Config.LoadError)
  deriving DecidableEq, Repr

/-- The wording of why a project cannot be analysed at all. -/
def OpenError.message : OpenError → String
  | .inaccessible path error =>
    "cannot access path " ++ Text.quoted path.text ++ ": " ++ error.message
  | .notDirectory path => path.text ++ " is not a directory"
  | .config error => error.message

namespace MetadataCache

/-- The cache in the file at a path, which is empty when there is none. -/
def load (t : FileTree) (path : PathName) : MetadataCache :=
  match t.textAt path with
  | .ok text => ofText text
  | .error _ => {}

/-- The tree with the cache in the file at a path. Where that cannot be, the tree stays as far as
it has come. -/
def save (c : MetadataCache) (t : FileTree) (path : PathName) : FileTree :=
  match t.makeDirectories (path.parent?.getD ⟨""⟩) with
  | .error _ => t
  | .ok t =>
    match t.putFile path c.render.toUTF8 0 with
    | .error _ => t
    | .ok t => t

end MetadataCache

namespace ProjectOptions

/-- The analysis of a project, with its settings and its cache. -/
def pipeline (o : ProjectOptions) (t : FileTree) : Except OpenError Pipeline := do
  let root ← (t.absolutePath o.path).mapError (.inaccessible o.path)
  if !t.isDirectory root then throw (.notDirectory root)
  let config ← (Config.load t root o.config).mapError .config
  return { root := root, config := config, cache := (o.cache.map (MetadataCache.load t)).getD {} }

/-- The tree after an analysis, with the cache that it leaves. -/
def keepCache (o : ProjectOptions) (t : FileTree) (p : Pipeline) : FileTree :=
  match o.cache with
  | some path => p.cache.save t path
  | none => t

end ProjectOptions

/-- The text that is printed about an error. -/
def PipelineError.report (e : PipelineError) : String :=
  let stack := match e with
    | .build failure => failure.stack
    | _ => []
  "Error: " ++ e.message ++ "\n" ++ String.join (stack.map fun line => "  " ++ line ++ "\n")

namespace Outcome

/-- The outcome of an analysis that failed. -/
def ofError (t : FileTree) (e : PipelineError) : Outcome :=
  { exitCode := if e.isValidation then 1 else 2, err := e.report, tree := t }

/-- The outcome of an analysis that gave a text, or failed. -/
def ofText (t : FileTree) : Except PipelineError String → Outcome
  | .ok text => { exitCode := 0, out := text, tree := t }
  | .error e => ofError t e

/-- The outcome of a command that is told a format it does not know. -/
def badFormat (t : FileTree) (format words : String) : Outcome :=
  { exitCode := 2
    err := "Error: invalid format " ++ Text.quoted format ++ ", must be " ++ words ++ "\n"
    tree := t }

end Outcome

namespace Command

/-- A configuration file to start with. -/
def configTemplate : String :=
  Text.join "\n"
    ["# routescan configuration", "#",
     "# Every field is optional; the values below are the defaults.", "",
     "# Files to analyze, relative to the project root.", "include:", "  - \"**/*.go\"", "",
     "# Files to skip.", "exclude:", "  - \"**/mocks/**\"", "",
     "# Embedded type that marks a struct as a controller.",
     "controller_marker: ControllerBase", "",
     "# Structs treated as structured error payloads in route returns.",
     "structured_error_types:", "  - Rfc7807Error", "",
     "# Leave @Hidden routes out of the generated metadata.", "exclude_hidden_routes: false", "",
     "# Content type for routes without @ContentType.",
     "default_content_type: application/json", ""]

/-- Prints the catalog of a project. -/
def runAnalyze (t : FileTree) (o : ProjectOptions) : Except OpenError Outcome := do
  let (result, p) := (← o.pipeline t).run t
  return .ofText (o.keepCache t p) (result.map fun c => c.toJson.pretty ++ "\n")

/-- Prints the findings about a project. The exit code tells whether there is an error among
them. -/
def runValidate (t : FileTree) (colors : Bool) (o : ProjectOptions) (format : String) :
    Except OpenError Outcome := do
  if format != "pretty" && format != "json" then
    return .badFormat t format "'pretty' or 'json'"
  let (built, p) := (← o.pipeline t).generate t
  let t := o.keepCache t p
  match built.bind fun _ => p.validate with
  | .error e => return .ofError t e
  | .ok entities =>
    let path := o.path.text
    return {
      exitCode := if (Totals.ofEntities entities).passed then 0 else 1
      out :=
        if format = "json" then (Report.json path entities).pretty ++ "\n"
        else Report.text colors path p.root entities
      tree := t }

/-- Prints the graph of a project. -/
def runDump (t : FileTree) (o : ProjectOptions) (format : String) : Except OpenError Outcome := do
  if format != "text" && format != "dot" then
    return .badFormat t format "'text' or 'dot'"
  let (built, p) := (← o.pipeline t).generate t
  return .ofText (o.keepCache t p)
    (built.bind fun _ => if format = "dot" then p.dot else p.outline)

/-- Makes the directory that a new file is to stand in. -/
def makeParent (t : FileTree) (path : PathName) : Except FileError FileTree :=
  match path.parent? with
  | none => .ok t
  | some parent =>
    if parent.text.isEmpty || parent.same ⟨"."⟩ then .ok t else t.makeDirectories parent

/-- Writes a configuration file to start with, unless there is something in its place. -/
def runInit (t : FileTree) (output : PathName) : Outcome :=
  let failed := fun (t : FileTree) (words : String) =>
    ({ exitCode := 2, err := "Error: " ++ words ++ "\n", tree := t } : Outcome)
  if t.isThere output then
    failed t ("file already exists: " ++ output.text ++
      "\nRemove it or use --output to specify a different path")
  else
    match makeParent t output with
    | .error e => failed t ("failed to create directory: " ++ e.message)
    | .ok t =>
      match t.putFile output configTemplate.toUTF8 0 with
      | .error e => failed t ("failed to write config: " ++ e.message)
      | .ok t =>
        { exitCode := 0
          out :=
            "Created " ++ output.text ++ "\n\nNext steps:\n  1. Edit " ++ output.text ++
              " to match your project layout\n  2. Run: routescan validate .\n"
          tree := t }

/-- Runs a command. -/
def run (t : FileTree) (colors : Bool) : Command → Except OpenError Outcome
  | .analyze o => runAnalyze t o
  | .validate o format => runValidate t colors o format
  | .dump o format => runDump t o format
  | .init output => .ok (runInit t output)

end Command

end RouteAtlas
