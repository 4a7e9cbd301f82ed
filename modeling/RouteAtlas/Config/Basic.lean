import RouteAtlas.Failure
import RouteAtlas.Files.Glob
import RouteAtlas.Json.Decode
import RouteAtlas.Text.Quoted

/-!
# Configuration

What a project says about its own analysis: which files belong to it, what marks a controller, and
how the result is presented. Every setting has a value of its own when it is not given.
-/

set_option autoImplicit false

namespace RouteAtlas

/-- The settings of an analysis. -/
structure Config where
  /-- Patterns of the files to analyse. -/
  includes : List String := ["**/*.go"]
  /-- Patterns of the files to leave out. -/
  excludes : List String := []
  /-- The name of the embedded type that marks a struct as a controller. -/
  controllerMarker : String := "ControllerBase"
  /-- The names of the structs that carry errors. -/
  structuredErrors : List String := ["Rfc7807Error"]
  /-- Whether hidden routes are left out of the result. -/
  excludeHidden : Bool := false
  /-- The content type of a route that names none. -/
  defaultContentType : String := "application/json"
  deriving DecidableEq, Repr

/-- Which paths belong to a project. -/
structure PathFilter where
  includes : List Glob
  excludes : List Glob

/-- Whether a path, relative to the root of the project, belongs to it. -/
def PathFilter.accepts (f : PathFilter) (path : String) : Bool :=
  f.includes.any (·.accepts path) && !f.excludes.any (·.accepts path)

/-- Why settings cannot be used. -/
inductive ConfigError where
  | emptyMarker
  | noIncludes
  | invalidPattern (pattern : String) (error : GlobError)
  deriving DecidableEq, Repr

/-- The wording of an error in the settings. -/
def ConfigError.message : ConfigError → String
  | .emptyMarker => "controller_marker must not be empty"
  | .noIncludes => "include must list at least one pattern"
  | .invalidPattern pattern error =>
    "invalid glob pattern " ++ Text.quoted pattern ++ ": " ++ error.message pattern

namespace Config

def readGlobs (patterns : List String) : Except Failure (List Glob) :=
  patterns.mapM fun pattern =>
    match Glob.read pattern with
    | .ok glob => .ok glob
    | .error e => .error (.invalidPattern pattern (e.message pattern))

/-- The filter of the settings. -/
def pathFilter (c : Config) : Except Failure PathFilter := do
  return ⟨← readGlobs c.includes, ← readGlobs c.excludes⟩

def isStructuredError (c : Config) (name : String) : Bool := c.structuredErrors.contains name

def patternError? (patterns : List String) : Option ConfigError :=
  patterns.findSome? fun pattern =>
    match Glob.read pattern with
    | .ok _ => none
    | .error e => some (.invalidPattern pattern e)

/-- What is wrong with the settings, if anything. -/
def error? (c : Config) : Option ConfigError :=
  if Text.trim c.controllerMarker = "" then some .emptyMarker
  else if c.includes.isEmpty then some .noIncludes
  else patternError? (c.includes ++ c.excludes)

/-- The names of the settings in order. -/
def fieldNames : List String :=
  ["include", "exclude", "controller_marker", "structured_error_types", "exclude_hidden_routes",
   "default_content_type"]

def toJson (c : Config) : Json :=
  .object
    [("include", .strings c.includes), ("exclude", .strings c.excludes),
     ("controller_marker", .string c.controllerMarker),
     ("structured_error_types", .strings c.structuredErrors),
     ("exclude_hidden_routes", .bool c.excludeHidden),
     ("default_content_type", .string c.defaultContentType)]

/-- Decodes settings, any of which may be missing. -/
def ofJson? (j : Json) : Option Config := do
  let r ← Json.looseRecord? fieldNames j
  let d : Config := {}
  some
    { includes := ← r.defaulted? "include" d.includes Json.texts?
      excludes := ← r.defaulted? "exclude" d.excludes Json.texts?
      controllerMarker := ← r.defaulted? "controller_marker" d.controllerMarker Json.text?
      structuredErrors := ← r.defaulted? "structured_error_types" d.structuredErrors Json.texts?
      excludeHidden := ← r.defaulted? "exclude_hidden_routes" d.excludeHidden Json.bool?
      defaultContentType :=
        ← r.defaulted? "default_content_type" d.defaultContentType Json.text? }

end Config

end RouteAtlas
