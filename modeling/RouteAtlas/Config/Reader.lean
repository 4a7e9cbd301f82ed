import RouteAtlas.Config.Basic
import RouteAtlas.Files.Tree
import RouteAtlas.Yaml.Event
import RouteAtlas.Yaml.Plain

/-!
# Configuration files

The settings of a project stand in a YAML file at its root or in one that is named explicitly. The
settings are read in the order in which the file gives them, so of several errors the first one in
the file is reported; what is wrong with the text behind it is not looked at.
-/

set_option autoImplicit false

namespace RouteAtlas

/-- Why the text of a configuration file has no settings. -/
inductive SettingsError where
  | malformed (error : Yaml.SyntaxError)
  /-- The text ends where something is expected. -/
  | unfinished
  /-- The text goes on behind the first document. -/
  | moreDocuments
  /-- Something that does not fit where it stands, with the setting it belongs to. -/
  | unfit (path : String) (mark : Yaml.Mark) (words : String)
  deriving DecidableEq, Repr

/-- The wording of an error in the text of a configuration file. -/
def SettingsError.message : SettingsError → String
  | .malformed error => error.message
  | .unfinished => "EOF while parsing a value"
  | .moreDocuments =>
    "deserializing from YAML containing more than one document is not supported"
  | .unfit path mark words =>
    (if path = "" then "" else path ++ ": ") ++ words ++
      (if mark.isStart then "" else " at " ++ mark.render)

namespace Yaml.Document

/-- The error of a document that ends too early. -/
def cutOff (d : Document) : SettingsError :=
  match d.error with
  | some e => .malformed e
  | none => .unfinished

/-- The event that a reference stands for, and any other event itself. -/
def target (d : Document) (e : Event) : Event :=
  match e.kind with
  | .reference anchor => (d.eventsAt anchor).headD e
  | _ => e

end Yaml.Document

namespace Yaml.Event

/-- The error about an event where something else is expected. -/
def unfit (e : Event) (path expected : String) : SettingsError :=
  .unfit path e.mark
    (match e.kind with
     | .scalar text style tag => mismatch text style tag expected
     | .mappingStart => "invalid type: map, expected " ++ expected
     | _ => "invalid type: sequence, expected " ++ expected)

/-- Whether an event is a value that is not written, which is as good as an empty sequence or
mapping. -/
def isNothing (e : Event) : Bool :=
  match e.kind with
  | .scalar text style _ => text.isEmpty && style == .plain
  | _ => false

/-- The text of a scalar. -/
def text (e : Event) (path expected : String) : Except SettingsError String :=
  match e.kind with
  | .scalar text _ _ => .ok text
  | _ => .error (e.unfit path expected)

/-- The truth value of a scalar. -/
def bool (e : Event) (path : String) : Except SettingsError Bool :=
  match e.kind with
  | .scalar text style tag =>
    let isPlain := style == .plain || (style == .literal && tag == some (standardTag "bool"))
    match boolOf? text with
    | some b => if isPlain then .ok b else .error (e.unfit path "a boolean")
    | none => .error (e.unfit path "a boolean")
  | _ => .error (e.unfit path "a boolean")

end Yaml.Event

namespace Config

open Yaml (Document Event)

/-- Reads texts up to the end of a sequence; `i` of its items have been read. -/
def textsFrom (d : Document) (path : String) : Nat → List Event →
    Except SettingsError (List String × List Event)
  | _, [] => .error d.cutOff
  | i, e :: rest =>
    if e.kind = .sequenceEnd then .ok ([], rest)
    else do
      let text ← (d.target e).text (path ++ "[" ++ toString i ++ "]") "a string"
      let (texts, rest) ← textsFrom d path (i + 1) rest
      return (text :: texts, rest)

/-- Reads a sequence of texts that is written here. -/
def textsHere (d : Document) (path : String) :
    List Event → Except SettingsError (List String × List Event)
  | [] => .error d.cutOff
  | e :: rest =>
    if e.kind = .sequenceStart then textsFrom d path 0 rest
    else if e.isNothing then .ok ([], rest)
    else .error (e.unfit path "a sequence")

/-- Reads a sequence of texts, which may be referred to. -/
def texts (d : Document) (path : String) (events : List Event) :
    Except SettingsError (List String × List Event) :=
  match events with
  | ⟨.reference anchor, _⟩ :: rest =>
    (textsHere d path (d.eventsAt anchor)).map fun (items, _) => (items, rest)
  | _ => textsHere d path events

/-- Reads a scalar, which may be referred to. -/
def scalar {α : Type} (d : Document) (decode : Event → Except SettingsError α) :
    List Event → Except SettingsError (α × List Event)
  | [] => .error d.cutOff
  | e :: rest => (decode (d.target e)).map fun value => (value, rest)

/-- Passes over a value that lies in `depth` sequences and mappings which have begun with it. -/
def skipValue (d : Document) : Nat → List Event → Except SettingsError (List Event)
  | _, [] => .error d.cutOff
  | depth, e :: rest =>
    match e.kind with
    | .sequenceStart | .mappingStart => skipValue d (depth + 1) rest
    | .sequenceEnd | .mappingEnd => if depth ≤ 1 then .ok rest else skipValue d (depth - 1) rest
    | _ => if depth = 0 then .ok rest else skipValue d depth rest

/-- Reads the value of a setting into settings. -/
def setting (d : Document) (name path : String) (c : Config) (events : List Event) :
    Except SettingsError (Config × List Event) := do
  match name with
  | "include" =>
    let (v, rest) ← texts d path events
    return ({ c with includes := v }, rest)
  | "exclude" =>
    let (v, rest) ← texts d path events
    return ({ c with excludes := v }, rest)
  | "controller_marker" =>
    let (v, rest) ← scalar d (·.text path "a string") events
    return ({ c with controllerMarker := v }, rest)
  | "structured_error_types" =>
    let (v, rest) ← texts d path events
    return ({ c with structuredErrors := v }, rest)
  | "exclude_hidden_routes" =>
    let (v, rest) ← scalar d (·.bool path) events
    return ({ c with excludeHidden := v }, rest)
  | "default_content_type" =>
    let (v, rest) ← scalar d (·.text path "a string") events
    return ({ c with defaultContentType := v }, rest)
  | _ => return (c, ← skipValue d 0 events)

/-- The name of the setting that a key stands for, and how messages tell it. -/
def keyName (d : Document) (e : Event) : Except SettingsError (String × String) := do
  let name ← (d.target e).text "" "field identifier"
  return (name, match e.kind with
    | .reference _ => "?"
    | _ => name)

/-- Reads settings up to the end of a mapping that begins at `start`. Those in `seen` have been
read; `fuel` is more than the number of events. -/
def settingsFrom (d : Document) (start : Yaml.Mark) :
    Nat → List String → Config → List Event → Except SettingsError Config
  | 0, _, _, _ => .error d.cutOff
  | fuel + 1, seen, c, events =>
    match events with
    | [] => .error d.cutOff
    | e :: rest =>
      if e.kind = .mappingEnd then .ok c
      else do
        let (name, path) ← keyName d e
        if seen.contains name then
          throw (.unfit "" start ("duplicate field \x60" ++ name ++ "\x60"))
        let (c, rest) ← setting d name path c rest
        settingsFrom d start fuel (if fieldNames.contains name then name :: seen else seen) c rest

def ofDocument (d : Document) : Except SettingsError Config :=
  match d.events with
  | [] => if d.error.isSome then .error d.cutOff else .ok {}
  | e :: rest =>
    if e.kind = .mappingStart then settingsFrom d e.mark (rest.length + 1) [] {} rest
    else if e.isNothing then .ok {}
    else .error (e.unfit "" "struct Config")

def ofText (text : String) : Except SettingsError Config := do
  let d := Document.ofText text
  let c ← ofDocument d
  match d.error with
  | some e => throw (.malformed e)
  | none => if d.isLast then return c else throw .moreDocuments

/-- The names that a configuration file can have, in the order in which they are looked for. -/
def fileNames : List String := ["routescan.yaml", ".routescan.yaml"]

/-- The configuration file at the root of a project. -/
def discover? (t : FileTree) (root : PathName) : Option PathName :=
  (fileNames.map root.join).find? t.isFile

/-- Why a configuration file cannot be used. -/
inductive LoadCause where
  | file (error : FileError)
  | settings (error : SettingsError)
  | config (error : ConfigError)
  deriving DecidableEq, Repr

/-- The wording of the cause. -/
def LoadCause.message : LoadCause → String
  | .file e => e.message
  | .settings e => e.message
  | .config e => e.message

/-- A configuration file that cannot be used, and why. -/
structure LoadError where
  path : PathName
  cause : LoadCause
  deriving DecidableEq, Repr

/-- The wording of a configuration file that cannot be used. -/
def LoadError.message (e : LoadError) : String :=
  "failed to load config " ++ e.path.text ++ ": " ++ e.cause.message

def ofFile (t : FileTree) (path : PathName) : Except LoadCause Config := do
  let text ← (t.textAt path).mapError .file
  let c ← (ofText text).mapError .settings
  match c.error? with
  | some e => throw (.config e)
  | none => return c

/-- The settings of a project: those of the file that is named, or else of the one at the root, or
else the usual ones. -/
def load (t : FileTree) (root : PathName) (explicit : Option PathName) :
    Except LoadError Config :=
  match explicit <|> discover? t root with
  | some path => (ofFile t path).mapError fun cause => ⟨path, cause⟩
  | none => .ok {}

end Config

end RouteAtlas
