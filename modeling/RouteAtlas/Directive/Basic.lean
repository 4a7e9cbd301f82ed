import RouteAtlas.Directive.Kind
import RouteAtlas.Directive.Options
import RouteAtlas.Diagnostic.Basic
import RouteAtlas.Text.Pieces

/-!
# Directives

A directive says something about a declaration: a value, options, and words for a human reader.
The directives of one declaration form a set, together with the rest of its comment and with what
was wrong with the lines that could not be read.
-/

set_option autoImplicit false

namespace RouteAtlas

/-- One directive. -/
structure Directive where
  kind : DirectiveKind
  /-- The value, without quotes around it. -/
  value : Option String
  options : Directive.Options
  /-- The words behind the arguments. -/
  description : String
  /-- The whole directive. -/
  span : Span
  /-- The value alone. -/
  valueSpan : Option Span
  deriving DecidableEq

namespace Directive

def optionText? (a : Directive) (key : String) : Option String :=
  (Json.lookup? a.options key).bind Json.text?

/-- The texts of an option that is a list; a single text is a list of one. -/
def optionTexts (a : Directive) (key : String) : List String :=
  match Json.lookup? a.options key with
  | some (.array items) => items.filterMap Json.text?
  | some (.string s) => [s]
  | _ => []

/-- The place that findings about the value point at. -/
def valueOrSpan (a : Directive) : Span := a.valueSpan.getD a.span

end Directive

/-- The directives of one declaration. -/
structure DirectiveSet where
  directives : List Directive := []
  /-- The comment lines that are no directives, joined with line feeds. -/
  text : String := ""
  /-- What is wrong with the lines that could not be kept. -/
  issues : List Diagnostic := []
  /-- The kinds of the lines that could not be read. -/
  malformed : List DirectiveKind := []
  deriving DecidableEq

namespace DirectiveSet

def first? (set : DirectiveSet) (kind : DirectiveKind) : Option Directive :=
  set.directives.find? (·.kind == kind)

def ofKind (set : DirectiveSet) (kind : DirectiveKind) : List Directive :=
  set.directives.filter (·.kind == kind)

def has (set : DirectiveSet) (kind : DirectiveKind) : Bool := (set.first? kind).isSome

/-- Whether a line of a kind could not be read. -/
def hasMalformed (set : DirectiveSet) (kind : DirectiveKind) : Bool :=
  set.malformed.contains kind

def value? (set : DirectiveSet) (kind : DirectiveKind) : Option String :=
  (set.first? kind).bind (·.value)

/-- Whether the comment has a directive, be it readable or not. -/
def isAnnotated (set : DirectiveSet) : Bool :=
  !set.directives.isEmpty || !set.issues.isEmpty

/-- The description of the declaration: what the description directive says, else the text. -/
def description (set : DirectiveSet) : String :=
  match set.first? .description with
  | some a => Text.join " " ((a.value.toList ++ [a.description]).filter (!·.isEmpty))
  | none => set.text

/-- The directives that bind a parameter, with the location each binds it to. -/
def locations (set : DirectiveSet) : List (ParamLocation × Directive) :=
  set.directives.filterMap fun a => a.kind.location.map fun l => (l, a)

end DirectiveSet

end RouteAtlas
