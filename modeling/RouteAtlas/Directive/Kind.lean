import RouteAtlas.Http

/-!
# Kinds of directives

The directives that mean something to the analysis, and one kind for every other keyword. A kind
fixes how many values a directive takes, whether it may be repeated, and on which declarations
it has an effect.
-/

set_option autoImplicit false

namespace RouteAtlas

/-- What a directive is, by its keyword. -/
inductive DirectiveKind where
  | tag
  | route
  | method
  | query
  | path
  | header
  | body
  | formField
  | security
  | response
  | errorResponse
  | description
  | deprecated
  | hidden
  | contentType
  /-- Any keyword without a meaning of its own. -/
  | unknown (keyword : String)
  deriving DecidableEq, Repr

/-- The declarations that can carry directives. -/
inductive DirectiveHolder where
  | controller
  | route
  | model
  | field
  deriving DecidableEq, Repr

/-- The word for a holder in messages. -/
def DirectiveHolder.name : DirectiveHolder → String
  | .controller => "controller"
  | .route => "route"
  | .model => "type"
  | .field => "field"

def DirectiveHolder.all : List DirectiveHolder := [.controller, .route, .model, .field]

/-- How many values a directive takes. -/
inductive ValueArity where
  | required
  | optional
  | none
  /-- One value or more, separated by commas. -/
  | list
  deriving DecidableEq, Repr

namespace DirectiveKind

/-- The kinds with a meaning. -/
def known : List DirectiveKind :=
  [.tag, .route, .method, .query, .path, .header, .body, .formField, .security, .response,
   .errorResponse, .description, .deprecated, .hidden, .contentType]

/-- The keyword of a kind. -/
def keyword : DirectiveKind → String
  | .tag => "Tag"
  | .route => "Route"
  | .method => "Method"
  | .query => "Query"
  | .path => "Path"
  | .header => "Header"
  | .body => "Body"
  | .formField => "FormField"
  | .security => "Security"
  | .response => "Response"
  | .errorResponse => "ErrorResponse"
  | .description => "Description"
  | .deprecated => "Deprecated"
  | .hidden => "Hidden"
  | .contentType => "ContentType"
  | .unknown keyword => keyword

def ofKeyword (s : String) : DirectiveKind :=
  (known.find? (·.keyword == s)).getD (.unknown s)

/-- Whether the kind has a meaning. -/
def isKnown : DirectiveKind → Bool
  | .unknown _ => false
  | _ => true

/-- The kind as it is written in a comment. -/
def mark (kind : DirectiveKind) : String := "@" ++ kind.keyword

/-- Whether a declaration carries at most one directive of the kind. -/
def isSingleton : DirectiveKind → Bool
  | .tag | .route | .method | .description | .deprecated | .hidden | .contentType | .body => true
  | _ => false

/-- How many values the kind takes. -/
def arity : DirectiveKind → ValueArity
  | .deprecated | .hidden => .none
  | .description | .unknown _ => .optional
  | .contentType => .list
  | _ => .required

def location : DirectiveKind → Option ParamLocation
  | .path => some .path
  | .query => some .query
  | .header => some .header
  | .body => some .body
  | .formField => some .form
  | _ => none

def appliesTo (kind : DirectiveKind) : DirectiveHolder → Bool
  | .controller =>
    match kind with
    | .tag | .route | .security | .description | .deprecated | .hidden | .unknown _ => true
    | _ => false
  | .route => kind != .tag
  | .model | .field =>
    match kind with
    | .description | .deprecated | .unknown _ => true
    | _ => false

end DirectiveKind

end RouteAtlas
