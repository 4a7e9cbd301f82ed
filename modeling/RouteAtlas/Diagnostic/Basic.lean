import RouteAtlas.Span

/-!
# Diagnostics

A diagnostic is a finding about one place of the source. Its code fixes how severe it is, so a
finding of one code is reported alike everywhere.
-/

set_option autoImplicit false

namespace RouteAtlas

/-- How severe a finding is, the most severe first. -/
inductive Severity where
  | error
  | warning
  | info
  | hint
  deriving DecidableEq, Repr

namespace Severity

/-- The severity in lower case. -/
def name : Severity → String
  | .error => "error"
  | .warning => "warning"
  | .info => "info"
  | .hint => "hint"

def all : List Severity := [.error, .warning, .info, .hint]

def ofName? (s : String) : Option Severity := all.find? (·.name == s)

/-- The severity of a text in any case. Only ASCII letters have one of the names as their lower
case, so only they are lowered. -/
def ofText? (s : String) : Option Severity :=
  ofName? (String.ofList (s.toList.map Char.toLower))

/-- What is said about a text that is no severity. -/
def unknownMessage (s : String) : String := "unknown severity: " ++ s

end Severity

/-- What a finding is about. -/
inductive DiagnosticCode where
  | malformedDirective
  | repeatedDirective
  | misplacedDirective
  | unknownDirective
  | missingTag
  | controllerNoRoutes
  | missingMethod
  | invalidHttpVerb
  | missingRoute
  | nonStandardStatusCode
  | invalidStatusCode
  | invalidReturnSignature
  | missingDescription
  | deprecatedRoute
  | unreferencedParameter
  | missingPathReference
  | unknownParameterReference
  | duplicateParameterReference
  | pathParameterNotInRoute
  | multipleBodyParameters
  | bodyOnReadVerb
  | interfaceTypeReference
  | inlineTypeReference
  deriving DecidableEq, Repr

namespace DiagnosticCode

/-- The stable name of a code. -/
def name : DiagnosticCode → String
  | .malformedDirective => "malformed-annotation"
  | .repeatedDirective => "duplicate-annotation"
  | .misplacedDirective => "annotation-not-applicable"
  | .unknownDirective => "unknown-annotation"
  | .missingTag => "missing-tag"
  | .controllerNoRoutes => "controller-no-routes"
  | .missingMethod => "missing-method"
  | .invalidHttpVerb => "invalid-http-verb"
  | .missingRoute => "missing-route"
  | .nonStandardStatusCode => "non-standard-status-code"
  | .invalidStatusCode => "invalid-status-code"
  | .invalidReturnSignature => "invalid-return-signature"
  | .missingDescription => "missing-description"
  | .deprecatedRoute => "deprecated-route"
  | .unreferencedParameter => "unreferenced-parameter"
  | .missingPathReference => "missing-path-reference"
  | .unknownParameterReference => "unknown-parameter-reference"
  | .duplicateParameterReference => "duplicate-parameter-reference"
  | .pathParameterNotInRoute => "path-parameter-not-in-route"
  | .multipleBodyParameters => "multiple-body-parameters"
  | .bodyOnReadVerb => "body-on-read-verb"
  | .interfaceTypeReference => "interface-type-reference"
  | .inlineTypeReference => "opaque-type-reference"

def all : List DiagnosticCode :=
  [.malformedDirective, .repeatedDirective, .misplacedDirective, .unknownDirective,
   .missingTag, .controllerNoRoutes, .missingMethod, .invalidHttpVerb, .missingRoute,
   .nonStandardStatusCode, .invalidStatusCode, .invalidReturnSignature, .missingDescription,
   .deprecatedRoute, .unreferencedParameter, .missingPathReference, .unknownParameterReference,
   .duplicateParameterReference, .pathParameterNotInRoute, .multipleBodyParameters,
   .bodyOnReadVerb, .interfaceTypeReference, .inlineTypeReference]

def ofName? (s : String) : Option DiagnosticCode := all.find? (·.name == s)

def severity : DiagnosticCode → Severity
  | .malformedDirective | .repeatedDirective | .missingMethod | .invalidHttpVerb
  | .missingRoute | .invalidStatusCode | .invalidReturnSignature | .unreferencedParameter
  | .missingPathReference | .unknownParameterReference | .duplicateParameterReference
  | .pathParameterNotInRoute | .multipleBodyParameters => .error
  | .misplacedDirective | .missingTag | .nonStandardStatusCode | .bodyOnReadVerb
  | .interfaceTypeReference | .inlineTypeReference => .warning
  | .controllerNoRoutes | .deprecatedRoute => .info
  | .unknownDirective | .missingDescription => .hint

end DiagnosticCode

/-- One finding. -/
structure Diagnostic where
  message : String
  severity : Severity
  code : DiagnosticCode
  span : Span
  deriving DecidableEq, Repr

namespace Diagnostic

/-- A finding at the severity of its code. -/
def of (code : DiagnosticCode) (message : String) (span : Span) : Diagnostic :=
  ⟨message, code.severity, code, span⟩

def toJson (d : Diagnostic) : Json :=
  .object
    [("message", .string d.message), ("severity", .string d.severity.name),
     ("code", .string d.code.name), ("span", d.span.toJson)]

end Diagnostic

end RouteAtlas
