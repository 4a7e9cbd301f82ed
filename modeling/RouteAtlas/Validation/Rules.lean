import RouteAtlas.Graph.Basic

/-!
# Validation rules

A rule looks at one entity, together with its children, and gives what it finds. The rules of an
entity do not depend on each other, and their findings stand in the order of the rules.
-/

set_option autoImplicit false

namespace RouteAtlas.Validation

/-- A rule about entities of one sort. -/
abbrev Rule (α : Type) := α → List Diagnostic

/-- What several rules find about an entity. -/
def findings {α : Type} (rules : List (Rule α)) (a : α) : List Diagnostic :=
  rules.flatMap fun rule => rule a

/-- A controller and the number of its routes. -/
structure ControllerView where
  node : ControllerNode
  routeCount : Nat

/-- A route with its parameters and results in order. -/
structure RouteView where
  node : RouteNode
  params : List ParamNode
  returns : List ReturnNode

/-- What is wrong with a single directive on a holder: a keyword without a meaning, or a kind that
has no effect there. -/
def directiveIssue? (holder : DirectiveHolder) (a : Directive) : Option Diagnostic :=
  match a.kind with
  | .unknown keyword =>
    some (.of .unknownDirective ("unknown annotation '@" ++ keyword ++ "' kept as text") a.span)
  | kind =>
    if kind.appliesTo holder then none
    else some (.of .misplacedDirective
      (kind.mark ++ " has no effect on a " ++ holder.name) a.span)

/-- What is wrong with the directives of a holder: first the lines that could not be kept. -/
def directiveIssues (holder : DirectiveHolder) (set : DirectiveSet) : List Diagnostic :=
  set.issues ++ set.directives.filterMap (directiveIssue? holder)

def controllerDirectives : Rule ControllerView := fun c =>
  directiveIssues .controller c.node.directives

def routeDirectives : Rule RouteView := fun r => directiveIssues .route r.node.directives

def modelDirectives : Rule ModelNode := fun m => directiveIssues .model m.directives

def fieldDirectives : Rule ModelNode := fun m =>
  m.fieldDirectives.flatMap fun (_, _, set) => directiveIssues .field set

def missingTag : Rule ControllerView := fun c =>
  if c.node.directives.has .tag then []
  else [.of .missingTag ("controller '" ++ c.node.id.name ++ "' has no @Tag") c.node.span]

def controllerNoRoutes : Rule ControllerView := fun c =>
  if c.routeCount > 0 then []
  else [.of .controllerNoRoutes
    ("controller '" ++ c.node.id.name ++ "' declares no routes") c.node.span]

/-- A route has to have a verb. -/
def missingMethod : Rule RouteView := fun r =>
  if r.node.directives.has .method || r.node.directives.hasMalformed .method then []
  else [.of .missingMethod ("route '" ++ r.node.methodName ++ "' has no @Method") r.node.span]

def invalidHttpVerb : Rule RouteView := fun r =>
  match r.node.directives.first? .method, r.node.verb with
  | some a, none =>
    [.of .invalidHttpVerb ("'" ++ a.value.getD "" ++ "' is not an HTTP method") a.valueOrSpan]
  | _, _ => []

/-- A route has to have a path. -/
def missingRoute : Rule RouteView := fun r =>
  if r.node.path.isSome || r.node.directives.hasMalformed .route then []
  else [.of .missingRoute ("route '" ++ r.node.methodName ++ "' has no @Route") r.node.span]

/-- What is wrong with the status code of a response. -/
def statusCodeIssue? (a : Directive) : Option Diagnostic :=
  let raw := Text.trim (a.value.getD "")
  match statusCode? raw with
  | none => some (.of .invalidStatusCode ("'" ++ raw ++ "' is not a status code") a.valueOrSpan)
  | some code =>
    if code < 100 || 599 < code then
      some (.of .invalidStatusCode
        (toString code ++ " is outside the HTTP status code range") a.valueOrSpan)
    else if registeredStatusCodes.contains code then none
    else some (.of .nonStandardStatusCode
      (toString code ++ " is not a registered HTTP status code") a.valueOrSpan)

/-- The status codes of the responses. -/
def statusCodes : Rule RouteView := fun r =>
  (r.node.directives.directives.filter DirectiveSet.declaresResponse).filterMap statusCodeIssue?

/-- The findings about some names that could not be linked. -/
def linkFindings (code : DiagnosticCode) (message : String → String) (issues : List LinkIssue) :
    List Diagnostic :=
  issues.map fun issue => .of code (message issue.name) issue.span

/-- The links between placeholders, parameters and directives. -/
def pathLinkage : Rule RouteView := fun r =>
  let linkage := r.node.linkage
  linkFindings .missingPathReference
      (fun name => "path placeholder '\x7b" ++ name ++ "\x7d' is not bound by any @Path parameter")
      linkage.missingPathRefs ++
    linkFindings .unknownParameterReference
      (fun name => "'" ++ name ++ "' does not name a parameter of '" ++ r.node.methodName ++ "'")
      linkage.unknownRefs ++
    linkFindings .duplicateParameterReference
      (fun name => "parameter '" ++ name ++ "' is bound by more than one annotation")
      linkage.duplicateRefs ++
    linkFindings .pathParameterNotInRoute
      (fun name => "path parameter '" ++ name ++ "' does not appear in '" ++ r.node.fullPath ++ "'")
      linkage.notInRoute

def RouteView.bodyParams (r : RouteView) : List ParamNode :=
  r.params.filter (·.location == some .body)

/-- The place that findings about the location of a parameter point at. -/
def bindingSpan (p : ParamNode) : Span := p.directiveSpan.getD p.span

/-- At most one parameter is read from the body. -/
def multipleBodyParameters : Rule RouteView := fun r =>
  (r.bodyParams.drop 1).map fun p =>
    .of .multipleBodyParameters ("'" ++ p.name ++ "' is a second @Body parameter") (bindingSpan p)

/-- Requests that only read carry no body. -/
def bodyOnReadVerb : Rule RouteView := fun r =>
  match r.node.verb with
  | some verb =>
    if verb.isReadOnly then
      r.bodyParams.map fun p =>
        .of .bodyOnReadVerb
          (verb.name ++ " requests should not carry a body ('" ++ p.name ++ "')") (bindingSpan p)
    else []
  | none => []

/-- Whether results are an error, or a value and an error. -/
def isReturnSignature : List ReturnNode → Bool
  | [only] => only.isError
  | [value, err] => !value.isError && err.isError
  | _ => false

/-- A route returns an error, or a value and an error. -/
def returnSignature : Rule RouteView := fun r =>
  if isReturnSignature r.returns then []
  else [.of .invalidReturnSignature
    ("route '" ++ r.node.methodName ++ "' must return an error, or a value followed by an error")
    r.node.span]

def missingDescription : Rule RouteView := fun r =>
  if r.node.description.isEmpty then
    [.of .missingDescription ("route '" ++ r.node.methodName ++ "' has no description") r.node.span]
  else []

def deprecatedRoute : Rule RouteView := fun r =>
  match r.node.directives.first? .deprecated with
  | some a => [.of .deprecatedRoute ("route '" ++ r.node.methodName ++ "' is deprecated") a.span]
  | none => []

/-- Every parameter but a context has to be bound. -/
def unreferencedParameter : Rule ParamNode := fun p =>
  if p.isContext || p.location.isSome then []
  else [.of .unreferencedParameter
    ("parameter '" ++ p.name ++ "' is not bound by any location annotation") p.span]

def schemaCode? : SymbolKind → Option DiagnosticCode
  | .interface => some .interfaceTypeReference
  | .inline => some .inlineTypeReference
  | _ => none

/-- Interfaces and types without a name have no schema. -/
def typeReference (t : TypeUse) (span : Span) (what : String) : List Diagnostic :=
  match schemaCode? t.symbolKind with
  | some code =>
    [.of code (what ++ " has type '" ++ t.name ++ "', which has no schema") span]
  | none => []

def paramType : Rule ParamNode := fun p =>
  typeReference p.type p.span ("parameter '" ++ p.name ++ "'")

/-- The type of a result. -/
def returnType : Rule ReturnNode := fun r =>
  typeReference r.type r.span ("return value #" ++ toString r.ordinal)

def controllerRules : List (Rule ControllerView) :=
  [controllerDirectives, missingTag, controllerNoRoutes]

def routeRules : List (Rule RouteView) :=
  [routeDirectives, missingMethod, invalidHttpVerb, missingRoute, statusCodes, pathLinkage,
   multipleBodyParameters, bodyOnReadVerb, returnSignature, missingDescription, deprecatedRoute]

def paramRules : List (Rule ParamNode) := [unreferencedParameter, paramType]

/-- The rules about results. -/
def returnRules : List (Rule ReturnNode) := [returnType]

def modelRules : List (Rule ModelNode) := [modelDirectives, fieldDirectives]

end RouteAtlas.Validation
