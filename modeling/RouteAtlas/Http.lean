import RouteAtlas.Text.Blank

/-!
# Verbs, locations and status codes of requests

What a route says about the requests it answers: the verb, where each parameter is read from, the
security it asks for and the status codes it may answer with.
-/

set_option autoImplicit false

namespace RouteAtlas

/-- A request method. -/
inductive HttpVerb where
  | get
  | post
  | put
  | patch
  | delete
  | head
  | options
  | trace
  | connect
  deriving DecidableEq, Repr

namespace HttpVerb

/-- The verb as it is written in a request. -/
def name : HttpVerb → String
  | .get => "GET"
  | .post => "POST"
  | .put => "PUT"
  | .patch => "PATCH"
  | .delete => "DELETE"
  | .head => "HEAD"
  | .options => "OPTIONS"
  | .trace => "TRACE"
  | .connect => "CONNECT"

def all : List HttpVerb :=
  [.get, .post, .put, .patch, .delete, .head, .options, .trace, .connect]

/-- Whether requests with this verb carry no body by convention. -/
def isReadOnly : HttpVerb → Bool
  | .get | .head | .options => true
  | _ => false

/-- The spelling in which a verb is looked up: without blanks at its ends, letters as capitals. -/
def spelling (s : String) : String :=
  String.ofList ((Text.trimChars s.toList).map Char.toUpper)

/-- The verb of a text in any case, blanks around it ignored. -/
def ofText? (s : String) : Option HttpVerb :=
  all.find? (·.name == spelling s)

/-- What is said about a text that is no verb. -/
def unknownMessage (s : String) : String :=
  "unknown HTTP verb '" ++ spelling s ++ "'"

end HttpVerb

/-- Where a parameter is read from. -/
inductive ParamLocation where
  | path
  | query
  | header
  | body
  | form
  deriving DecidableEq, Repr

namespace ParamLocation

/-- The location in lower case. -/
def name : ParamLocation → String
  | .path => "path"
  | .query => "query"
  | .header => "header"
  | .body => "body"
  | .form => "form"

def all : List ParamLocation := [.path, .query, .header, .body, .form]

def ofName? (s : String) : Option ParamLocation := all.find? (·.name == s)

end ParamLocation

def registeredStatusCodes : List Nat :=
  [100, 101, 102, 103,
   200, 201, 202, 203, 204, 205, 206, 207, 208, 226,
   300, 301, 302, 303, 304, 305, 307, 308,
   400, 401, 402, 403, 404, 405, 406, 407, 408, 409, 410, 411, 412, 413, 414, 415, 416, 417,
   421, 422, 423, 424, 425, 426, 428, 429, 431, 451,
   500, 501, 502, 503, 504, 505, 506, 507, 508, 510, 511]

/-- The whole number below `limit` that decimal digits stand for, an optional plus sign before
them. -/
def wholeBelow? (limit : Nat) (s : String) : Option Nat :=
  let digits := match s.toList with
    | '+' :: rest => rest
    | cs => cs
  if digits.isEmpty || !digits.all Char.isDigit then none
  else
    let n := digits.foldl (fun n c => 10 * n + (c.toNat - '0'.toNat)) 0
    if n < limit then some n else none

/-- The status code of a text: a whole number that fits sixteen bits, blanks around it ignored. -/
def statusCode? (s : String) : Option Nat :=
  wholeBelow? UInt16.size (Text.trim s)

end RouteAtlas
