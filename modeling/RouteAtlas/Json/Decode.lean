import RouteAtlas.Json.Value

/-!
# Decoding records

A record is stored as an object with its fields as members, or as an array with its fields in
order. Members without a field are passed over, while a field given twice spoils the record.
-/

set_option autoImplicit false

namespace RouteAtlas.Json

/-- The fields of a record by name. -/
abbrev Record := String → Option Json

/-- Whether a name occurs at most once among some members. -/
def isGivenOnce (members : List (String × Json)) (name : String) : Bool :=
  (members.filter (·.1 == name)).length ≤ 1

/-- The fields of a stored record, given the names of all its fields in order. -/
def record? (names : List String) : Json → Option Record
  | .object members =>
    if names.all (isGivenOnce members) then some (lookup? members) else none
  | .array items =>
    if items.length = names.length then some (lookup? (names.zip items)) else none
  | _ => none

/-- The fields of a stored record none of which has to be there, so that an array may end early. -/
def looseRecord? (names : List String) : Json → Option Record
  | .array items =>
    if items.length ≤ names.length then some (lookup? (names.zip items)) else none
  | j => record? names j

def Record.field? {α : Type} (r : Record) (name : String) (decode : Json → Option α) : Option α :=
  (r name).bind decode

/-- A field that may be missing or null. -/
def Record.optional? {α : Type} (r : Record) (name : String) (decode : Json → Option α) :
    Option (Option α) :=
  match r name with
  | none => some none
  | some .null => some none
  | some j => (decode j).map some

/-- A field with a value of its own when it is missing. -/
def Record.defaulted? {α : Type} (r : Record) (name : String) (default : α)
    (decode : Json → Option α) : Option α :=
  match r name with
  | none => some default
  | some j => decode j

def list? {α : Type} (decode : Json → Option α) : Json → Option (List α)
  | .array items => items.mapM decode
  | _ => none

def texts? : Json → Option (List String) := list? text?

/-- One of several names: the name itself, or an object that gives it nothing. -/
def choice? {α : Type} (ofName? : String → Option α) : Json → Option α
  | .string s => ofName? s
  | .object [(s, .null)] => ofName? s
  | _ => none

/-- A record with a tag that tells which kind of record it is: the tag, and the record without
it. -/
def tagged? (tag : String) : Json → Option (String × Json)
  | .object members =>
    if isGivenOnce members tag then
      match lookup? members tag with
      | some (.string s) => some (s, .object (members.filter (·.1 != tag)))
      | _ => none
    else none
  | .array (.string s :: rest) => some (s, .array rest)
  | _ => none

end RouteAtlas.Json
