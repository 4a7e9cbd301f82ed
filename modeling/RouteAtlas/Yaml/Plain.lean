import RouteAtlas.Text.Pieces
import RouteAtlas.Text.Quoted
import RouteAtlas.Yaml.Scalar

/-!
# What scalars stand for

A plain scalar can stand for nothing, a truth value or a number; anything else is text, as is every
scalar between quotes. Digits behind a leading zero are text, and a number beyond 128 bits is a
floating point number.
-/

set_option autoImplicit false

namespace RouteAtlas.Yaml

/-- What a scalar stands for. -/
inductive ScalarValue where
  | nothing
  | bool (b : Bool)
  | integer (value : Int)
  /-- A floating point number by its bits. -/
  | double (bits : UInt64)
  | text (s : String)
  deriving DecidableEq, Repr

/-- The truth value that a text stands for. -/
def boolOf? (s : String) : Option Bool :=
  if s = "true" || s = "True" || s = "TRUE" then some true
  else if s = "false" || s = "False" || s = "FALSE" then some false
  else none

def isNothing (s : String) : Bool := s == "null" || s == "Null" || s == "NULL" || s == "~"

/-- Whether a text is digits behind a leading zero, after a sign or not. -/
def isPadded (cs : List Char) : Bool :=
  let digits := match cs with
    | '-' :: rest => rest
    | '+' :: rest => rest
    | _ => cs
  match digits with
  | '0' :: rest => !rest.isEmpty && rest.all Char.isDigit
  | _ => false

def digitsOf? (base : Nat) (cs : List Char) : Option Nat :=
  if cs.isEmpty then none
  else
    cs.foldlM (fun acc c => do
      let d ← Json.hexValue? c
      if d < base then some (base * acc + d) else none) 0

/-- The number that a text without a sign stands for. -/
def magnitudeOf? (cs : List Char) : Option Nat :=
  match cs with
  | '0' :: 'x' :: rest => digitsOf? 16 rest
  | '0' :: 'o' :: rest => digitsOf? 8 rest
  | '0' :: 'b' :: rest => digitsOf? 2 rest
  | _ => if isPadded cs then none else digitsOf? 10 cs

/-- The integer of at most 128 bits that a text stands for. -/
def integerOf? (cs : List Char) : Option Int :=
  let unsigned := fun (rest : List Char) => do
    let n ← magnitudeOf? rest
    if n < 1 <<< 128 then some (n : Int) else none
  match cs with
  | '-' :: rest => do
    let n ← magnitudeOf? rest
    if n ≤ 1 <<< 127 then some (-(n : Int)) else none
  | '+' :: rest => unsigned rest
  | _ => unsigned cs

/-- The parts of a decimal without a sign: its digits as a whole, and the power of ten that these
are multiplied with. -/
def decimalParts? (cs : List Char) : Option (List Char × Int) := do
  let whole := cs.takeWhile Char.isDigit
  let rest := cs.dropWhile Char.isDigit
  let (fraction, rest) := match rest with
    | '.' :: more => (more.takeWhile Char.isDigit, more.dropWhile Char.isDigit)
    | _ => ([], rest)
  if whole.isEmpty && fraction.isEmpty then none
  let places : Int := fraction.length
  match rest with
  | [] => some (whole ++ fraction, -places)
  | mark :: power =>
    if mark != 'e' && mark != 'E' then none
    let (minus, digits) := match power with
      | '-' :: digits => (true, digits)
      | '+' :: digits => (false, digits)
      | _ => (false, power)
    let n ← digitsOf? 10 digits
    some (whole ++ fraction, (if minus then -(n : Int) else n) - places)

/-- The double nearest to a decimal without a sign, unless that is infinite. -/
def finiteOf? (cs : List Char) : Option Float := do
  let (digits, power) ← decimalParts? cs
  let n := digits.foldl (fun acc c => 10 * acc + (c.toNat - '0'.toNat)) 0
  let point := (Nat.toDigits 10 n).length + power
  if n = 0 || point < -400 then some 0.0
  else if point > 400 then none
  else
    let f := Float.ofScientific n (power < 0) power.natAbs
    if f.isFinite then some f else none

/-- The floating point number that a text stands for. -/
def doubleOf? (cs : List Char) : Option Float :=
  let unsigned := fun (rest : List Char) =>
    if rest = ".inf".toList || rest = ".Inf".toList || rest = ".INF".toList then
      some (1.0 / 0.0)
    else finiteOf? rest
  if cs = ".nan".toList || cs = ".NaN".toList || cs = ".NAN".toList then some (0.0 / 0.0)
  else
    match cs with
    | '-' :: rest => (unsigned rest).map (- ·)
    | '+' :: rest => unsigned rest
    | _ => unsigned cs

/-- What a plain scalar stands for. -/
def plainValue (s : String) : ScalarValue :=
  if s = "" || isNothing s then .nothing
  else
    match boolOf? s with
    | some b => .bool b
    | none =>
      match integerOf? s.toList with
      | some n => .integer n
      | none =>
        if isPadded s.toList then .text s
        else
          match doubleOf? s.toList with
          | some f => .double f.toBits
          | none => .text s

/-- A floating point number with all its digits and without an exponent. -/
def positional (bits : UInt64) : String :=
  let f := Float.ofBits bits
  if f.isNaN then "NaN"
  else if f.isInf then (if f < 0.0 then "-inf" else "inf")
  else
    let sign := if bits >>> 63 = 1 then ['-'] else []
    let d := Dyadic.ofBits bits
    let (n, k) := if d.mantissa = 0 then (0, 0) else d.shortest
    let digits := Nat.toDigits 10 n
    let point : Int := digits.length + k
    String.ofList (sign ++
      (if 0 ≤ k then digits ++ zeros k.toNat ++ ['.', '0']
       else if 0 < point then digits.take point.toNat ++ ['.'] ++ digits.drop point.toNat
       else ['0', '.'] ++ zeros (-point).toNat ++ digits))

/-- What a scalar stands for in words. -/
def ScalarValue.describe : ScalarValue → String
  | .nothing => "unit value"
  | .bool b => "boolean \x60" ++ (if b then "true" else "false") ++ "\x60"
  | .integer n =>
    let width :=
      if n < Int64.minValue.toInt then " as i128"
      else if UInt64.size ≤ n then " as u128" else ""
    "integer \x60" ++ toString n ++ "\x60" ++ width
  | .double bits => "floating point \x60" ++ positional bits ++ "\x60"
  | .text s => "string " ++ Text.quoted s

/-- The tag of a type that everyone knows. -/
def standardTag (name : String) : String := "tag:yaml.org,2002:" ++ name

/-- What is wrong with a scalar where something else is expected. A tag that names a type which the
text cannot have is at fault itself. -/
def mismatch (text : String) (style : ScalarStyle) (tag : Option String) (expected : String) :
    String :=
  let unfit := fun (v : ScalarValue) => "invalid type: " ++ v.describe ++ ", expected " ++ expected
  let wrongTag := fun (kind : String) =>
    "invalid value: string " ++ Text.quoted text ++ ", expected " ++ kind
  let plain := style == .plain
  match tag with
  | none => unfit (if plain then plainValue text else .text text)
  | some t =>
    if t = standardTag "bool" then
      ((boolOf? text).map fun b => unfit (.bool b)).getD (wrongTag "a boolean")
    else if t = standardTag "int" then
      ((integerOf? text.toList).map fun n => unfit (.integer n)).getD (wrongTag "an integer")
    else if t = standardTag "float" then
      ((doubleOf? text.toList).map fun f => unfit (.double f.toBits)).getD (wrongTag "a float")
    else if t = standardTag "null" then
      if isNothing text then unfit .nothing else wrongTag "null"
    else unfit (if plain && Text.beginsWith "!" t then plainValue text else .text text)

end RouteAtlas.Yaml
