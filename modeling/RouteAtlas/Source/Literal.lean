import RouteAtlas.Checked
import RouteAtlas.Text.Pieces

/-!
# Literals

The values of string literals and of the counter expressions in blocks of constants. A literal
between back quotes is taken as it is; of one between double quotes the quotes at its ends are
dropped and an escaped quote becomes a quote, while other escapes stay as they are written. The
numbers in counter expressions are words, and the arithmetic on them is checked.
-/

set_option autoImplicit false

namespace RouteAtlas.Source

/-- The text between back quotes, if a literal has them at both ends. -/
def betweenBackQuotes? (cs : List Char) : Option (List Char) :=
  match cs with
  | '\x60' :: rest =>
    match rest.reverse with
    | '\x60' :: inner => some inner.reverse
    | _ => none
  | _ => none

/-- The value of a string literal. -/
def unquote (s : String) : String :=
  match betweenBackQuotes? s.toList with
  | some inner => String.ofList inner
  | none => Text.replace "\\\"" "\"" (Text.trimMatching (· == '"') s)

/-- The value of the expression of a constant: of a string literal its value, of any other
expression its text. -/
def literalValue (s : String) : String :=
  let trimmed := Text.trim s
  match trimmed.toList with
  | '"' :: _ => unquote trimmed
  | '\x60' :: _ => unquote trimmed
  | _ => trimmed

def signedWord? (s : String) : Option Int64 :=
  let (minus, digits) := match s.toList with
    | '-' :: rest => (true, rest)
    | '+' :: rest => (false, rest)
    | cs => (false, cs)
  if digits.isEmpty || !digits.all Char.isDigit then none
  else
    let n : Nat := digits.foldl (fun n c => 10 * n + (c.toNat - '0'.toNat)) 0
    if minus then if n ≤ 1 <<< 63 then some (Int64.ofInt (-(n : Int))) else none
    else if n < 1 <<< 63 then some (Int64.ofInt n) else none

/-- The offset of a counter expression: `iota` alone, or with a number added or subtracted. The sign
of a number that is subtracted is changed once it is read, which the least word does not allow. -/
def iotaOffset? (s : String) : Checked (Option Int64) :=
  match Text.stripLead? "iota" (Text.squeeze s) with
  | none => pure none
  | some "" => pure (some 0)
  | some rest =>
    match rest.toList with
    | '+' :: n => pure (signedWord? (String.ofList n))
    | '-' :: n => (signedWord? (String.ofList n)).mapM fun n => Checked.word (-n.toInt)
    | _ => pure none

/-- The value of a counter expression in the given place of its block, the sum of the place and the
offset. -/
def iotaValue (index : Nat) (offset : Int64) : Checked String := do
  return toString (← Checked.word (index + offset.toInt)).toInt

end RouteAtlas.Source
