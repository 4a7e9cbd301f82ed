import RouteAtlas.Json.Decimal

/-!
# Writing JSON

A value is written compactly on one line, or spread over lines with two spaces of indentation for
every level. Text is written as it is, except for quotes, backslashes and control characters.
-/

set_option autoImplicit false

namespace RouteAtlas.Json

/-- A hexadecimal digit below 16, in lower case. -/
def hexDigit (n : Nat) : Char :=
  (Nat.toDigits 16 (n % 16)).headD '0'

/-- How one character is written inside a string. -/
def escapeChar (c : Char) : List Char :=
  if c = '"' then ['\\', '"']
  else if c = '\\' then ['\\', '\\']
  else if c = '\n' then ['\\', 'n']
  else if c = '\r' then ['\\', 'r']
  else if c = '\t' then ['\\', 't']
  else if c.toNat = 8 then ['\\', 'b']
  else if c.toNat = 12 then ['\\', 'f']
  else if c.toNat < 0x20 then ['\\', 'u', '0', '0', hexDigit (c.toNat / 16), hexDigit c.toNat]
  else [c]

/-- A string between its quotes. -/
def renderString (s : String) : String :=
  String.ofList (['"'] ++ s.toList.flatMap escapeChar ++ ['"'])

def renderNumber : JsonNumber → String
  | .natural n => toString n
  | .negative n => "-" ++ toString n
  | .double bits => renderDouble bits

mutual

/-- The value on one line, without blanks. -/
def compact : Json → String
  | .null => "null"
  | .bool true => "true"
  | .bool false => "false"
  | .number n => renderNumber n
  | .string s => renderString s
  | .array items => "[" ++ String.intercalate "," (compactItems items) ++ "]"
  | .object members => "\x7b" ++ String.intercalate "," (compactMembers members) ++ "\x7d"

/-- Each item of an array on one line. -/
def compactItems : List Json → List String
  | [] => []
  | j :: rest => compact j :: compactItems rest

def compactMembers : List (String × Json) → List String
  | [] => []
  | (k, j) :: rest => (renderString k ++ ":" ++ compact j) :: compactMembers rest

end

/-- The start of a line at a level of nesting. -/
def indentation (level : Nat) : String :=
  String.ofList ('\n' :: List.replicate (2 * level) ' ')

/-- Texts between brackets, each on a line of its own one level further in; nothing is spread when
there is none. -/
def spread (level : Nat) (opening closing : String) (parts : List String) : String :=
  if parts.isEmpty then opening ++ closing
  else
    opening ++ indentation (level + 1) ++
      String.intercalate ("," ++ indentation (level + 1)) parts ++ indentation level ++ closing

mutual

/-- The value spread over lines, at a level of nesting. -/
def prettyAt (level : Nat) : Json → String
  | .null => "null"
  | .bool true => "true"
  | .bool false => "false"
  | .number n => renderNumber n
  | .string s => renderString s
  | .array items => spread level "[" "]" (prettyItems (level + 1) items)
  | .object members => spread level "\x7b" "\x7d" (prettyMembers (level + 1) members)

/-- Each item of an array, spread at the given level. -/
def prettyItems (level : Nat) : List Json → List String
  | [] => []
  | j :: rest => prettyAt level j :: prettyItems level rest

def prettyMembers (level : Nat) : List (String × Json) → List String
  | [] => []
  | (k, j) :: rest => (renderString k ++ ": " ++ prettyAt level j) :: prettyMembers level rest

end

/-- The value spread over lines. -/
def pretty (j : Json) : String := prettyAt 0 j

end RouteAtlas.Json
