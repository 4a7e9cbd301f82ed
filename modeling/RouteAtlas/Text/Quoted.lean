import RouteAtlas.Text.Invisible

/-!
# Quoted text

Messages show a text of the user between double quotes, so that blanks at its ends and
characters without a shape of their own can be told apart.
-/

set_option autoImplicit false

namespace RouteAtlas.Text

/-- A code point in lower-case hexadecimal digits, without leading zeros. -/
def hexDigits (code : Nat) : List Char :=
  Nat.toDigits 16 code

/-- How one character is shown inside double quotes. -/
def quotedChar (c : Char) : List Char :=
  if c = '\x00' then ['\\', '0']
  else if c = '\t' then ['\\', 't']
  else if c = '\r' then ['\\', 'r']
  else if c = '\n' then ['\\', 'n']
  else if c = '"' then ['\\', '"']
  else if c = '\\' then ['\\', '\\']
  else if isInvisible c then ['\\', 'u', '{'] ++ hexDigits c.toNat ++ ['}']
  else [c]

/-- The text between double quotes, every character shown as itself where a reader can see it. -/
def quoted (s : String) : String :=
  String.ofList (['"'] ++ s.toList.flatMap quotedChar ++ ['"'])

end RouteAtlas.Text
