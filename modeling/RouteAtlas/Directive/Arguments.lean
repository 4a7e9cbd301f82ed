import RouteAtlas.Text.Pieces

/-!
# Argument lists

The arguments of a directive stand between parentheses and are separated by commas. Brackets of
every kind nest, and neither brackets nor commas count inside a string literal. Two scans share
this reading: `closing?` finds the end of the list and `splitTop` cuts it at its commas.
-/

set_option autoImplicit false

namespace RouteAtlas.Directive

/-- Where a scan stands with respect to string literals. -/
inductive Quoting where
  /-- Outside of any literal. -/
  | outside
  /-- In a literal. -/
  | inside
  /-- In a literal, behind a backslash. -/
  | escaped
  deriving DecidableEq, Repr

/-- The state behind one more character. -/
def Quoting.step : Quoting → Char → Quoting
  | .outside, c => if c = '"' then .inside else .outside
  | .inside, c => if c = '\\' then .escaped else if c = '"' then .outside else .inside
  | .escaped, _ => .inside

def isOpening (c : Char) : Bool := c = '(' || c = '{' || c = '['

def isClosing (c : Char) : Bool := c = ')' || c = '}' || c = ']'

/-- Searches for the parenthesis that closes the outermost of `depth` open brackets. Gives the
characters before it and those behind it. Nothing is found when the text ends first, or when a
bracket of another kind, or one that was never opened, comes in its place. -/
def closingFrom : Quoting → Nat → List Char → Option (List Char × List Char)
  | _, _, [] => none
  | .outside, depth, c :: cs =>
    if isOpening c then
      (closingFrom .outside (depth + 1) cs).map fun (args, rest) => (c :: args, rest)
    else if isClosing c then
      match depth with
      | 0 => none
      | 1 => if c = ')' then some ([], cs) else none
      | depth + 2 =>
        (closingFrom .outside (depth + 1) cs).map fun (args, rest) => (c :: args, rest)
    else (closingFrom (Quoting.outside.step c) depth cs).map fun (args, rest) => (c :: args, rest)
  | .inside, depth, c :: cs =>
    (closingFrom (Quoting.inside.step c) depth cs).map fun (args, rest) => (c :: args, rest)
  | .escaped, depth, c :: cs =>
    (closingFrom (Quoting.escaped.step c) depth cs).map fun (args, rest) => (c :: args, rest)

/-- The characters before the parenthesis that closes the bracket a text begins with, that bracket
included, and the characters behind it. -/
def closing? (cs : List Char) : Option (List Char × List Char) :=
  closingFrom .outside 0 cs

/-- Offset, in bytes, of the parenthesis that closes the bracket a text begins with. -/
def matchingParen? (cs : List Char) : Option Nat :=
  (closing? cs).map fun (args, _) => Text.byteCount args

/-- A part of an argument list: where it begins, in bytes, and its characters. -/
abbrev Part := Nat × List Char

/-- Cuts a list at the commas outside of literals and brackets. `start` is where the current part
began and `part` holds its characters so far, in reverse; `offset` is where the scan stands. -/
def splitFrom : Quoting → Nat → Nat → List Char → Nat → List Char → List Part
  | _, _, start, part, _, [] => [(start, part.reverse)]
  | .outside, depth, start, part, offset, c :: cs =>
    if isOpening c then
      splitFrom .outside (depth + 1) start (c :: part) (offset + c.utf8Size) cs
    else if isClosing c then
      splitFrom .outside (depth - 1) start (c :: part) (offset + c.utf8Size) cs
    else if c = ',' && depth == 0 then
      (start, part.reverse) ::
        splitFrom .outside 0 (offset + c.utf8Size) [] (offset + c.utf8Size) cs
    else
      splitFrom (Quoting.outside.step c) depth start (c :: part) (offset + c.utf8Size) cs
  | .inside, depth, start, part, offset, c :: cs =>
    splitFrom (Quoting.inside.step c) depth start (c :: part) (offset + c.utf8Size) cs
  | .escaped, depth, start, part, offset, c :: cs =>
    splitFrom (Quoting.escaped.step c) depth start (c :: part) (offset + c.utf8Size) cs

/-- The parts of an argument list. A list of blanks has none. -/
def splitTop (args : List Char) : List Part :=
  if (Text.trimChars args).isEmpty then [] else splitFrom .outside 0 0 [] 0 args

/-- A value without the double quotes around it. -/
def unquote (cs : List Char) : List Char :=
  let cs := Text.trimChars cs
  match cs, cs.reverse with
  | '"' :: rest, '"' :: _ => if rest.isEmpty then cs else rest.dropLast
  | _, _ => cs

end RouteAtlas.Directive
