import RouteAtlas.Yaml.Mark

/-!
# Reading characters of YAML text

A cursor is what is left of a text and the place where that begins.
-/

set_option autoImplicit false

namespace RouteAtlas.Yaml

/-- Whether a character ends a line. -/
def isBreak (c : Char) : Bool :=
  c == '\n' || c == '\r' || c == '\u0085' || c == '\u2028' || c == '\u2029'

def isSpace (c : Char) : Bool := c == ' ' || c == '\t'

/-- Whether a character can be part of a name. -/
def isWordChar (c : Char) : Bool := c.isAlphanum || c == '_' || c == '-'

/-- Whether a word ends here: at a space, a line end or the end of the text. -/
def endsWord : List Char → Bool
  | [] => true
  | c :: _ => isSpace c || isBreak c

def endsLine : List Char → Bool
  | [] => true
  | c :: _ => isBreak c

/-- Whether the next character is a given one. -/
def startsWith (c : Char) : List Char → Bool
  | [] => false
  | d :: _ => c == d

/-- Whether three dashes or three dots stand here as a word. -/
def isMarker : List Char → Bool
  | '-' :: '-' :: '-' :: rest => endsWord rest
  | '.' :: '.' :: '.' :: rest => endsWord rest
  | _ => false

/-- What is left of a text, and where it begins. -/
structure Cursor where
  rest : List Char
  mark : Mark

namespace Cursor

/-- The cursor behind the next character, which does not end a line. -/
def next (c : Cursor) : Cursor :=
  match c.rest with
  | [] => c
  | _ :: rest => ⟨rest, { c.mark with index := c.mark.index + 1, column := c.mark.column + 1 }⟩

/-- The cursor behind some characters, none of which ends a line. -/
def skip (n : Nat) (c : Cursor) : Cursor :=
  { rest := c.rest.drop n
    mark := { c.mark with index := c.mark.index + n, column := c.mark.column + n } }

/-- The cursor behind characters for as long as they satisfy `p`, and these characters. None of
them ends a line. -/
def takeWhile (p : Char → Bool) (c : Cursor) : List Char × Cursor :=
  let taken := c.rest.takeWhile p
  (taken, c.skip taken.length)

/-- The cursor behind the next line end, and the character it stands for. -/
def nextLine (c : Cursor) : List Char × Cursor :=
  let behind := fun (n : Nat) => (⟨c.mark.index + n, c.mark.line + 1, 0⟩ : Mark)
  match c.rest with
  | '\r' :: '\n' :: rest => (['\n'], ⟨rest, behind 2⟩)
  | ch :: rest =>
    (if ch = '\u2028' || ch = '\u2029' then [ch] else ['\n'], ⟨rest, behind 1⟩)
  | [] => ([], c)

/-- The error of a problem met here while something was read that began at `start`. -/
def failed (c : Cursor) (problem : Problem) (activity : Activity) (start : Mark) : SyntaxError :=
  .at problem c.mark (some (activity, start))

end Cursor

/-- The offset of the first character that must not occur in a text, in bytes. -/
def controlOffset? : Nat → List Char → Option Nat
  | _, [] => none
  | offset, c :: rest =>
    let n := c.toNat
    if n == 9 || n == 10 || n == 13 || (0x20 ≤ n && n ≤ 0x7e) || n == 0x85 ||
        (0xa0 ≤ n && n ≤ 0xfffd) || 0x10000 ≤ n then
      controlOffset? (offset + c.utf8Size) rest
    else some offset

end RouteAtlas.Yaml
