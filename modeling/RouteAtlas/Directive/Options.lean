import RouteAtlas.Json.Reader
import RouteAtlas.Text.Blank

/-!
# Options

The options of a directive are a JSON object in which the keys may stand without quotes. A bare
key is a word between an opening brace or a comma and a colon, blanks allowed around it; such words
are quoted first, wherever they stand, and the result is read as JSON.
-/

set_option autoImplicit false

namespace RouteAtlas.Directive

/-- Whether a bare key can begin with a character. -/
def isKeyStart (c : Char) : Bool := c.isAlpha || c = '_'

/-- Whether a bare key can go on with a character. -/
def isKeyChar (c : Char) : Bool := c.isAlphanum || c = '_' || c = '-'

/-- The blanks and the bare key at the start of a text, and what follows the colon behind it. -/
def bareKey? (cs : List Char) : Option (List Char × List Char × List Char) :=
  let blanks := cs.takeWhile Text.isBlank
  let afterBlanks := cs.dropWhile Text.isBlank
  match afterBlanks with
  | [] => none
  | c :: rest =>
    if isKeyStart c then
      let key := c :: rest.takeWhile isKeyChar
      match (rest.dropWhile isKeyChar).dropWhile Text.isBlank with
      | ':' :: behind => some (blanks, key, behind)
      | _ => none
    else none

/-- The text with its bare keys quoted; `fuel` is at least the number of characters. -/
def quoteKeysFrom : Nat → List Char → List Char
  | 0, cs => cs
  | _ + 1, [] => []
  | fuel + 1, c :: cs =>
    if c = '{' || c = ',' then
      match bareKey? cs with
      | some (blanks, key, behind) =>
        c :: blanks ++ ['"'] ++ key ++ ['"', ':'] ++ quoteKeysFrom fuel behind
      | none => c :: quoteKeysFrom fuel cs
    else c :: quoteKeysFrom fuel cs

/-- The text with its bare keys quoted. -/
def quoteKeys (cs : List Char) : List Char := quoteKeysFrom cs.length cs

/-- What can be wrong with options. -/
inductive OptionsFault where
  | unreadable (error : Json.ReadError)
  | notObject
  deriving DecidableEq, Repr

/-- The wording of a fault. -/
def OptionsFault.message : OptionsFault → String
  | .unreadable error => error.message
  | .notObject => "expected an object"

/-- The members of an options object, sorted by name. -/
abbrev Options := List (String × Json)

def readOptions (cs : List Char) : Except OptionsFault Options :=
  match Json.read (String.ofList (quoteKeys cs)) with
  | .error error => .error (.unreadable error)
  | .ok j =>
    match j.canonical with
    | .object members => .ok members
    | _ => .error .notObject

end RouteAtlas.Directive
