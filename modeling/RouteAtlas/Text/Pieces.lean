import RouteAtlas.Text.Blank

/-!
# Cutting texts into pieces

Splitting at a character, splitting into lines, searching for one text inside another, and the
number of bytes a text takes in UTF-8. The pieces of `splitOn` joined with the separator give the
text back, and there is always at least one piece.
-/

set_option autoImplicit false

namespace RouteAtlas.Text

/-- The pieces of a list between the members that satisfy `sep`, the empty ones included. -/
def splitChars (sep : Char → Bool) : List Char → List (List Char)
  | [] => [[]]
  | c :: rest =>
    match splitChars sep rest with
    | [] => [[]]
    | piece :: pieces => if sep c then [] :: piece :: pieces else (c :: piece) :: pieces

/-- The pieces of a text between the occurrences of one character. -/
def splitOn (s : String) (sep : Char) : List String :=
  (splitChars (· == sep) s.toList).map String.ofList

/-- The piece of a text before the first occurrence of a character, or all of it. -/
def before (s : String) (sep : Char) : String :=
  String.ofList (s.toList.takeWhile (· != sep))

/-- The texts joined with a separator between neighbours. -/
def join (sep : String) (parts : List String) : String :=
  sep.intercalate parts

/-- What follows `lead` in a list that begins with it. -/
def afterLead? : List Char → List Char → Option (List Char)
  | [], cs => some cs
  | _ :: _, [] => none
  | l :: lead, c :: cs => if l = c then afterLead? lead cs else none

/-- What follows `lead` in a text that begins with it. -/
def stripLead? (lead s : String) : Option String :=
  (afterLead? lead.toList s.toList).map String.ofList

def beginsWith (lead s : String) : Bool :=
  (afterLead? lead.toList s.toList).isSome

def endsIn (tail s : String) : Bool :=
  (afterLead? tail.toList.reverse s.toList.reverse).isSome

/-- What follows the first occurrence of `needle`. -/
def afterFirst? (needle : List Char) : List Char → Option (List Char)
  | [] => if needle.isEmpty then some [] else none
  | c :: cs =>
    match afterLead? needle (c :: cs) with
    | some rest => some rest
    | none => afterFirst? needle cs

/-- Every occurrence of `needle` replaced by `new`, from left to right; `fuel` bounds the length
of the list. An empty needle changes nothing. -/
def replaceChars (needle new : List Char) : Nat → List Char → List Char
  | 0, cs => cs
  | _ + 1, [] => []
  | fuel + 1, c :: cs =>
    if needle.isEmpty then c :: cs
    else match afterLead? needle (c :: cs) with
      | some rest => new ++ replaceChars needle new fuel rest
      | none => c :: replaceChars needle new fuel cs

def replace (needle new s : String) : String :=
  String.ofList (replaceChars needle.toList new.toList (s.toList.length + 1) s.toList)

/-- A line without the carriage return that may end it. -/
def dropReturn (line : List Char) : List Char :=
  match line.reverse with
  | '\r' :: rest => rest.reverse
  | _ => line

/-- The lines of a text. A line ends at a line feed, alone or after a carriage return, and the
last line needs no end; a text that ends with a line feed has no empty line after it. -/
def lineChars (cs : List Char) : List (List Char) :=
  let pieces := splitChars (· == '\n') cs
  match pieces.reverse with
  | [] => []
  | last :: complete =>
    let ended := complete.reverse.map dropReturn
    if last.isEmpty then ended else ended ++ [last]

def lines (s : String) : List String :=
  (lineChars s.toList).map String.ofList

def byteCount (cs : List Char) : Nat :=
  cs.foldr (fun c n => c.utf8Size + n) 0

end RouteAtlas.Text
