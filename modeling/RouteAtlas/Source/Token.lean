import RouteAtlas.Span

/-!
# Tokens of a source file

A file is a list of bytes that need not be valid UTF-8. It is cut into tokens: words, numbers,
literals, comments, symbols and line ends, blanks being dropped. Every token knows its span; the
text of a token that is not UTF-8 is empty.
-/

set_option autoImplicit false

namespace RouteAtlas.Source

/-- The sort of a token. -/
inductive TokenKind where
  | word
  | number
  /-- A string between double quotes. -/
  | text
  /-- A string between back quotes. -/
  | raw
  | rune
  | lineComment
  | blockComment
  | newline
  | symbol
  deriving DecidableEq, Repr

/-- A token with its text and its place. -/
structure Token where
  kind : TokenKind
  lexeme : String
  span : Span
  deriving DecidableEq, Repr

namespace Token

def isComment (t : Token) : Bool := t.kind == .lineComment || t.kind == .blockComment

/-- Whether the token is a comment or a line end. -/
def isTrivia (t : Token) : Bool := t.isComment || t.kind == .newline

def isSymbol (t : Token) (s : String) : Bool := t.kind == .symbol && t.lexeme == s

def isWord (t : Token) (s : String) : Bool := t.kind == .word && t.lexeme == s

def opens (t : Token) : Bool := t.isSymbol "(" || t.isSymbol "[" || t.isSymbol "\x7b"

def closes (t : Token) : Bool := t.isSymbol ")" || t.isSymbol "]" || t.isSymbol "\x7d"

/-- Whether an expression or a type can end with the token, so that a line end behind it ends the
construct it is in. -/
def endsOperand (t : Token) : Bool :=
  match t.kind with
  | .word | .number | .text | .raw | .rune => true
  | .symbol => t.closes || t.lexeme == "++" || t.lexeme == "--"
  | _ => false

def isString (t : Token) : Bool := t.kind == .text || t.kind == .raw

end Token

/-- How far a scan has come: the offset, the row and the column in bytes, all from zero. -/
structure Place where
  byte : Nat
  row : Nat
  column : Nat
  deriving DecidableEq, Repr

def Place.advance (p : Place) (bytes : List UInt8) : Place :=
  bytes.foldl
    (fun p b =>
      if b = 10 then ⟨p.byte + 1, p.row + 1, 0⟩ else ⟨p.byte + 1, p.row, p.column + 1⟩) p

/-- The span between two places. -/
def Place.spanTo (p q : Place) : Span where
  startByte := p.byte
  endByte := q.byte
  startLine := p.row + 1
  startCol := p.column + 1
  endLine := q.row + 1
  endCol := q.column + 1

/-- The text of some bytes, empty when they are not UTF-8. -/
def decode (bytes : List UInt8) : String :=
  (String.fromUTF8? ⟨bytes.toArray⟩).getD ""

def isDigitByte (b : UInt8) : Bool := 48 ≤ b && b ≤ 57

/-- Whether a byte can begin a word; every byte of a character beyond ASCII can. -/
def isWordStart (b : UInt8) : Bool :=
  (65 ≤ b && b ≤ 90) || (97 ≤ b && b ≤ 122) || b == 95 || 128 ≤ b

def isWordByte (b : UInt8) : Bool := isWordStart b || isDigitByte b

/-- Whether a byte is a blank other than a line end. -/
def isBlankByte (b : UInt8) : Bool := b == 32 || b == 9 || b == 13 || b == 11 || b == 12

/-- Length of a literal behind its opening quote, the closing quote included. A backslash takes the
byte behind it along, and a line end ends the literal. -/
def quotedLength (quote : UInt8) : List UInt8 → Nat
  | [] => 0
  | b :: rest =>
    if b = quote then 1
    else if b = 10 then 0
    else if b = 92 then
      match rest with
      | [] => 1
      | _ :: more => quotedLength quote more + 2
    else quotedLength quote rest + 1

/-- Length of a literal between back quotes behind the first of them. -/
def rawLength : List UInt8 → Nat
  | [] => 0
  | b :: rest => if b = 96 then 1 else rawLength rest + 1

/-- Length of a block comment behind its opening mark. -/
def blockLength : List UInt8 → Nat
  | [] => 0
  | 42 :: 47 :: _ => 2
  | _ :: rest => blockLength rest + 1

/-- Length of a number: digits, letters, points and the sign of an exponent, whose marks are
`marks`. -/
def numberLength (marks : List UInt8) : List UInt8 → Nat
  | [] => 0
  | b :: rest =>
    if isWordByte b || b == 46 then
      match rest with
      | sign :: more =>
        if marks.contains b && (sign == 43 || sign == 45) then numberLength marks more + 2
        else numberLength marks (sign :: more) + 1
      | [] => 1
    else 0

/-- The marks of an exponent in a number that begins with the given bytes. -/
def exponentMarks : List UInt8 → List UInt8
  | 48 :: 120 :: _ => [112, 80]
  | 48 :: 88 :: _ => [112, 80]
  | _ => [101, 69]

/-- The sort and the length of the token that some bytes begin with. -/
def tokenAt : List UInt8 → TokenKind × Nat
  | [] => (.symbol, 0)
  | 10 :: _ => (.newline, 1)
  | 47 :: 47 :: rest => (.lineComment, (rest.takeWhile (· != 10)).length + 2)
  | 47 :: 42 :: rest => (.blockComment, blockLength rest + 2)
  | 34 :: rest => (.text, quotedLength 34 rest + 1)
  | 39 :: rest => (.rune, quotedLength 39 rest + 1)
  | 96 :: rest => (.raw, rawLength rest + 1)
  | 46 :: 46 :: 46 :: _ => (.symbol, 3)
  | 60 :: 45 :: _ => (.symbol, 2)
  | 43 :: 43 :: _ => (.symbol, 2)
  | 45 :: 45 :: _ => (.symbol, 2)
  | b :: rest =>
    if isWordStart b then (.word, (rest.takeWhile isWordByte).length + 1)
    else if isDigitByte b then (.number, numberLength (exponentMarks (b :: rest)) (b :: rest))
    else if b == 46 && (rest.head?.map isDigitByte).getD false then
      (.number, numberLength [101, 69] (b :: rest))
    else (.symbol, 1)

/-- The tokens of some bytes that begin at a place; `fuel` is at least their number. -/
def tokensFrom : Nat → Place → List UInt8 → List Token
  | 0, _, _ => []
  | _ + 1, _, [] => []
  | fuel + 1, p, b :: rest =>
    if isBlankByte b then tokensFrom fuel (p.advance [b]) rest
    else
      let (kind, length) := tokenAt (b :: rest)
      let bytes := (b :: rest).take length
      let q := p.advance bytes
      ⟨kind, decode bytes, p.spanTo q⟩ :: tokensFrom fuel q ((b :: rest).drop length)

/-- The tokens of a file. A byte order mark at its start is a blank. -/
def tokens (bytes : List UInt8) : List Token :=
  match bytes with
  | 0xEF :: 0xBB :: 0xBF :: rest => tokensFrom rest.length ⟨3, 0, 3⟩ rest
  | _ => tokensFrom bytes.length ⟨0, 0, 0⟩ bytes

/-- Whether a bracket opened behind the given token holds a group of declarations, whose line ends
count. -/
def beginsGroup (before : Option Token) : Bool :=
  match before with
  | some t => t.isWord "import" || t.isWord "type" || t.isWord "const" || t.isWord "var"
  | none => false

/-- The tokens without the line ends that cannot end anything: those between parentheses and
brackets. `frames` tells for every open bracket, the innermost first, whether line ends count in it,
and `last` is the last token that is no comment and no line end. -/
def layoutFrom (frames : List Bool) (last : Option Token) : List Token → List Token
  | [] => []
  | t :: rest =>
    if t.kind == .newline then
      if frames.headD true then t :: layoutFrom frames last rest else layoutFrom frames last rest
    else if t.isComment then t :: layoutFrom frames last rest
    else if t.opens then
      let counts := t.isSymbol "\x7b" || (frames.isEmpty && t.isSymbol "(" && beginsGroup last)
      t :: layoutFrom (counts :: frames) (some t) rest
    else if t.closes then t :: layoutFrom frames.tail (some t) rest
    else t :: layoutFrom frames (some t) rest

/-- The tokens without the line ends that cannot end anything. -/
def layout (ts : List Token) : List Token := layoutFrom [] none ts

end RouteAtlas.Source
