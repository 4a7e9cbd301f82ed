import RouteAtlas.Json.Decimal
import RouteAtlas.Text.Pieces

/-!
# Reading JSON

The reader walks a text with a cursor that knows its line and, counted in bytes, its column. It
either reads one value and nothing but blanks after it, or stops at the first fault. A fault is
placed at the cursor or just behind the next byte, as the kind of fault demands. Arrays and objects
may be nested 127 deep.
-/

set_option autoImplicit false

namespace RouteAtlas.Json

/-- What can be wrong with a JSON text. -/
inductive Fault where
  | endInList
  | endInObject
  | endInString
  | endInValue
  | colonExpected
  | listCommaExpected
  | objectCommaExpected
  | wordExpected
  | valueExpected
  | escapeInvalid
  | numberInvalid
  | numberTooLarge
  | controlCharacter
  | keyExpected
  | surrogateAlone
  | surrogateCut
  | commaTrailing
  | textTrailing
  | nestingTooDeep
  deriving DecidableEq, Repr

/-- The wording of a fault. -/
def Fault.message : Fault → String
  | .endInList => "EOF while parsing a list"
  | .endInObject => "EOF while parsing an object"
  | .endInString => "EOF while parsing a string"
  | .endInValue => "EOF while parsing a value"
  | .colonExpected => "expected `:`"
  | .listCommaExpected => "expected `,` or `]`"
  | .objectCommaExpected => "expected `,` or `\x7d`"
  | .wordExpected => "expected ident"
  | .valueExpected => "expected value"
  | .escapeInvalid => "invalid escape"
  | .numberInvalid => "invalid number"
  | .numberTooLarge => "number out of range"
  | .controlCharacter =>
    "control character (\\u0000-\\u001F) found while parsing a string"
  | .keyExpected => "key must be a string"
  | .surrogateAlone => "lone leading surrogate in hex escape"
  | .surrogateCut => "unexpected end of hex escape"
  | .commaTrailing => "trailing comma"
  | .textTrailing => "trailing characters"
  | .nestingTooDeep => "recursion limit exceeded"

/-- A fault and where it lies. -/
structure ReadError where
  fault : Fault
  line : Nat
  column : Nat
  deriving DecidableEq, Repr

/-- The wording of a fault with its place. -/
def ReadError.message (e : ReadError) : String :=
  e.fault.message ++ " at line " ++ toString e.line ++ " column " ++ toString e.column

/-- What is left to read, and how far the reader has come. -/
structure Cursor where
  rest : List Char
  line : Nat
  column : Nat
  deriving DecidableEq, Repr

namespace Cursor

def start (s : String) : Cursor := ⟨s.toList, 1, 0⟩

def after (cur : Cursor) (c : Char) (rest : List Char) : Cursor :=
  if c = '\n' then ⟨rest, cur.line + 1, 0⟩ else ⟨rest, cur.line, cur.column + c.utf8Size⟩

/-- The cursor behind the next character. -/
def skip (cur : Cursor) : Cursor :=
  match cur.rest with
  | [] => cur
  | c :: rest => cur.after c rest

/-- The next character, NUL at the end of the text. -/
def peek (cur : Cursor) : Char := cur.rest.headD '\x00'

/-- The cursor behind the blanks that come next. -/
def skipBlanks (cur : Cursor) : Cursor :=
  go cur.rest cur
where
  /-- Skips the blanks of `rest`, which is what is left at `cur`. -/
  go : List Char → Cursor → Cursor
    | [], cur => cur
    | c :: rest, cur =>
      if c = ' ' || c = '\n' || c = '\t' || c = '\r' then go rest (cur.after c rest) else cur

def fail {α : Type} (cur : Cursor) (fault : Fault) : Except ReadError α :=
  .error ⟨fault, cur.line, cur.column⟩

/-- A fault just behind the next byte, or at the end of the text. -/
def failNext {α : Type} (cur : Cursor) (fault : Fault) : Except ReadError α :=
  match cur.rest with
  | [] => cur.fail fault
  | c :: _ =>
    if c = '\n' then .error ⟨fault, cur.line + 1, 0⟩
    else .error ⟨fault, cur.line, cur.column + 1⟩

/-- The place four bytes further on. -/
def fourBytesOn (cur : Cursor) : Nat × Nat :=
  go 4 cur.rest cur.line cur.column
where
  /-- The place `n` bytes further on in `rest`. -/
  go (n : Nat) : List Char → Nat → Nat → Nat × Nat
    | [], line, column => (line, column)
    | c :: rest, line, column =>
      if n = 0 then (line, column)
      else if c = '\n' then go (n - 1) rest (line + 1) 0
      else if c.utf8Size ≤ n then go (n - c.utf8Size) rest line (column + c.utf8Size)
      else (line, column + n)

end Cursor

/-- What reading a part of the text gives: the part and the cursor behind it. -/
abbrev Reads (α : Type) := Except ReadError (α × Cursor)

/-- Reads the letters of a word after its first. -/
def readWord (value : Json) : List Char → Cursor → Reads Json
  | [], cur => .ok (value, cur)
  | expected :: word, cur =>
    match cur.rest with
    | [] => cur.fail .endInValue
    | c :: _ => if c = expected then readWord value word cur.skip else cur.failNext .wordExpected

/-- The value of a decimal digit. -/
def digitOf (c : Char) : Nat := c.toNat - '0'.toNat

/-- The cursor behind the digits that come next, and how many they are. -/
def skipDigits (cur : Cursor) : Nat × Cursor :=
  let digits := cur.rest.takeWhile Char.isDigit
  (digits.length,
    ⟨cur.rest.drop digits.length, cur.line, cur.column + digits.length⟩)

/-- The greatest whole number that is kept digit by digit. -/
def maxWord : Nat := UInt64.size - 1

/-- Reads digits into a whole number for as long as it stays below `2 ^ 64`; also gives the number
of digits read. -/
def gatherDigits (cur : Cursor) (significand : Nat) : Nat × Nat × Cursor :=
  go cur.rest significand 0 cur
where
  /-- Reads the digits of `rest`, which is what is left at `cur`. -/
  go : List Char → Nat → Nat → Cursor → Nat × Nat × Cursor
    | [], significand, count, cur => (significand, count, cur)
    | c :: rest, significand, count, cur =>
      if c.isDigit && 10 * significand + digitOf c ≤ maxWord then
        go rest (10 * significand + digitOf c) (count + 1) (cur.after c rest)
      else (significand, count, cur)

/-- The number of a decimal, a fault at the cursor when it is too large. -/
def finishDecimal (minus : Bool) (significand : Nat) (exponent : Int) (cur : Cursor) : Reads Json :=
  match doubleOfDecimal minus significand exponent with
  | some n => .ok (.number n, cur)
  | none => cur.fail .numberTooLarge

/-- The greatest exponent that is kept digit by digit. -/
def maxExponent : Nat := 1 <<< 31 - 1

/-- Reads the digits of an exponent after its first, up to the one that makes it too large. -/
def gatherExponent (cur : Cursor) (power : Nat) : Bool × Nat × Cursor :=
  go cur.rest power cur
where
  /-- Reads the digits of `rest`, which is what is left at `cur`. -/
  go : List Char → Nat → Cursor → Bool × Nat × Cursor
    | [], power, cur => (true, power, cur)
    | c :: rest, power, cur =>
      if c.isDigit then
        if 10 * power + digitOf c ≤ maxExponent then
          go rest (10 * power + digitOf c) (cur.after c rest)
        else (false, power, cur.after c rest)
      else (true, power, cur)

/-- Reads an exponent, the cursor being at its mark. -/
def readExponent (minus : Bool) (significand : Nat) (scale : Int) (cur : Cursor) : Reads Json :=
  let cur := cur.skip
  let down := cur.peek = '-'
  let cur := if cur.peek = '+' || cur.peek = '-' then cur.skip else cur
  match cur.rest with
  | [] => cur.fail .endInValue
  | c :: _ =>
    if !c.isDigit then cur.failNext .numberInvalid
    else
      let (fits, power, cur) := gatherExponent cur.skip (digitOf c)
      if fits then
        finishDecimal minus significand (if down then scale - power else scale + power) cur
      else if significand ≠ 0 && !down then cur.fail .numberTooLarge
      else .ok (.number (.double (if minus then (-0.0 : Float).toBits else (0.0 : Float).toBits)),
        (skipDigits cur).2)

/-- Reads the end of a number whose digits are read: an exponent, or nothing. -/
def readScale (minus : Bool) (significand : Nat) (scale : Int) (cur : Cursor) : Reads Json :=
  if cur.peek = 'e' || cur.peek = 'E' then readExponent minus significand scale cur
  else finishDecimal minus significand scale cur

/-- Reads the digits after a decimal point, the cursor being at the point. Digits that do not fit
are passed over. -/
def readFraction (minus : Bool) (significand : Nat) (scale : Int) (cur : Cursor) : Reads Json :=
  let (significand, count, cur) := gatherDigits cur.skip significand
  if cur.peek.isDigit then
    readScale minus significand (scale - count) (skipDigits cur).2
  else if count = 0 then
    if cur.rest.isEmpty then cur.failNext .endInValue else cur.failNext .numberInvalid
  else readScale minus significand (scale - count) cur

/-- Reads the end of a number whose whole part is read and fits. -/
def readNumberTail (minus : Bool) (significand : Nat) (cur : Cursor) : Reads Json :=
  if cur.peek = '.' then readFraction minus significand 0 cur
  else if cur.peek = 'e' || cur.peek = 'E' then readExponent minus significand 0 cur
  else if !minus then .ok (.number (.natural significand), cur)
  else if significand = 0 || 1 <<< 63 < significand then
    .ok (.number (.double (-(significand.toUInt64.toFloat)).toBits), cur)
  else .ok (.number (.negative significand), cur)

/-- Reads a number, the cursor being behind its sign. -/
def readNumber (minus : Bool) (cur : Cursor) : Reads Json :=
  match cur.rest with
  | [] => cur.fail .endInValue
  | c :: _ =>
    if c = '0' then
      let cur := cur.skip
      if cur.peek.isDigit then cur.failNext .numberInvalid else readNumberTail minus 0 cur
    else if c.isDigit then
      let (significand, _, cur) := gatherDigits cur.skip (digitOf c)
      if cur.peek.isDigit then
        let (count, cur) := skipDigits cur
        if cur.peek = '.' then readFraction minus significand count cur
        else readScale minus significand count cur
      else readNumberTail minus significand cur
    else cur.failNext .numberInvalid

/-- The value of a hexadecimal digit. -/
def hexValue? (c : Char) : Option Nat :=
  if c.isDigit then some (c.toNat - '0'.toNat)
  else if 'a' ≤ c && c ≤ 'f' then some (c.toNat - 'a'.toNat + 10)
  else if 'A' ≤ c && c ≤ 'F' then some (c.toNat - 'A'.toNat + 10)
  else none

/-- Reads the four digits of a code unit. -/
def readUnit (cur : Cursor) : Reads Nat :=
  if Text.byteCount cur.rest < 4 then
    let last := cur.rest.foldl (fun cur c => cur.after c []) cur
    last.fail .endInString
  else
    let (line, column) := cur.fourBytesOn
    match cur.rest with
    | a :: b :: c :: d :: rest =>
      match hexValue? a, hexValue? b, hexValue? c, hexValue? d with
      | some a, some b, some c, some d =>
        .ok (4096 * a + 256 * b + 16 * c + d, ⟨rest, line, column⟩)
      | _, _, _, _ => .error ⟨.escapeInvalid, line, column⟩
    | _ => .error ⟨.escapeInvalid, line, column⟩

/-- Reads one character after `\u`: a code unit, or two that form a surrogate pair. -/
def readUnicode (cur : Cursor) : Except ReadError (Char × Cursor) := do
  let (n, cur) ← readUnit cur
  if 0xDC00 ≤ n && n ≤ 0xDFFF then cur.fail .surrogateAlone
  else if n < 0xD800 || 0xDBFF < n then .ok (Char.ofNat n, cur)
  else if cur.rest.isEmpty then cur.fail .endInString
  else if cur.peek ≠ '\\' then cur.failNext .surrogateCut
  else
    let cur := cur.skip
    if cur.rest.isEmpty then cur.fail .endInString
    else if cur.peek ≠ 'u' then cur.failNext .surrogateCut
    else
      let (low, cur) ← readUnit cur.skip
      if low < 0xDC00 || 0xDFFF < low then cur.fail .surrogateAlone
      else .ok (Char.ofNat (0x10000 + 1024 * (n - 0xD800) + (low - 0xDC00)), cur)

/-- Reads the character after a backslash. -/
def readEscape (cur : Cursor) : Reads Char :=
  match cur.rest with
  | [] => cur.fail .endInString
  | '"' :: _ => .ok ('"', cur.skip)
  | '\\' :: _ => .ok ('\\', cur.skip)
  | '/' :: _ => .ok ('/', cur.skip)
  | 'b' :: _ => .ok (Char.ofNat 8, cur.skip)
  | 'f' :: _ => .ok (Char.ofNat 12, cur.skip)
  | 'n' :: _ => .ok ('\n', cur.skip)
  | 'r' :: _ => .ok ('\r', cur.skip)
  | 't' :: _ => .ok ('\t', cur.skip)
  | 'u' :: _ => readUnicode cur.skip
  | _ :: _ => cur.failNext .escapeInvalid

/-- Reads the characters of a string behind its opening quote, the characters so far in reverse;
`fuel` exceeds the number of characters left. -/
def readChars : Nat → List Char → Cursor → Reads String
  | 0, _, cur => cur.fail .endInString
  | fuel + 1, read, cur =>
    match cur.rest with
    | [] => cur.fail .endInString
    | c :: _ =>
      if c = '"' then .ok (String.ofList read.reverse, cur.skip)
      else if c = '\\' then
        match readEscape cur.skip with
        | .ok (c, cur) => readChars fuel (c :: read) cur
        | .error e => .error e
      else if c.toNat < 0x20 then cur.failNext .controlCharacter
      else readChars fuel (c :: read) cur.skip

/-- Reads a string behind its opening quote. -/
def readString (cur : Cursor) : Reads String :=
  readChars (cur.rest.length + 1) [] cur

/-- Reads the items of an array with `item`, those so far in reverse; `fuel` exceeds the number of
characters left. -/
def readItems (item : Cursor → Reads Json) : Nat → List Json → Cursor → Reads Json
  | 0, _, cur => cur.fail .endInList
  | fuel + 1, read, cur =>
    let cur := cur.skipBlanks
    match cur.rest with
    | [] => cur.fail .endInList
    | c :: _ =>
      if c = ']' then .ok (.array read.reverse, cur.skip)
      else if read.isEmpty then
        match item cur with
        | .ok (j, cur) => readItems item fuel (j :: read) cur
        | .error e => .error e
      else if c = ',' then
        let cur := cur.skip.skipBlanks
        if cur.rest.isEmpty then cur.fail .endInValue
        else if cur.peek = ']' then cur.failNext .commaTrailing
        else match item cur with
          | .ok (j, cur) => readItems item fuel (j :: read) cur
          | .error e => .error e
      else cur.failNext .listCommaExpected

/-- Reads a member of an object with `item` for its value, the cursor being at its quote. -/
def readMember (item : Cursor → Reads Json) (cur : Cursor) :
    Except ReadError ((String × Json) × Cursor) := do
  let (key, cur) ← readString cur.skip
  let cur := cur.skipBlanks
  if cur.rest.isEmpty then cur.fail .endInObject
  else if cur.peek ≠ ':' then cur.failNext .colonExpected
  else
    let (value, cur) ← item cur.skip
    .ok ((key, value), cur)

/-- Reads the members of an object with `item` for their values, those so far in reverse; `fuel`
exceeds the number of characters left. -/
def readMembers (item : Cursor → Reads Json) :
    Nat → List (String × Json) → Cursor → Reads Json
  | 0, _, cur => cur.fail .endInObject
  | fuel + 1, read, cur =>
    let cur := cur.skipBlanks
    match cur.rest with
    | [] => cur.fail .endInObject
    | c :: _ =>
      if c = '}' then .ok (.object read.reverse, cur.skip)
      else if read.isEmpty then
        if c ≠ '"' then cur.failNext .keyExpected
        else match readMember item cur with
          | .ok (m, cur) => readMembers item fuel (m :: read) cur
          | .error e => .error e
      else if c = ',' then
        let cur := cur.skip.skipBlanks
        if cur.rest.isEmpty then cur.fail .endInValue
        else if cur.peek = '}' then cur.failNext .commaTrailing
        else if cur.peek ≠ '"' then cur.failNext .keyExpected
        else match readMember item cur with
          | .ok (m, cur) => readMembers item fuel (m :: read) cur
          | .error e => .error e
      else cur.failNext .objectCommaExpected

/-- Reads a value in which arrays and objects may still be nested `depth` deep. -/
def readValue : Nat → Cursor → Reads Json
  | depth, cur =>
    let cur := cur.skipBlanks
    match cur.rest with
    | [] => cur.fail .endInValue
    | c :: _ =>
      if c = 'n' then readWord .null ['u', 'l', 'l'] cur.skip
      else if c = 't' then readWord (.bool true) ['r', 'u', 'e'] cur.skip
      else if c = 'f' then readWord (.bool false) ['a', 'l', 's', 'e'] cur.skip
      else if c = '-' then readNumber true cur.skip
      else if c.isDigit then readNumber false cur
      else if c = '"' then (readString cur.skip).map fun (s, cur) => (.string s, cur)
      else if c = '[' then
        match depth with
        | 0 => cur.failNext .nestingTooDeep
        | depth + 1 => readItems (readValue depth) (cur.rest.length + 1) [] cur.skip
      else if c = '{' then
        match depth with
        | 0 => cur.failNext .nestingTooDeep
        | depth + 1 => readMembers (readValue depth) (cur.rest.length + 1) [] cur.skip
      else cur.failNext .valueExpected

/-- How deep arrays and objects may be nested. -/
def maxDepth : Nat := 127

/-- Reads a text that is one value and blanks around it. -/
def read (s : String) : Except ReadError Json := do
  let (j, cur) ← readValue maxDepth (Cursor.start s)
  let cur := cur.skipBlanks
  if cur.rest.isEmpty then .ok j else cur.failNext .textTrailing

end RouteAtlas.Json
