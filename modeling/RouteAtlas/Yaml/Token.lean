import RouteAtlas.Text.Pieces
import RouteAtlas.Yaml.Scalar

/-!
# Tokens of YAML text

Indentation is turned into tokens that begin and end blocks. Whether a scalar is a key shows only
when a colon follows it on its line, so a place where a key may have begun is remembered, and the
tokens that go before the key are noted once the colon is seen.
-/

set_option autoImplicit false

namespace RouteAtlas.Yaml

/-- What a token is. -/
inductive TokenKind where
  | streamEnd
  | version (major minor : Nat)
  | tagDirective (handle lead : String)
  | documentStart
  | documentEnd
  | blockSequenceStart
  | blockMappingStart
  | blockEnd
  | flowSequenceStart
  | flowSequenceEnd
  | flowMappingStart
  | flowMappingEnd
  | blockEntry
  | flowEntry
  | key
  | value
  | reference (name : String)
  | anchor (name : String)
  | tag (handle suffix : String)
  | scalar (text : String) (style : ScalarStyle)
  deriving DecidableEq, Repr

/-- A token and its place. -/
structure Token where
  kind : TokenKind
  start : Mark
  finish : Mark
  deriving DecidableEq, Repr

/-- A place where a key may have begun. -/
structure KeyCandidate where
  /-- Whether there has to be a key, because the block says so. -/
  required : Bool
  /-- The number of the token that would be the key. -/
  number : Nat
  mark : Mark
  deriving DecidableEq, Repr

/-- A text on the way of being cut into tokens. -/
structure Scanner where
  cursor : Cursor
  /-- The tokens so far, last first. -/
  tokens : List Token := []
  /-- Tokens that go before the token of a number. -/
  inserted : List (Nat × Token) := []
  /-- The indentation of the innermost block, if there is one. -/
  indent : Option Nat := none
  /-- The indentations of the blocks around it. -/
  outer : List (Option Nat) := []
  /-- Whether a key may begin here. -/
  keyAllowed : Bool := true
  /-- The candidates inside each open bracket, innermost first, and outside of them. -/
  candidates : List (Option KeyCandidate) := [none]
  ended : Bool := false

namespace Scanner

/-- Whether a bracket is open. -/
def inFlow (s : Scanner) : Bool := s.candidates.length > 1

def push (s : Scanner) (kind : TokenKind) (start finish : Mark) : Scanner :=
  { s with tokens := ⟨kind, start, finish⟩ :: s.tokens }

def noColon (s : Scanner) (k : KeyCandidate) : SyntaxError :=
  s.cursor.failed .noColon .simpleKey k.mark

/-- Whether a candidate can no longer be a key: the colon has to come on the same line and soon. -/
def isStale (s : Scanner) (k : KeyCandidate) : Bool :=
  k.mark.line < s.cursor.mark.line || k.mark.index + 1024 < s.cursor.mark.index

/-- Drops the candidates that can no longer be keys. -/
def dropStale (s : Scanner) : Except SyntaxError Scanner := do
  let candidates ← s.candidates.reverse.mapM fun k =>
    match k with
    | some k =>
      if s.isStale k then if k.required then .error (s.noColon k) else .ok none else .ok (some k)
    | none => .ok none
  return { s with candidates := candidates.reverse }

def dropCandidate (s : Scanner) : Except SyntaxError Scanner :=
  match s.candidates with
  | some k :: rest =>
    if k.required then .error (s.noColon k) else .ok { s with candidates := none :: rest }
  | _ => .ok s

/-- Notes that a key may begin here. -/
def saveCandidate (s : Scanner) : Except SyntaxError Scanner :=
  if s.keyAllowed then do
    let k : KeyCandidate :=
      { required := !s.inFlow && s.indent == some s.cursor.mark.column
        number := s.tokens.length
        mark := s.cursor.mark }
    let s ← s.dropCandidate
    return { s with candidates := some k :: s.candidates.tail }
  else .ok s

/-- Whether a column is deeper than the innermost block. -/
def isDeeper (s : Scanner) (column : Nat) : Bool :=
  match s.indent with
  | none => true
  | some i => i < column

/-- Begins a block at a column that is deeper than the innermost one: with a token here, or before
the token of a number. -/
def roll (s : Scanner) (column : Nat) (number : Option Nat) (kind : TokenKind) (mark : Mark) :
    Scanner :=
  if s.inFlow || !s.isDeeper column then s
  else
    let s := { s with outer := s.indent :: s.outer, indent := some column }
    match number with
    | none => s.push kind mark mark
    | some n => { s with inserted := (n, ⟨kind, mark, mark⟩) :: s.inserted }

/-- Ends the blocks deeper than a column, or all of them. -/
def unrollFrom (column : Option Nat) (mark : Mark) : List (Option Nat) → Scanner → Scanner
  | [], s => s
  | before :: rest, s =>
    match s.indent with
    | none => s
    | some i =>
      if column.all (fun c => c < i) then
        unrollFrom column mark rest
          { s.push .blockEnd mark mark with indent := before, outer := rest }
      else s

/-- Ends the blocks deeper than a column, or all of them. -/
def unroll (s : Scanner) (column : Option Nat) : Scanner :=
  if s.inFlow then s else unrollFrom column s.cursor.mark s.outer s

/-- Passes over blanks, comments and line ends. Tabs count as blanks only where no key may
begin. -/
def skipBlanks : Nat → Scanner → Scanner
  | 0, s => s
  | fuel + 1, s =>
    let c := s.cursor
    let c := if c.mark.index == 0 && startsWith '\ufeff' c.rest then c.next else c
    let tabs := s.inFlow || !s.keyAllowed
    let c := (c.takeWhile fun ch => ch == ' ' || (tabs && ch == '\t')).2
    let c := if startsWith '#' c.rest then (c.takeWhile fun ch => !isBreak ch).2 else c
    match c.rest with
    | ch :: _ =>
      if isBreak ch then
        skipBlanks fuel
          { s with cursor := c.nextLine.2, keyAllowed := if s.inFlow then s.keyAllowed else true }
      else { s with cursor := c }
    | [] => { s with cursor := c }

/-- The scanner behind some characters that are a token. -/
def take (s : Scanner) (n : Nat) (kind : TokenKind) : Scanner :=
  let c := s.cursor.skip n
  { s.push kind s.cursor.mark c.mark with cursor := c }

/-- Ends the text. -/
def fetchEnd (s : Scanner) : Except SyntaxError Scanner := do
  let m := s.cursor.mark
  let m := if m.column == 0 then m else { m with line := m.line + 1, column := 0 }
  let s := { s with cursor := ⟨s.cursor.rest, m⟩ }.unroll none
  let s ← s.dropCandidate
  return { s.push .streamEnd m m with keyAllowed := false, ended := true }

def versionNumber (start : Mark) (c : Cursor) : Except SyntaxError (Nat × Cursor) :=
  let (digits, behind) := c.takeWhile Char.isDigit
  if digits.isEmpty then .error (c.failed .noVersion .versionDirective start)
  else if digits.length > 9 then .error ((c.skip 9).failed .longVersion .versionDirective start)
  else .ok (digits.foldl (fun n d => 10 * n + (d.toNat - '0'.toNat)) 0, behind)

/-- The number of octets of a character, by the first of them. -/
def octetCount? (octet : Nat) : Option Nat :=
  if octet < 0x80 then some 1
  else if 0xc0 ≤ octet && octet < 0xe0 then some 2
  else if 0xe0 ≤ octet && octet < 0xf0 then some 3
  else if 0xf0 ≤ octet && octet < 0xf8 then some 4
  else none

/-- Reads an octet written as a percent sign and two hexadecimal digits. -/
def escapedOctet? : List Char → Option Nat
  | '%' :: a :: b :: _ => do return 16 * (← Json.hexValue? a) + (← Json.hexValue? b)
  | _ => none

/-- Reads the octets of a character behind the first one. -/
def trailingOctets (activity : Activity) (start : Mark) :
    Nat → Nat → Cursor → Except SyntaxError (Nat × Cursor)
  | 0, code, c => .ok (code, c)
  | n + 1, code, c =>
    match escapedOctet? c.rest with
    | none => .error (c.failed .noEscapedOctet activity start)
    | some octet =>
      if octet / 64 = 2 then
        trailingOctets activity start n (64 * code + octet % 64) (c.skip 3)
      else .error (c.failed .wrongTrailingOctet activity start)

/-- Reads a character whose octets are all written with percent signs. -/
def escapedChar (activity : Activity) (start : Mark) (c : Cursor) :
    Except SyntaxError (Char × Cursor) :=
  match escapedOctet? c.rest with
  | none => .error (c.failed .noEscapedOctet activity start)
  | some octet =>
    match octetCount? octet with
    | none => .error (c.failed .wrongLeadingOctet activity start)
    | some 1 => .ok (Char.ofNat octet, c.skip 3)
    | some n => do
      let (code, c) ← trailingOctets activity start (n - 1) (octet % 1 <<< (7 - n)) (c.skip 3)
      return (Char.ofNat code, c)

/-- Reads the characters of a tag; `wide` allows more of them. -/
def tagUriFrom (wide : Bool) (activity : Activity) (start : Mark) :
    Nat → List Char → Cursor → Except SyntaxError (List Char × Cursor)
  | 0, uri, c => .ok (uri, c)
  | fuel + 1, uri, c =>
    match c.rest with
    | [] => .ok (uri, c)
    | ch :: _ =>
      if ch == '%' then do
        let (decoded, c) ← escapedChar activity start c
        tagUriFrom wide activity start fuel (uri ++ [decoded]) c
      else if isWordChar ch || ";/?:@&=+$.!~*'()".toList.contains ch ||
          (wide && ",[]".toList.contains ch) then
        tagUriFrom wide activity start fuel (uri ++ [ch]) c.next
      else .ok (uri, c)

/-- Reads a tag behind its handle, of which `head` is already known to belong to it. -/
def tagUri (wide : Bool) (activity : Activity) (head : List Char) (start : Mark) (c : Cursor) :
    Except SyntaxError (List Char × Cursor) := do
  let (uri, c) ← tagUriFrom wide activity start (c.rest.length + 1) head.tail c
  if head.isEmpty && uri.isEmpty then throw (c.failed .noTagUri activity start)
  return (uri, c)

/-- Reads an exclamation mark, a name, and the exclamation mark that may follow. -/
def tagHandle (c : Cursor) : List Char × Cursor :=
  let (name, c) := c.next.takeWhile isWordChar
  match c.rest with
  | '!' :: _ => ('!' :: name ++ ['!'], c.next)
  | _ => ('!' :: name, c)

/-- Reads a tag. -/
def fetchTag (s : Scanner) : Except SyntaxError Scanner := do
  let s ← s.saveCandidate
  let start := s.cursor.mark
  let (handle, suffix, c) ←
    if startsWith '<' s.cursor.rest.tail then do
      let (uri, c) ← tagUri true .tagUri [] start (s.cursor.skip 2)
      if !startsWith '>' c.rest then throw (c.failed .noTagEnd .tag start)
      pure ([], uri, c.next)
    else do
      let (handle, c) := tagHandle s.cursor
      if handle.length > 1 && handle.getLast? == some '!' then
        let (uri, c) ← tagUri false .tagUri [] start c
        pure (handle, uri, c)
      else
        let (uri, c) ← tagUri false .tagUri handle start c
        pure (if uri.isEmpty then ([], ['!'], c) else (['!'], uri, c))
  if !(s.inFlow && startsWith ',' c.rest) && !endsWord c.rest then
    throw (c.failed .noWhitespaceOrLineEnd .tag start)
  return { s.push (.tag (String.ofList handle) (String.ofList suffix)) start c.mark with
    cursor := c, keyAllowed := false }

/-- Reads the arguments of a directive. -/
def directiveKind (name : List Char) (start : Mark) (c : Cursor) :
    Except SyntaxError (TokenKind × Cursor) := do
  let blanks := fun (c : Cursor) => (c.takeWhile isSpace).2
  if name == "YAML".toList then
    let (major, c) ← versionNumber start (blanks c)
    if !startsWith '.' c.rest then throw (c.failed .noVersionDigit .versionDirective start)
    let (minor, c) ← versionNumber start c.next
    return (.version major minor, c)
  else if name == "TAG".toList then
    let c := blanks c
    if !startsWith '!' c.rest then throw (c.failed .noTagMark .tagDirectiveStart start)
    let (handle, c) := tagHandle c
    if handle.length > 1 && handle.getLast? != some '!' then
      throw (c.failed .noTagMark .tagDirectiveHandle start)
    if !c.rest.head?.any isSpace then
      throw (c.failed .noWhitespace .tagDirective start)
    let (lead, c) ← tagUri true .tagDirectiveUri [] start (blanks c)
    if !endsWord c.rest then throw (c.failed .noWhitespaceOrLineEnd .tagDirective start)
    return (.tagDirective (String.ofList handle) (String.ofList lead), c)
  else throw (c.failed .unknownDirective .directive start)

/-- Reads a directive. -/
def fetchDirective (s : Scanner) : Except SyntaxError Scanner := do
  let s ← (s.unroll none).dropCandidate
  let start := s.cursor.mark
  let (name, c) := s.cursor.next.takeWhile isWordChar
  if name.isEmpty then throw (c.failed .noDirectiveName .directive start)
  if !endsWord c.rest then throw (c.failed .oddDirectiveName .directive start)
  let (kind, c) ← directiveKind name start c
  let finish := c.mark
  let c := (c.takeWhile isSpace).2
  let c := if startsWith '#' c.rest then (c.takeWhile fun d => !isBreak d).2 else c
  if !endsLine c.rest then throw (c.failed .noLineEnd .directive start)
  return { s.push kind start finish with cursor := c.nextLine.2, keyAllowed := false }

/-- Reads the marker that begins or ends a document. -/
def fetchMarker (s : Scanner) (kind : TokenKind) : Except SyntaxError Scanner := do
  let s ← (s.unroll none).dropCandidate
  return { s.take 3 kind with keyAllowed := false }

/-- Reads an opening bracket. -/
def fetchOpening (s : Scanner) (kind : TokenKind) : Except SyntaxError Scanner := do
  let s ← s.saveCandidate
  return { s.take 1 kind with candidates := none :: s.candidates, keyAllowed := true }

/-- Reads a closing bracket. -/
def fetchClosing (s : Scanner) (kind : TokenKind) : Except SyntaxError Scanner := do
  let s ← s.dropCandidate
  let candidates := if s.inFlow then s.candidates.tail else s.candidates
  return { s.take 1 kind with candidates := candidates, keyAllowed := false }

/-- Reads a comma. -/
def fetchComma (s : Scanner) : Except SyntaxError Scanner := do
  let s ← s.dropCandidate
  return { s.take 1 .flowEntry with keyAllowed := true }

/-- The error about something that must not stand here. -/
def misplaced (s : Scanner) (problem : Problem) : SyntaxError := .at problem s.cursor.mark none

/-- Begins a block here, unless inside brackets, where no block can begin. -/
def rollHere (s : Scanner) (problem : Problem) (kind : TokenKind) : Except SyntaxError Scanner :=
  if s.inFlow then .ok s
  else if s.keyAllowed then .ok (s.roll s.cursor.mark.column none kind s.cursor.mark)
  else .error (s.misplaced problem)

/-- Reads the dash of an entry. -/
def fetchEntry (s : Scanner) : Except SyntaxError Scanner := do
  let s ← s.rollHere .entryNotAllowed .blockSequenceStart
  let s ← s.dropCandidate
  return { s.take 1 .blockEntry with keyAllowed := true }

/-- Reads the question mark of a key. -/
def fetchKey (s : Scanner) : Except SyntaxError Scanner := do
  let s ← s.rollHere .keyNotAllowed .blockMappingStart
  let s ← s.dropCandidate
  return { s.take 1 .key with keyAllowed := !s.inFlow }

/-- Reads the colon of a value. -/
def fetchValue (s : Scanner) : Except SyntaxError Scanner := do
  match s.candidates with
  | some k :: rest =>
    let s := { s with inserted := (k.number, ⟨.key, k.mark, k.mark⟩) :: s.inserted }
    let s := s.roll k.mark.column (some k.number) .blockMappingStart k.mark
    return { s.take 1 .value with candidates := none :: rest, keyAllowed := false }
  | _ =>
    let s ← s.rollHere .valueNotAllowed .blockMappingStart
    return { s.take 1 .value with keyAllowed := !s.inFlow }

/-- Reads an anchor or a reference to one. -/
def fetchName (s : Scanner) (activity : Activity) (kind : String → TokenKind) :
    Except SyntaxError Scanner := do
  let s ← s.saveCandidate
  let start := s.cursor.mark
  let (name, c) := s.cursor.next.takeWhile isWordChar
  let ends := endsWord c.rest ||
    c.rest.head?.any (fun d => "?:,]\x7d%@\x60".toList.contains d)
  if name.isEmpty || !ends then throw (c.failed .noName activity start)
  return { s.push (kind (String.ofList name)) start c.mark with cursor := c, keyAllowed := false }

def pushScalar (s : Scanner) (r : ScalarRead) (style : ScalarStyle) (keyAllowed : Bool) : Scanner :=
  { s.push (.scalar (String.ofList r.text) style) s.cursor.mark r.finish with
    cursor := r.cursor, keyAllowed := keyAllowed }

/-- Reads a block of lines. -/
def fetchBlock (s : Scanner) (isLiteral : Bool) : Except SyntaxError Scanner := do
  let s ← s.dropCandidate
  let r ← readBlock isLiteral s.indent s.cursor
  return s.pushScalar r (if isLiteral then .literal else .folded) true

/-- Reads a quoted scalar. -/
def fetchQuoted (s : Scanner) (quote : Char) : Except SyntaxError Scanner := do
  let s ← s.saveCandidate
  let r ← readQuoted quote s.cursor
  return s.pushScalar r .quoted false

/-- Reads a plain scalar. -/
def fetchPlain (s : Scanner) : Except SyntaxError Scanner := do
  let s ← s.saveCandidate
  let indent := match s.indent with
    | some i => i + 1
    | none => 0
  let r ← readPlain s.inFlow indent s.cursor
  return s.pushScalar r .plain r.passedLine

/-- Whether a plain scalar can begin here. -/
def canBePlain (inFlow : Bool) : List Char → Bool
  | [] => false
  | c :: rest =>
    !(isSpace c || isBreak c || "-?:,[]\x7b\x7d#&*!|>'\"%@\x60".toList.contains c) ||
      (c == '-' && !rest.head?.any isSpace) ||
      (!inFlow && (c == '?' || c == ':') && !endsWord rest)

/-- Reads the next token. -/
def fetch (s : Scanner) : Except SyntaxError Scanner := do
  let s ← (s.skipBlanks (s.cursor.rest.length + 1)).dropStale
  let s := s.unroll (some s.cursor.mark.column)
  match s.cursor.rest with
  | [] => s.fetchEnd
  | c :: rest =>
    let first := s.cursor.mark.column == 0
    let wordEnds := endsWord rest
    if first && c == '%' then s.fetchDirective
    else if first && isMarker s.cursor.rest then
      s.fetchMarker (if c == '-' then .documentStart else .documentEnd)
    else if c == '[' then s.fetchOpening .flowSequenceStart
    else if c == '\x7b' then s.fetchOpening .flowMappingStart
    else if c == ']' then s.fetchClosing .flowSequenceEnd
    else if c == '\x7d' then s.fetchClosing .flowMappingEnd
    else if c == ',' then s.fetchComma
    else if c == '-' && wordEnds then s.fetchEntry
    else if c == '?' && (s.inFlow || wordEnds) then s.fetchKey
    else if c == ':' && (s.inFlow || wordEnds) then s.fetchValue
    else if c == '*' then s.fetchName .reference .reference
    else if c == '&' then s.fetchName .anchor .anchor
    else if c == '!' then s.fetchTag
    else if c == '|' && !s.inFlow then s.fetchBlock true
    else if c == '>' && !s.inFlow then s.fetchBlock false
    else if c == '\'' || c == '"' then s.fetchQuoted c
    else if canBePlain s.inFlow s.cursor.rest then s.fetchPlain
    else throw (s.cursor.failed .noToken .nextToken s.cursor.mark)

/-- The first `n` tokens in order, each behind those that go before it. -/
def arrange (s : Scanner) (n : Nat) : List Token :=
  (s.tokens.reverse.take n).zipIdx.flatMap fun (t, i) =>
    ((s.inserted.filter (·.1 == i)).map (·.2)) ++ [t]

/-- The number of tokens that are settled: those before the first that may still be a key. -/
def settled (s : Scanner) : Nat :=
  s.candidates.foldl (fun n k =>
    match k with
    | some k => min n k.number
    | none => n) s.tokens.length

end Scanner

/-- The tokens of a text, as far as they can be read, and what is wrong behind them. -/
structure Tokens where
  tokens : List Token
  error : Option SyntaxError

/-- Reads tokens up to the end of the text. When the text turns out to be wrong, only the tokens
count that were settled before. -/
def tokensFrom : Nat → Nat → Scanner → Tokens
  | 0, settled, s => ⟨s.arrange settled, none⟩
  | fuel + 1, settled, s =>
    match s.dropStale with
    | .error e => ⟨s.arrange settled, some e⟩
    | .ok s =>
      if s.ended then ⟨s.arrange s.tokens.length, none⟩
      else
        match s.fetch with
        | .error e => ⟨s.arrange s.settled, some e⟩
        | .ok next => tokensFrom fuel s.settled next

def tokens (text : String) : Tokens :=
  match controlOffset? 0 text.toList with
  | some offset => ⟨[], some (.control offset)⟩
  | none => tokensFrom (text.length + 3) 0 { cursor := ⟨text.toList, {}⟩ }

end RouteAtlas.Yaml
