import RouteAtlas.Json.Reader
import RouteAtlas.Yaml.Cursor

/-!
# Scalars of YAML text

The three ways to write a scalar: plain, between quotes, and as a block of lines. Line ends inside
a scalar are folded: a single one becomes a space, and of several all but the first are kept.
-/

set_option autoImplicit false

namespace RouteAtlas.Yaml

/-- How a scalar is written. -/
inductive ScalarStyle where
  | plain
  | quoted
  | literal
  | folded
  deriving DecidableEq, Repr

/-- Blanks and line ends between two words of a scalar. -/
structure Gap where
  /-- Blanks before the first line end. -/
  blanks : List Char := []
  /-- The first line end. -/
  first : List Char := []
  /-- Further line ends. -/
  more : List Char := []
  /-- Whether there is a line end, be it one that leaves nothing behind. -/
  hasBreak : Bool := false

/-- What a gap leaves in the scalar. -/
def Gap.folded (g : Gap) : List Char :=
  if g.hasBreak then
    match g.first with
    | '\n' :: _ => if g.more.isEmpty then [' '] else g.more
    | first => first ++ g.more
  else g.blanks

/-- Reads the blanks and line ends that come next. `tabLimit` is the column before which no tab may
stand behind a line end; `fuel` is at least the number of characters. -/
def gapFrom (tabLimit : Option Nat) : Nat → Gap → Cursor → Except Cursor (Gap × Cursor)
  | 0, g, c => .ok (g, c)
  | fuel + 1, g, c =>
    match c.rest with
    | [] => .ok (g, c)
    | ch :: _ =>
      if isSpace ch then
        if g.hasBreak && ch == '\t' && tabLimit.any (fun limit => c.mark.column < limit) then
          .error c
        else gapFrom tabLimit fuel (if g.hasBreak then g else { g with blanks := g.blanks ++ [ch] })
          c.next
      else if isBreak ch then
        let (text, c) := c.nextLine
        gapFrom tabLimit fuel
          (if g.hasBreak then { g with more := g.more ++ text }
           else { g with blanks := [], first := text, hasBreak := true }) c
      else .ok (g, c)

/-- A scalar that was read: its text, where it ends, and the cursor behind it, which may stand
behind blanks and line ends that follow. -/
structure ScalarRead where
  text : List Char
  finish : Mark
  cursor : Cursor
  /-- Whether the cursor stands on a later line than the last character of the scalar. -/
  passedLine : Bool := false

/-- Whether a character ends a word of a plain scalar inside brackets. -/
def isFlowMark (c : Char) : Bool :=
  c == ',' || c == '[' || c == ']' || c == '\x7b' || c == '\x7d'

/-- Reads the characters of a plain scalar up to a blank or a mark that ends it. Inside brackets a
colon must not stand before a bracket, a comma or a question mark. -/
def plainWord (inFlow : Bool) : Nat → List Char → Cursor → Except Cursor (List Char × Cursor)
  | 0, word, c => .ok (word, c)
  | fuel + 1, word, c =>
    match c.rest with
    | [] => .ok (word, c)
    | ch :: rest =>
      if endsWord c.rest then .ok (word, c)
      else if inFlow && ch == ':' && rest.head?.any (fun d => isFlowMark d || d == '?') then
        .error c
      else if (ch == ':' && endsWord rest) || (inFlow && isFlowMark ch) then .ok (word, c)
      else plainWord inFlow fuel (word ++ [ch]) c.next

/-- Reads a plain scalar. Outside of brackets its lines have to be indented by at least `indent`. -/
def plainFrom (inFlow : Bool) (indent : Nat) (start : Mark) :
    Nat → List Char → Gap → Mark → Cursor → Except SyntaxError ScalarRead
  | 0, text, gap, finish, c => .ok ⟨text, finish, c, gap.hasBreak⟩
  | fuel + 1, text, gap, finish, c => do
    if (c.mark.column == 0 && isMarker c.rest) || startsWith '#' c.rest then
      return ⟨text, finish, c, gap.hasBreak⟩
    let (word, behind) ← match plainWord inFlow (c.rest.length + 1) [] c with
      | .ok r => pure r
      | .error c => throw (c.failed .unexpectedColon .plainScalar start)
    let (text, gap, finish) :=
      if word.isEmpty then (text, gap, finish)
      else (text ++ gap.folded ++ word, ({} : Gap), behind.mark)
    match behind.rest with
    | [] => return ⟨text, finish, behind, gap.hasBreak⟩
    | ch :: _ =>
      if !(isSpace ch || isBreak ch) then return ⟨text, finish, behind, gap.hasBreak⟩
      let (gap, c) ← match gapFrom (some indent) (behind.rest.length + 1) gap behind with
        | .ok r => pure r
        | .error c => throw (c.failed .tabViolation .plainScalar start)
      if !inFlow && c.mark.column < indent then return ⟨text, finish, c, gap.hasBreak⟩
      plainFrom inFlow indent start fuel text gap finish c

def readPlain (inFlow : Bool) (indent : Nat) (c : Cursor) : Except SyntaxError ScalarRead :=
  plainFrom inFlow indent c.mark (c.rest.length + 1) [] {} c.mark c

/-- What a backslash and a letter stand for between double quotes, or how many hexadecimal digits
follow. -/
def escapeOf? (c : Char) : Option (Except Nat Char) :=
  match c with
  | '0' => some (.ok '\x00')
  | 'a' => some (.ok '\x07')
  | 'b' => some (.ok '\x08')
  | 't' => some (.ok '\t')
  | '\t' => some (.ok '\t')
  | 'n' => some (.ok '\n')
  | 'v' => some (.ok '\x0b')
  | 'f' => some (.ok '\x0c')
  | 'r' => some (.ok '\r')
  | 'e' => some (.ok '\x1b')
  | ' ' => some (.ok ' ')
  | '"' => some (.ok '"')
  | '/' => some (.ok '/')
  | '\\' => some (.ok '\\')
  | 'N' => some (.ok '\u0085')
  | '_' => some (.ok '\u00a0')
  | 'L' => some (.ok '\u2028')
  | 'P' => some (.ok '\u2029')
  | 'x' => some (.error 2)
  | 'u' => some (.error 4)
  | 'U' => some (.error 8)
  | _ => none

/-- Reads an escape between double quotes, which is not at a line end. -/
def readEscape (start : Mark) (c : Cursor) : Except SyntaxError (Char × Cursor) :=
  match c.rest with
  | _ :: letter :: digits =>
    match escapeOf? letter with
    | none => .error (c.failed .unknownEscape .escape start)
    | some (.ok ch) => .ok (ch, c.skip 2)
    | some (.error n) =>
      let behind := c.skip 2
      match (digits.take n).mapM Json.hexValue? with
      | some values =>
        if values.length < n then .error (behind.failed .noHexDigit .escape start)
        else
          let code := values.foldl (fun acc d => 16 * acc + d) 0
          if (0xd800 ≤ code && code ≤ 0xdfff) || 0x10ffff < code then
            .error (behind.failed .invalidCodePoint .escape start)
          else .ok (Char.ofNat code, behind.skip n)
      | none => .error (behind.failed .noHexDigit .escape start)
  | _ => .error (c.failed .unknownEscape .escape start)

/-- Reads the characters of a quoted scalar up to a blank or the closing quote. Gives whether a
line end was escaped, too. -/
def quotedWord (quote : Char) (start : Mark) :
    Nat → List Char → Cursor → Except SyntaxError (List Char × Cursor × Bool)
  | 0, word, c => .ok (word, c, false)
  | fuel + 1, word, c =>
    match c.rest with
    | [] => .ok (word, c, false)
    | ch :: rest =>
      if endsWord c.rest then .ok (word, c, false)
      else if quote == '\'' && ch == '\'' && startsWith '\'' rest then
        quotedWord quote start fuel (word ++ ['\'']) (c.skip 2)
      else if ch == quote then .ok (word, c, false)
      else if quote == '"' && ch == '\\' then
        match rest with
        | d :: _ =>
          if isBreak d then .ok (word, c.next.nextLine.2, true)
          else do
            let (decoded, c) ← readEscape start c
            quotedWord quote start fuel (word ++ [decoded]) c
        | [] => .error (c.failed .unknownEscape .escape start)
      else quotedWord quote start fuel (word ++ [ch]) c.next

/-- Reads a quoted scalar behind its opening quote. -/
def quotedFrom (quote : Char) (start : Mark) :
    Nat → List Char → Cursor → Except SyntaxError ScalarRead
  | 0, text, c => .ok ⟨text, c.mark, c, false⟩
  | fuel + 1, text, c => do
    if c.mark.column == 0 && isMarker c.rest then
      throw (c.failed .documentInQuotes .quotedScalar start)
    if c.rest.isEmpty then throw (c.failed .endInQuotes .quotedScalar start)
    let (word, c, escaped) ← quotedWord quote start (c.rest.length + 1) [] c
    let text := text ++ word
    if startsWith quote c.rest then
      let c := c.next
      return ⟨text, c.mark, c, false⟩
    match gapFrom none (c.rest.length + 1) { hasBreak := escaped } c with
    | .ok (gap, c) => quotedFrom quote start fuel (text ++ gap.folded) c
    | .error c => throw (c.failed .tabViolation .quotedScalar start)

def readQuoted (quote : Char) (c : Cursor) : Except SyntaxError ScalarRead :=
  quotedFrom quote c.mark (c.rest.length + 1) [] c.next

/-- What a block of lines says about itself: whether the line ends at its end are dropped (`-1`) or
all kept (`1`), and by how much it is indented. -/
structure BlockHeader where
  chomping : Int := 0
  increment : Nat := 0

/-- Reads the sign and the digit behind the mark of a block of lines, in either order. -/
def readHeader (start : Mark) (c : Cursor) : Except SyntaxError (BlockHeader × Cursor) := do
  let sign := fun (c : Cursor) =>
    match c.rest with
    | '+' :: _ => ((1 : Int), c.next)
    | '-' :: _ => (-1, c.next)
    | _ => (0, c)
  let digit := fun (c : Cursor) =>
    match c.rest with
    | d :: _ =>
      if d == '0' then Except.error (c.failed .zeroIndentation .blockScalar start)
      else if d.isDigit then .ok (d.toNat - '0'.toNat, c.next)
      else .ok (0, c)
    | [] => .ok (0, c)
  let (chomping, c) := sign c
  let (increment, c) ← digit c
  if chomping == 0 then
    if increment == 0 then return (⟨0, 0⟩, c)
    let (chomping, c) := sign c
    return (⟨chomping, increment⟩, c)
  return (⟨chomping, increment⟩, c)

/-- Reads empty lines and the indentation of the line behind them. `indent` is zero while the
indentation is not known, and `deepest` is the deepest one seen. -/
def blockBreaks (indent : Nat) (start : Mark) :
    Nat → Nat → List Char → Mark → Cursor → Except SyntaxError (Nat × List Char × Mark × Cursor)
  | 0, deepest, breaks, finish, c => .ok (deepest, breaks, finish, c)
  | fuel + 1, deepest, breaks, finish, c =>
    let room := if indent == 0 then c.rest.length else indent - c.mark.column
    let c := c.skip ((c.rest.take room).takeWhile (· == ' ')).length
    let deepest := max deepest c.mark.column
    if (indent == 0 || c.mark.column < indent) && startsWith '\t' c.rest then
      .error (c.failed .tabInIndentation .blockScalar start)
    else
      match c.rest with
      | ch :: _ =>
        if isBreak ch then
          let (text, c) := c.nextLine
          blockBreaks indent start fuel deepest (breaks ++ text) c.mark c
        else .ok (deepest, breaks, finish, c)
      | [] => .ok (deepest, breaks, finish, c)

/-- Reads the lines of a block. `lead` is the line end before the line that comes next, `breaks`
the empty lines behind that, and `blankLead` tells whether the line before began with a blank. -/
def blockLines (isLiteral : Bool) (indent : Nat) (start : Mark) :
    Nat → List Char → List Char → List Char → Bool → Mark → Cursor →
      Except SyntaxError (List Char × List Char × List Char × Mark × Cursor)
  | 0, text, lead, breaks, _, finish, c => .ok (text, lead, breaks, finish, c)
  | fuel + 1, text, lead, breaks, blankLead, finish, c =>
    match c.rest with
    | [] => .ok (text, lead, breaks, finish, c)
    | ch :: _ =>
      if c.mark.column != indent then .ok (text, lead, breaks, finish, c)
      else
        let blank := isSpace ch
        let joined :=
          if !isLiteral && lead.head? == some '\n' && !blankLead && !blank then
            (if breaks.isEmpty then [' '] else []) ++ breaks
          else lead ++ breaks
        let (line, c) := c.takeWhile fun d => !isBreak d
        let (lead, c) := c.nextLine
        match blockBreaks indent start (c.rest.length + 1) 0 [] c.mark c with
        | .error e => .error e
        | .ok (_, breaks, finish, c) =>
          blockLines isLiteral indent start fuel (text ++ joined ++ line) lead breaks blank finish c

/-- Reads a block of lines; `parent` is the indentation of what it stands in, if any. -/
def readBlock (isLiteral : Bool) (parent : Option Nat) (c : Cursor) :
    Except SyntaxError ScalarRead := do
  let start := c.mark
  let (header, c) ← readHeader start c.next
  let c := (c.takeWhile isSpace).2
  let c := if startsWith '#' c.rest then (c.takeWhile fun d => !isBreak d).2 else c
  if !endsLine c.rest then throw (c.failed .noLineEnd .blockScalar start)
  let c := c.nextLine.2
  let given := if header.increment == 0 then 0 else parent.getD 0 + header.increment
  let (deepest, breaks, finish, c) ← blockBreaks given start (c.rest.length + 1) 0 [] c.mark c
  let least := match parent with
    | some p => p + 1
    | none => 1
  let indent := if given == 0 then max deepest least else given
  let (text, lead, breaks, finish, c) ←
    blockLines isLiteral indent start (c.rest.length + 1) [] [] breaks false finish c
  let tail :=
    if header.chomping == -1 then [] else if header.chomping == 1 then lead ++ breaks else lead
  return ⟨text ++ tail, finish, c, false⟩

end RouteAtlas.Yaml
