/-!
# Places and errors in YAML text

A mark is a place in a text. A syntax error tells what is wrong where, and, where that helps, what
was being read and where it began.
-/

set_option autoImplicit false

namespace RouteAtlas.Yaml

/-- A place in a text, everything counted in characters from zero. -/
structure Mark where
  index : Nat := 0
  line : Nat := 0
  column : Nat := 0
  deriving DecidableEq, Repr

/-- Whether a mark is at the very start, where it is left out of messages. -/
def Mark.isStart (m : Mark) : Bool := m.line == 0 && m.column == 0

/-- A mark in words, counted from one. -/
def Mark.render (m : Mark) : String :=
  "line " ++ toString (m.line + 1) ++ " column " ++ toString (m.column + 1)

/-- What is wrong with a text. -/
inductive Problem where
  | noToken
  | noColon
  | entryNotAllowed
  | keyNotAllowed
  | valueNotAllowed
  | unknownDirective
  | noDirectiveName
  | oddDirectiveName
  | noLineEnd
  | noVersionDigit
  | longVersion
  | noVersion
  | noWhitespace
  | noWhitespaceOrLineEnd
  | noName
  | noTagEnd
  | noTagMark
  | noTagUri
  | noEscapedOctet
  | wrongLeadingOctet
  | wrongTrailingOctet
  | zeroIndentation
  | tabInIndentation
  | documentInQuotes
  | endInQuotes
  | unknownEscape
  | noHexDigit
  | invalidCodePoint
  | unexpectedColon
  | tabViolation
  | noDocumentStart
  | noContent
  | undefinedHandle
  | noDash
  | noKey
  | noCommaOrBracket
  | noCommaOrBrace
  | repeatedVersion
  | repeatedTag
  | otherVersion
  deriving DecidableEq, Repr

/-- The wording of a problem. -/
def Problem.message : Problem → String
  | .noToken => "found character that cannot start any token"
  | .noColon => "could not find expected ':'"
  | .entryNotAllowed => "block sequence entries are not allowed in this context"
  | .keyNotAllowed => "mapping keys are not allowed in this context"
  | .valueNotAllowed => "mapping values are not allowed in this context"
  | .unknownDirective => "found unknown directive name"
  | .noDirectiveName => "could not find expected directive name"
  | .oddDirectiveName => "found unexpected non-alphabetical character"
  | .noLineEnd => "did not find expected comment or line break"
  | .noVersionDigit => "did not find expected digit or '.' character"
  | .longVersion => "found extremely long version number"
  | .noVersion => "did not find expected version number"
  | .noWhitespace => "did not find expected whitespace"
  | .noWhitespaceOrLineEnd => "did not find expected whitespace or line break"
  | .noName => "did not find expected alphabetic or numeric character"
  | .noTagEnd => "did not find the expected '>'"
  | .noTagMark => "did not find expected '!'"
  | .noTagUri => "did not find expected tag URI"
  | .noEscapedOctet => "did not find URI escaped octet"
  | .wrongLeadingOctet => "found an incorrect leading UTF-8 octet"
  | .wrongTrailingOctet => "found an incorrect trailing UTF-8 octet"
  | .zeroIndentation => "found an indentation indicator equal to 0"
  | .tabInIndentation => "found a tab character where an indentation space is expected"
  | .documentInQuotes => "found unexpected document indicator"
  | .endInQuotes => "found unexpected end of stream"
  | .unknownEscape => "found unknown escape character"
  | .noHexDigit => "did not find expected hexdecimal number"
  | .invalidCodePoint => "found invalid Unicode character escape code"
  | .unexpectedColon => "found unexpected ':'"
  | .tabViolation => "found a tab character that violates indentation"
  | .noDocumentStart => "did not find expected <document start>"
  | .noContent => "did not find expected node content"
  | .undefinedHandle => "found undefined tag handle"
  | .noDash => "did not find expected '-' indicator"
  | .noKey => "did not find expected key"
  | .noCommaOrBracket => "did not find expected ',' or ']'"
  | .noCommaOrBrace => "did not find expected ',' or '\x7d'"
  | .repeatedVersion => "found duplicate %YAML directive"
  | .repeatedTag => "found duplicate %TAG directive"
  | .otherVersion => "found incompatible YAML document"

/-- What was being read when a problem was met. -/
inductive Activity where
  | simpleKey
  | nextToken
  | directive
  | versionDirective
  | tagDirective
  | tagDirectiveStart
  | tagDirectiveHandle
  | tagDirectiveUri
  | anchor
  | reference
  | tag
  | tagUri
  | blockScalar
  | quotedScalar
  | escape
  | plainScalar
  | node
  | blockNode
  | flowNode
  | blockCollection
  | blockMapping
  | flowSequence
  | flowMapping
  deriving DecidableEq, Repr

/-- The wording of an activity. -/
def Activity.message : Activity → String
  | .simpleKey => "while scanning a simple key"
  | .nextToken => "while scanning for the next token"
  | .directive => "while scanning a directive"
  | .versionDirective => "while scanning a %YAML directive"
  | .tagDirective => "while scanning a %TAG directive"
  | .tagDirectiveStart => "while scanning a tag directive"
  | .tagDirectiveHandle => "while parsing a tag directive"
  | .tagDirectiveUri => "while parsing a %TAG directive"
  | .anchor => "while scanning an anchor"
  | .reference => "while scanning an alias"
  | .tag => "while scanning a tag"
  | .tagUri => "while parsing a tag"
  | .blockScalar => "while scanning a block scalar"
  | .quotedScalar => "while scanning a quoted scalar"
  | .escape => "while parsing a quoted scalar"
  | .plainScalar => "while scanning a plain scalar"
  | .node => "while parsing a node"
  | .blockNode => "while parsing a block node"
  | .flowNode => "while parsing a flow node"
  | .blockCollection => "while parsing a block collection"
  | .blockMapping => "while parsing a block mapping"
  | .flowSequence => "while parsing a flow sequence"
  | .flowMapping => "while parsing a flow mapping"

/-- What is wrong with a text as YAML. -/
inductive SyntaxError where
  /-- A character that must not occur, by the offset of its first byte. -/
  | control (offset : Nat)
  /-- A problem at a place, and what was being read from where on. -/
  | at (problem : Problem) (mark : Mark) (activity : Option (Activity × Mark))
  /-- A reference to an anchor that is not there. -/
  | unknownAnchor (mark : Mark)
  deriving DecidableEq, Repr

/-- The wording of a syntax error. -/
def SyntaxError.message : SyntaxError → String
  | .control offset =>
    "control characters are not allowed" ++
      (if offset = 0 then "" else " at position " ++ toString offset)
  | .at problem mark activity =>
    problem.message ++ (if mark.isStart then "" else " at " ++ mark.render) ++
      (match activity with
       | none => ""
       | some (a, begun) =>
         ", " ++ a.message ++
           (if begun.isStart || (begun.line == mark.line && begun.column == mark.column) then ""
            else " at " ++ begun.render))
  | .unknownAnchor mark =>
    "unknown anchor" ++ (if mark.isStart then "" else " at " ++ mark.render)

end RouteAtlas.Yaml
