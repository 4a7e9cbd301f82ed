import RouteAtlas.Directive.Arguments
import RouteAtlas.Directive.Basic
import RouteAtlas.Comment

/-!
# Reading directives

A comment line that begins with `@` is a directive: a keyword, arguments in parentheses, and a
description, the last two being optional. Reading a comment never fails: a line that cannot be read
becomes an issue of the set, as does a second directive of a kind that may appear only once, and
the other lines are read all the same.
-/

set_option autoImplicit false

namespace RouteAtlas

namespace Directive

/-- Why a line that begins with `@` is no directive. -/
inductive LineFault where
  | noDirective (line : String)
  | unterminated
  | tooManyArguments
  | invalidOptions (fault : OptionsFault)
  | unexpectedArgument (part : String)
  | valueRequired
  | valueRefused
  deriving DecidableEq, Repr

def LineFault.message (kind : DirectiveKind) : LineFault → String
  | .noDirective line => "'" ++ line ++ "' is not a valid annotation"
  | .unterminated => kind.mark ++ " has an unterminated argument list"
  | .tooManyArguments => kind.mark ++ " takes at most a value and an options object"
  | .invalidOptions fault => kind.mark ++ " has invalid options: " ++ fault.message
  | .unexpectedArgument part => kind.mark ++ " has an unexpected argument '" ++ part ++ "'"
  | .valueRequired => kind.mark ++ " requires a value"
  | .valueRefused => kind.mark ++ " does not take a value"

/-- The keyword behind the `@` of a line, and what follows it. -/
def keyword? : List Char → Option (List Char × List Char)
  | '@' :: c :: rest =>
    if c.isAlpha then
      let isWord := fun (c : Char) => c.isAlphanum || c = '_'
      some (c :: rest.takeWhile isWord, rest.dropWhile isWord)
    else none
  | _ => none

/-- What the arguments read so far say. -/
structure Reading where
  value : Option String := none
  valueSpan : Option Span := none
  options : Options := []
  /-- The values of a kind that takes a list. -/
  items : List String := []
  /-- Where the first of `items` begins and the last one ends, in bytes of the line. -/
  range : Option (Nat × Nat) := none

/-- Takes one more part of the argument list into account. `base` is the offset of the list in the
line, whose span is `span`. -/
def Reading.add (isList : Bool) (base : Nat) (span : Span) (r : Reading) (part : Part) :
    Except LineFault Reading :=
  let leading := Text.byteCount (part.2.takeWhile Text.isBlank)
  let cs := Text.trimChars part.2
  let start := base + part.1 + leading
  let size := Text.byteCount cs
  if cs.head? = some '{' then
    match readOptions cs with
    | .ok options => .ok { r with options := options }
    | .error fault => .error (.invalidOptions fault)
  else if isList && !cs.isEmpty && r.options.isEmpty then
    .ok { r with
      items := r.items ++ [String.ofList (unquote cs)]
      range := some ((r.range.map (·.1)).getD start, start + size) }
  else if !isList && r.value.isNone && !cs.isEmpty then
    .ok { r with
      value := some (String.ofList (unquote cs))
      valueSpan := some (span.sub start size) }
  else .error (.unexpectedArgument (String.ofList cs))

/-- The values of a list, joined into one. -/
def Reading.finish (span : Span) (r : Reading) : Reading :=
  match r.range with
  | none => r
  | some (first, last) =>
    { r with
      value := some (Text.join ", " r.items)
      valueSpan := some (span.sub first (last - first)) }

/-- Reads the characters between the parentheses. -/
def readArguments (kind : DirectiveKind) (base : Nat) (span : Span) (args : List Char) :
    Except LineFault Reading := do
  let parts := splitTop args
  let isList := kind.arity == .list
  if parts.length > 2 && !isList then .error .tooManyArguments
  else
    let r ← parts.foldlM (Reading.add isList base span) {}
    .ok (r.finish span)

/-- Whether the number of values suits the kind. -/
def checkArity (kind : DirectiveKind) (value : Option String) : Except LineFault Unit :=
  match kind.arity, value with
  | .required, none => .error .valueRequired
  | .list, none => .error .valueRequired
  | .none, some _ => .error .valueRefused
  | _, _ => .ok ()

/-- Reads what follows the keyword of a line. -/
def readRest (kind : DirectiveKind) (line keyword rest : List Char) (span : Span) :
    Except LineFault Directive :=
  match rest with
  | '(' :: _ =>
    match closing? rest with
    | none => .error .unterminated
    | some (args, behind) => do
      let r ← readArguments kind (keyword.length + 2) span args.tail
      checkArity kind r.value
      .ok ⟨kind, r.value, r.options, String.ofList (Text.trimChars behind), span, r.valueSpan⟩
  | _ =>
    if rest.isEmpty || (rest.head?.map Text.isBlank).getD false then do
      checkArity kind none
      .ok ⟨kind, none, [], String.ofList (Text.trimChars rest), span, none⟩
    else .error (.noDirective (String.ofList line))

/-- A line that could not be read: its kind, if it has a keyword, and the issue it becomes. -/
structure Malformed where
  kind : Option DirectiveKind
  issue : Diagnostic

/-- Reads a trimmed line that begins with `@`. -/
def readLine (line : List Char) (span : Span) : Except Malformed Directive :=
  match keyword? line with
  | none =>
    .error ⟨none, .of .malformedDirective
      (LineFault.message .tag (.noDirective (String.ofList line))) span⟩
  | some (keyword, rest) =>
    let kind := DirectiveKind.ofKeyword (String.ofList keyword)
    match readRest kind line keyword rest span with
    | .ok directive => .ok directive
    | .error fault => .error ⟨some kind, .of .malformedDirective (fault.message kind) span⟩

end Directive

namespace DirectiveSet

/-- The set with one more directive. A second one of a kind that may appear only once becomes an
issue. -/
def push (set : DirectiveSet) (a : Directive) : DirectiveSet :=
  if a.kind.isSingleton && set.has a.kind then
    { set with
      issues := set.issues ++
        [.of .repeatedDirective (a.kind.mark ++ " may only appear once") a.span] }
  else { set with directives := set.directives ++ [a] }

/-- The set with one more line that could not be read. -/
def refuse (set : DirectiveSet) (m : Directive.Malformed) : DirectiveSet :=
  { set with
    malformed := set.malformed ++ m.kind.toList
    issues := set.issues ++ [m.issue] }

def isDirectiveLine (line : CommentLine) : Bool :=
  (line.text.toList.dropWhile Text.isBlank).head? = some '@'

def addLine (set : DirectiveSet) (line : CommentLine) : DirectiveSet :=
  let cs := line.text.toList
  let leading := Text.byteCount (cs.takeWhile Text.isBlank)
  let trimmed := Text.trimChars cs
  match Directive.readLine trimmed (line.span.sub leading (Text.byteCount trimmed)) with
  | .ok a => set.push a
  | .error m => set.refuse m

/-- The text of a comment: its other lines, trimmed one by one and as a whole. -/
def textOf (doc : DocComment) : String :=
  Text.trim (Text.join "\n"
    ((doc.lines.filter (!isDirectiveLine ·)).map fun line => Text.trim line.text))

def ofDoc (doc : DocComment) : DirectiveSet :=
  { (doc.lines.filter isDirectiveLine).foldl addLine {} with text := textOf doc }

/-- The directives of a text without comment marks. -/
def ofText (s : String) : DirectiveSet := ofDoc (DocComment.ofText s)

end DirectiveSet

end RouteAtlas
