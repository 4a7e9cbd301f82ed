import RouteAtlas.Source.Constant
import RouteAtlas.Source.Doc
import RouteAtlas.Source.Token

/-!
# Reading declarations

The declarations of a file are read from its tokens. Only the outline matters: bodies of functions
are passed over, and so is every statement that declares nothing of interest. A reader gives what
it read and the tokens behind it, or nothing when the tokens have another form. Where a construct
is not complete a line end is passed over; where it could be complete the line end ends it.
-/

set_option autoImplicit false

namespace RouteAtlas.Source

/-- The contents of a file. -/
structure Contents where
  bytes : ByteArray

/-- The text of a span, empty when it is not UTF-8. -/
def Contents.text (src : Contents) (span : Span) : String :=
  (String.fromUTF8? (src.bytes.extract span.startByte span.endByte)).getD ""

/-- The tokens behind the comments and line ends that come next. -/
def significant (ts : List Token) : List Token := ts.dropWhile Token.isTrivia

def behindComments (ts : List Token) : List Token := ts.dropWhile Token.isComment

/-- The tokens up to the bracket that closes the outermost of `depth` open ones, that bracket, and
the tokens behind it. -/
def balanced : Nat → List Token → Option (List Token × Token × List Token)
  | _, [] => none
  | depth, t :: rest =>
    if t.opens then
      (balanced (depth + 1) rest).map fun (inside, close, behind) => (t :: inside, close, behind)
    else if t.closes then
      match depth with
      | 0 => none
      | 1 => some ([], t, rest)
      | depth + 2 =>
        (balanced (depth + 1) rest).map fun (inside, close, behind) => (t :: inside, close, behind)
    else (balanced depth rest).map fun (inside, close, behind) => (t :: inside, close, behind)

/-- The span of some tokens without the comments and line ends around them. -/
def coreSpan? (ts : List Token) : Option Span :=
  match significant ts, significant ts.reverse with
  | first :: _, last :: _ => some (first.span.through last.span)
  | _, _ => none

/-- Something that was read: its value, the span of its last token, and the tokens behind it. -/
structure Parsed (α : Type) where
  value : α
  last : Span
  rest : List Token

/-- The words that begin a type and so cannot be names. -/
def typeWords : List String := ["struct", "interface", "func", "map", "chan"]

/-- Whether a token can be the name of a parameter or of a field. -/
def isNameToken (t : Token) : Bool := t.kind == .word && !typeWords.contains t.lexeme

def beginsType (t : Token) : Bool :=
  t.kind == .word || t.isSymbol "*" || t.isSymbol "[" || t.isSymbol "<-" || t.isSymbol "~"

/-- Reads the list of results or the single result type that may follow the parameters of a
function type, with `type?` for types; gives the last token and the tokens behind. -/
def skipResult (type? : List Token → Option (Parsed TypeExpr)) (last : Span) (ts : List Token) :
    Option (Span × List Token) :=
  match behindComments ts with
  | [] => some (last, ts)
  | t :: rest =>
    if t.isSymbol "(" then (balanced 1 rest).map fun (_, close, behind) => (close.span, behind)
    else if beginsType t then (type? (t :: rest)).map fun p => (p.last, p.rest)
    else some (last, ts)

/-- Reads a type; `fuel` bounds the nesting. -/
def typeAt (src : Contents) : Nat → List Token → Option (Parsed TypeExpr)
  | 0, _ => none
  | fuel + 1, ts =>
    match significant ts with
    | [] => none
    | t :: rest =>
      let inlineTo := fun (last : Span) (behind : List Token) =>
        (⟨.inline (src.text (t.span.through last)), last, behind⟩ : Parsed TypeExpr)
      let commented := fun (inner : TypeExpr) =>
        match (rest.takeWhile Token.isTrivia).find? Token.isComment with
        | some c => TypeExpr.inline c.lexeme
        | none => inner
      if t.isSymbol "*" then do
        let p ← typeAt src fuel rest
        some ⟨.pointer (commented p.value), p.last, p.rest⟩
      else if t.isSymbol "(" then do
        let p ← typeAt src fuel rest
        match significant p.rest with
        | close :: behind =>
          if close.isSymbol ")" then some ⟨commented p.value, close.span, behind⟩ else none
        | [] => none
      else if t.isSymbol "[" then do
        let (inside, _, behind) ← balanced 1 rest
        let p ← typeAt src fuel behind
        match coreSpan? inside with
        | none => some ⟨.slice p.value, p.last, p.rest⟩
        | some length => some ⟨.array (src.text length) p.value, p.last, p.rest⟩
      else if t.isSymbol "<-" then
        match significant rest with
        | c :: behind =>
          if c.isWord "chan" then do
            let p ← typeAt src fuel behind
            some ⟨.chan p.value, p.last, p.rest⟩
          else none
        | [] => none
      else if t.isSymbol "~" then do
        let p ← typeAt src fuel rest
        some (inlineTo p.last p.rest)
      else if t.kind != .word then none
      else if t.lexeme = "chan" then do
        let behind := match significant rest with
          | arrow :: more => if arrow.isSymbol "<-" then more else rest
          | [] => rest
        let p ← typeAt src fuel behind
        some ⟨.chan p.value, p.last, p.rest⟩
      else if t.lexeme = "map" then
        match significant rest with
        | bracket :: inner =>
          if bracket.isSymbol "[" then do
            let key ← typeAt src fuel inner
            match significant key.rest with
            | close :: behind =>
              if close.isSymbol "]" then do
                let p ← typeAt src fuel behind
                some ⟨.map key.value p.value, p.last, p.rest⟩
              else none
            | [] => none
          else none
        | [] => none
      else if t.lexeme = "struct" || t.lexeme = "interface" then
        match significant rest with
        | brace :: inner =>
          if brace.isSymbol "\x7b" then do
            let (_, close, behind) ← balanced 1 inner
            some (inlineTo close.span behind)
          else none
        | [] => none
      else if t.lexeme = "func" then
        match significant rest with
        | paren :: inner =>
          if paren.isSymbol "(" then do
            let (_, close, behind) ← balanced 1 inner
            let (last, behind) ← skipResult (typeAt src fuel) close.span behind
            some (inlineTo last behind)
          else none
        | [] => none
      else
        let simple : Parsed TypeExpr :=
          match behindComments rest with
          | point :: more =>
            if point.isSymbol "." then
              match significant more with
              | name :: behind =>
                if name.kind == .word then
                  ⟨.named (some t.lexeme) name.lexeme, name.span, behind⟩
                else ⟨.named none t.lexeme, t.span, rest⟩
              | [] => ⟨.named none t.lexeme, t.span, rest⟩
            else ⟨.named none t.lexeme, t.span, rest⟩
          | [] => ⟨.named none t.lexeme, t.span, rest⟩
        match behindComments simple.rest with
        | bracket :: inner =>
          if bracket.isSymbol "[" then do
            let (_, close, behind) ← balanced 1 inner
            some (inlineTo close.span behind)
          else some simple
        | [] => some simple

/-- Reads a type whose nesting is bounded by the number of tokens. -/
def readType (src : Contents) (ts : List Token) : Option (Parsed TypeExpr) :=
  typeAt src (ts.length + 1) ts

/-- Whether the brackets that begin here hold type arguments, so that the name before them is an
instance of a generic type and not the name of something of an array type. `ends` tells the tokens
that can stand behind a type. -/
def isInstance (ends : Token → Bool) (ts : List Token) : Bool :=
  match balanced 1 ts with
  | some (inside, _, behind) =>
    (coreSpan? inside).isSome &&
      (match behindComments behind with
       | t :: _ => ends t
       | [] => true)
  | none => false

/-- A parameter that is a type alone. -/
def bareParam (t : Token) : ParamDecl := ⟨none, .named none t.lexeme, t.span⟩

def endsParam (t : Token) : Bool := t.isSymbol "," || t.isSymbol ")"

/-- Reads parameters up to the closing parenthesis. `bare` holds the words read last that may turn
out to be names of parameters or types of parameters without a name; `fuel` is at least the number
of tokens. -/
def paramsFrom (src : Contents) :
    Nat → List Token → List Token → Option (Parsed (List ParamDecl))
  | 0, _, _ => none
  | fuel + 1, bare, ts =>
    match significant ts with
    | [] => none
    | t :: rest =>
      let followed (first : List ParamDecl) (p : Parsed TypeExpr) : Option (Parsed (List ParamDecl)) :=
        (paramsFrom src fuel [] p.rest).map fun more => ⟨first ++ more.value, more.last, more.rest⟩
      let unnamed (_ : Unit) : Option (Parsed (List ParamDecl)) := do
        let p ← readType src (t :: rest)
        followed (bare.map bareParam ++ [⟨none, p.value, t.span.through p.last⟩]) p
      if t.isSymbol ")" then some ⟨bare.map bareParam, t.span, rest⟩
      else if t.isSymbol "," then paramsFrom src fuel bare rest
      else if t.isSymbol "..." then do
        let p ← readType src rest
        followed (bare.map bareParam ++ [⟨none, .slice p.value, t.span.through p.last⟩]) p
      else if isNameToken t then
        match significant rest with
        | [] => none
        | next :: behind =>
          if endsParam next then paramsFrom src fuel (bare ++ [t]) (next :: behind)
          else if next.isSymbol "." || (next.isSymbol "[" && isInstance endsParam behind) then
            unnamed ()
          else if next.isSymbol "..." then do
            let p ← readType src behind
            followed (bare.map bareParam ++ [⟨some t.lexeme, .slice p.value, t.span⟩]) p
          else do
            let p ← readType src (next :: behind)
            followed ((bare ++ [t]).map fun n => ⟨some n.lexeme, p.value, n.span⟩) p
      else unnamed ()

/-- Reads parameters behind the opening parenthesis. -/
def readParams (src : Contents) (ts : List Token) : Option (Parsed (List ParamDecl)) :=
  paramsFrom src (ts.length + 1) [] ts

def endsField (t : Token) : Bool :=
  t.kind == .newline || t.isSymbol ";" || t.isSymbol "\x7d" || t.isString

/-- Reads names separated by commas: further ones for as long as a comma follows. Gives the tokens
of the names and the tokens behind; `fuel` is at least the number of tokens. -/
def moreNames : Nat → List Token → List Token × List Token
  | 0, ts => ([], ts)
  | fuel + 1, ts =>
    match behindComments ts with
    | comma :: rest =>
      if comma.isSymbol "," then
        match significant rest with
        | name :: behind =>
          if name.kind == .word then
            let (names, behind) := moreNames fuel behind
            (name :: names, behind)
          else ([], ts)
        | [] => ([], ts)
      else ([], ts)
    | [] => ([], ts)

/-- A field declaration as written: its names, of which an embedded field has none, its type and
its tag. -/
structure FieldSpec where
  names : List String
  type : TypeExpr
  tag : Option String

def readTag (first : Span) (names : List String) (p : Parsed TypeExpr) :
    Parsed (FieldSpec × Span) :=
  match behindComments p.rest with
  | t :: rest =>
    if t.isString then
      ⟨(⟨names, p.value, some (unquote t.lexeme)⟩, first.through t.span), t.span, rest⟩
    else ⟨(⟨names, p.value, none⟩, first.through p.last), p.last, p.rest⟩
  | [] => ⟨(⟨names, p.value, none⟩, first.through p.last), p.last, p.rest⟩

/-- Reads a field. -/
def readField (src : Contents) (ts : List Token) : Option (Parsed (FieldSpec × Span)) :=
  match ts with
  | [] => none
  | t :: rest =>
    if t.isSymbol "*" then (readType src rest).map (readTag t.span [])
    else if t.kind != .word then none
    else
      match behindComments rest with
      | [] => (readType src ts).map (readTag t.span [])
      | next :: behind =>
        if endsField next || next.isSymbol "." ||
            (next.isSymbol "[" && isInstance endsField behind) then
          (readType src ts).map (readTag t.span [])
        else
          let (names, behind) := moreNames rest.length rest
          (readType src behind).map (readTag t.span (t.lexeme :: names.map (·.lexeme)))

/-- The tokens behind the line on which reading failed: behind the next line end or semicolon. -/
def skipLine (ts : List Token) : List Token :=
  (ts.dropWhile fun t => !(t.kind == .newline || t.isSymbol ";")).tail

/-- Reads the members of a group with `member?`, which gives a member and its span. Comments stand
between the members; `fuel` is at least the number of tokens. -/
def groupFrom {α : Type} (member? : List Token → Option (Parsed (α × Span))) :
    Nat → List Token → List (Sibling α)
  | 0, _ => []
  | _ + 1, [] => []
  | fuel + 1, t :: rest =>
    if t.kind == .newline || t.isSymbol ";" then groupFrom member? fuel rest
    else if t.isComment then .comment t.lexeme t.span :: groupFrom member? fuel rest
    else
      match member? (t :: rest) with
      | some p => .node p.value.1 p.value.2 :: groupFrom member? fuel p.rest
      | none => groupFrom member? fuel (skipLine (t :: rest))

def readGroup {α : Type} (member? : List Token → Option (Parsed (α × Span))) (ts : List Token) :
    List (Sibling α) :=
  groupFrom member? ts.length ts

/-- The fields of a field declaration, one for each of its names. -/
def fieldsOf (spec : FieldSpec) (span : Span) (doc : DocComment) : List FieldDecl :=
  match spec.names with
  | [] => [⟨none, spec.type, spec.tag, doc, span⟩]
  | names => names.map fun name => ⟨some name, spec.type, spec.tag, doc, span⟩

/-- The fields between the braces of a struct. -/
def readFields (src : Contents) (inside : List Token) : List FieldDecl :=
  (withDocs (readGroup (readField src) inside)).flatMap fun (spec, span, doc) =>
    fieldsOf spec span doc

/-- Expressions cut at the commas outside of brackets. -/
def splitExpressions : Nat → List Token → List Token → List (List Token)
  | _, item, [] => [item.reverse]
  | depth, item, t :: rest =>
    if depth = 0 && t.isSymbol "," then item.reverse :: splitExpressions 0 [] rest
    else
      let depth := if t.opens then depth + 1 else if t.closes then depth - 1 else depth
      splitExpressions depth (t :: item) rest

/-- Whether what stands behind a name in brackets can only be a type. A star or a parenthesis can
also go on an expression, a product or a call, if what stands behind it is a name. -/
def isConstraint (src : Contents) (ts : List Token) : Bool :=
  (readType src ts).isSome &&
    (match significant ts with
     | t :: _ =>
       let behind := ts.dropWhile fun t => t.isTrivia || t.isSymbol "*" || t.isSymbol "("
       !(t.isSymbol "*" || t.isSymbol "(") || !(behind.head?.map isNameToken).getD false
     | [] => false)

/-- Whether the bracket behind the name of a declared type holds type parameters rather than the
length of an array: a name stands first, and behind it a type, or a comma somewhere. -/
def holdsTypeParams (src : Contents) (ts : List Token) : Bool :=
  match balanced 1 ts with
  | some (inside, _, _) =>
    match significant inside with
    | name :: rest =>
      isNameToken name && (1 < (splitExpressions 0 [] rest).length || isConstraint src rest)
    | [] => false
  | none => false

/-- A declared type as written. -/
abbrev TypeSpec := String × TypeShape

/-- Reads the shape of a declared type. -/
def readShape (src : Contents) (ts : List Token) : Option (Parsed TypeShape) :=
  match significant ts with
  | [] => none
  | t :: rest =>
    if t.isSymbol "=" then
      (readType src rest).map fun p => ⟨.synonym p.value, p.last, p.rest⟩
    else if t.isWord "struct" then
      match significant rest with
      | brace :: inner =>
        if brace.isSymbol "\x7b" then
          (balanced 1 inner).map fun (inside, close, behind) =>
            ⟨.struct (readFields src inside), close.span, behind⟩
        else none
      | [] => none
    else if t.isWord "interface" then
      (readType src (t :: rest)).map fun p => ⟨.interface, p.last, p.rest⟩
    else (readType src (t :: rest)).map fun p => ⟨.named p.value, p.last, p.rest⟩

/-- Reads a specification of a type. -/
def readTypeSpec (src : Contents) (ts : List Token) : Option (Parsed (TypeSpec × Span)) :=
  match ts with
  | [] => none
  | name :: rest =>
    if name.kind != .word then none
    else do
      let behind ← match significant rest with
        | bracket :: inner =>
          if bracket.isSymbol "[" && holdsTypeParams src inner then
            (balanced 1 inner).map fun (_, _, behind) => behind
          else some rest
        | [] => none
      let p ← readShape src behind
      some ⟨((name.lexeme, p.value), name.span.through p.last), p.last, p.rest⟩

/-- The tokens of the expressions that follow, up to the line end, semicolon or closing bracket
that ends them; `depth` counts the open brackets, and `complete` tells whether an operand came
last. -/
def expressionTokens : Nat → Bool → List Token → List Token × List Token
  | _, _, [] => ([], [])
  | depth, complete, t :: rest =>
    if depth = 0 && ((t.kind == .newline && complete) || t.isSymbol ";" || t.closes) then
      ([], t :: rest)
    else
      let depth := if t.opens then depth + 1 else if t.closes then depth - 1 else depth
      let complete := if t.isTrivia then complete else t.endsOperand
      let (taken, behind) := expressionTokens depth complete rest
      (t :: taken, behind)

/-- The comments at the end of a list of tokens, and the tokens before them. -/
def splitTrailing (ts : List Token) : List Token × List Token :=
  let comments := ts.reverse.takeWhile Token.isTrivia
  (ts.take (ts.length - comments.length), comments.reverse)

/-- The texts of the members of a list of expressions: the expression of an item, and the comments
before and behind it. -/
def itemTexts (src : Contents) (item : List Token) : List String :=
  let comments := fun (ts : List Token) =>
    (ts.filter Token.isComment).map (·.lexeme)
  match coreSpan? item with
  | none => comments item
  | some span =>
    comments (item.takeWhile Token.isTrivia) ++ [src.text span] ++
      comments (splitTrailing item).2

/-- Reads the values of a specification of constants behind the equals sign: their texts, the last
token, and the tokens behind. -/
def readValues (src : Contents) (ts : List Token) : Option (Parsed (List String)) :=
  let (taken, behind) := expressionTokens 0 false (significant ts)
  let (core, trailing) := splitTrailing taken
  match core.getLast? with
  | none => none
  | some last =>
    some ⟨(splitExpressions 0 [] core).flatMap (itemTexts src), last.span, trailing ++ behind⟩

/-- The texts of names with the commas between them. -/
def withCommas : List String → List String
  | [] => []
  | [name] => [name]
  | name :: rest => name :: "," :: withCommas rest

/-- Reads a specification of constants. -/
def readConstSpec (src : Contents) (ts : List Token) : Option (Parsed (ConstSpec × Span)) :=
  match ts with
  | [] => none
  | first :: rest =>
    if first.kind != .word then none
    else
      let (more, behind) := moreNames rest.length rest
      let names := withCommas (first.lexeme :: more.map (·.lexeme))
      let lastName := (more.getLast?.map (·.span)).getD first.span
      let finish := fun (type : Option TypeExpr) (ts : List Token) => do
        let p ← readValues src ts
        some (⟨(⟨names, type, p.value⟩, first.span.through p.last), p.last, p.rest⟩ :
          Parsed (ConstSpec × Span))
      let alone : Parsed (ConstSpec × Span) :=
        ⟨(⟨names, none, []⟩, first.span.through lastName), lastName, behind⟩
      match behindComments behind with
      | [] => some alone
      | t :: values =>
        if t.kind == .newline || t.isSymbol ";" || t.isSymbol ")" then some alone
        else if t.isSymbol "=" then finish none values
        else do
          let p ← readType src (t :: values)
          match significant p.rest with
          | eq :: values => if eq.isSymbol "=" then finish (some p.value) values else none
          | [] => none

/-- The specifications of a declaration behind its keyword: a group in parentheses, or one alone.
Comments behind the keyword stand among them. -/
def readSpecs {α : Type} (spec? : List Token → Option (Parsed (α × Span))) (ts : List Token) :
    Option (Parsed (List (Sibling α))) :=
  let comments := ((ts.takeWhile Token.isTrivia).filter Token.isComment).map fun t =>
    Sibling.comment t.lexeme t.span
  match significant ts with
  | [] => none
  | t :: rest =>
    if t.isSymbol "(" then
      (balanced 1 rest).map fun (inside, close, behind) =>
        ⟨comments ++ readGroup spec? inside, close.span, behind⟩
    else
      (spec? (t :: rest)).map fun p =>
        ⟨comments ++ [.node p.value.1 p.value.2], p.last, p.rest⟩

/-- Reads an import. -/
def readImport (ts : List Token) : Option (Parsed (Import × Span)) :=
  let finish := fun (first : Span) (name : Option String) (kind : ImportKind)
      (path : Token) (rest : List Token) =>
    let span := first.through path.span
    let text := Text.trimMatching (fun c => c == '"' || c == '\x60') path.lexeme
    (⟨(⟨text, name, kind, span⟩, span), path.span, rest⟩ : Parsed (Import × Span))
  match ts with
  | [] => none
  | t :: rest =>
    if t.isString then some (finish t.span none .plain t rest)
    else
      match significant rest with
      | path :: behind =>
        if !path.isString then none
        else if t.isSymbol "." then some (finish t.span none .dot path behind)
        else if t.isWord "_" then some (finish t.span none .blank path behind)
        else if t.kind == .word then some (finish t.span (some t.lexeme) .renamed path behind)
        else none
      | [] => none

/-- The name of the type that the methods of a receiver belong to, and whether the receiver is a
pointer. Instances of generic types belong to the name before their brackets. -/
def receiverOf : TypeExpr → String × Bool
  | .pointer elem => (receiverName elem, true)
  | e => (receiverName e, false)
where
  /-- The name of a receiver type. -/
  receiverName : TypeExpr → String
    | .named _ name => name
    | .pointer elem => receiverName elem
    | e => Text.before e.render '['

/-- Whether a parameter takes any number of values; such a parameter is no receiver. -/
def isVariadic (src : Contents) (p : ParamDecl) : Bool :=
  match p.name, p.type with
  | none, .slice _ => Text.beginsWith "..." (src.text p.span)
  | _, _ => false

/-- The results that may follow the parameters of a method. -/
def readResults (src : Contents) (last : Span) (ts : List Token) :
    Option (Parsed (List ParamDecl)) :=
  match behindComments ts with
  | [] => some ⟨[], last, ts⟩
  | t :: rest =>
    if t.isSymbol "(" then readParams src rest
    else if beginsType t then
      (readType src (t :: rest)).map fun p =>
        ⟨[⟨none, p.value, t.span.through p.last⟩], p.last, p.rest⟩
    else some ⟨[], last, ts⟩

/-- The body that may follow the signature of a method. -/
def skipBody (last : Span) (ts : List Token) : Option (Span × List Token) :=
  match behindComments ts with
  | t :: rest =>
    if t.isSymbol "\x7b" then (balanced 1 rest).map fun (_, close, behind) => (close.span, behind)
    else some (last, ts)
  | [] => some (last, ts)

/-- Reads a method behind its keyword, whose span is `first`. Without a receiver there is no
method to declare. -/
def readMethod (src : Contents) (first : Span) (ts : List Token) :
    Option (Parsed (Option MethodDecl)) :=
  match significant ts with
  | paren :: rest =>
    if !paren.isSymbol "(" then none
    else do
      let receivers ← readParams src rest
      match significant receivers.rest with
      | name :: behind =>
        if name.kind != .word then none
        else
          match significant behind with
          | opening :: behind =>
            if !opening.isSymbol "(" then none
            else do
              let params ← readParams src behind
              let results ← readResults src params.last params.rest
              let (last, behind) ← skipBody results.last results.rest
              let method := (receivers.value.find? (!isVariadic src ·)).map fun r =>
                let (receiver, pointer) := receiverOf r.type
                { name := name.lexeme, receiver := receiver, pointerReceiver := pointer
                  params := params.value, results := results.value, doc := {}
                  span := first.through last }
              some ⟨method, last, behind⟩
          | [] => none
      | [] => none
  | [] => none

/-- A declaration of a file. -/
inductive TopLevel where
  | package (name : String)
  | imports (specs : List Import)
  | types (specs : List (Sibling TypeSpec))
  | method (m : Option MethodDecl)
  | consts (specs : List (Sibling ConstSpec))
  /-- Anything else. -/
  | other

/-- The members of a group without the comments between them. -/
def nodesOf {α : Type} (siblings : List (Sibling α)) : List α :=
  siblings.filterMap fun s =>
    match s with
    | .node content _ => some content
    | .comment _ _ => none

/-- Reads a declaration of one of the sorts that matter. -/
def readTopLevel (src : Contents) (ts : List Token) : Option (Parsed TopLevel) :=
  match ts with
  | [] => none
  | t :: rest =>
    if t.isWord "package" then
      match significant rest with
      | name :: behind =>
        if name.kind == .word then some ⟨.package name.lexeme, name.span, behind⟩ else none
      | [] => none
    else if t.isWord "import" then
      (readSpecs readImport rest).map fun p => ⟨.imports (nodesOf p.value), p.last, p.rest⟩
    else if t.isWord "type" then
      (readSpecs (readTypeSpec src) rest).map fun p => ⟨.types p.value, p.last, p.rest⟩
    else if t.isWord "const" then
      (readSpecs (readConstSpec src) rest).map fun p => ⟨.consts p.value, p.last, p.rest⟩
    else if t.isWord "func" then
      (readMethod src t.span rest).map fun p => ⟨.method p.value, p.last, p.rest⟩
    else none

/-- Passes over a statement of any other sort: up to a line end behind an operand, or a semicolon,
outside of brackets. -/
def skipStatement (ts : List Token) : Option (Parsed TopLevel) :=
  match ts with
  | [] => none
  | t :: _ =>
    let (taken, behind) := expressionTokens 0 false ts
    let (core, trailing) := splitTrailing taken
    match core.getLast? with
    | some last => some ⟨.other, last.span, trailing ++ behind⟩
    | none => some ⟨.other, t.span, ts.tail⟩

/-- Reads the declarations of a file with the comments between them; `fuel` is at least the number
of tokens. -/
def topLevelsFrom (src : Contents) : Nat → List Token → List (Sibling TopLevel)
  | 0, _ => []
  | _ + 1, [] => []
  | fuel + 1, t :: rest =>
    if t.kind == .newline || t.isSymbol ";" then topLevelsFrom src fuel rest
    else if t.isComment then .comment t.lexeme t.span :: topLevelsFrom src fuel rest
    else
      match (readTopLevel src (t :: rest)).orElse fun _ => skipStatement (t :: rest) with
      | some p => .node p.value (t.span.through p.last) :: topLevelsFrom src fuel p.rest
      | none => topLevelsFrom src fuel rest

/-- Whether every bracket of a file is closed; `depth` counts the open ones. -/
def isClosed : Nat → List Token → Bool
  | depth, [] => depth == 0
  | depth, t :: rest =>
    if t.opens then isClosed (depth + 1) rest
    else if t.closes then isClosed (depth - 1) rest
    else isClosed depth rest

end RouteAtlas.Source
