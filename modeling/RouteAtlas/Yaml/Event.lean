import RouteAtlas.Yaml.Token

/-!
# Events of a YAML document

A document is told as events: its scalars in order, and where its sequences and mappings begin and
end. A text that is wrong somewhere still has the events before that place, so what is read from
them first is reported first.
-/

set_option autoImplicit false

namespace RouteAtlas.Yaml

/-- What happens in a document. -/
inductive EventKind where
  | scalar (text : String) (style : ScalarStyle) (tag : Option String)
  | sequenceStart
  | sequenceEnd
  | mappingStart
  | mappingEnd
  /-- A reference to an anchor, by its number. -/
  | reference (anchor : Nat)
  deriving DecidableEq, Repr

/-- Something that happens in a document, and where. -/
structure Event where
  kind : EventKind
  mark : Mark
  deriving DecidableEq, Repr

/-- What is left to read of a document, and what has been read. -/
structure EventState where
  tokens : List Token
  /-- What is wrong where the tokens end. -/
  ending : SyntaxError
  /-- What the handles of tags stand for. -/
  handles : List (String × String) := []
  /-- The anchors by name. -/
  names : List (String × Nat) := []
  /-- How many events come before the one of an anchor. -/
  anchors : List (Nat × Nat) := []
  /-- The events, last first. -/
  events : List Event := []

/-- Reading events; those read before an error are kept. -/
abbrev Reading := ExceptT SyntaxError (StateM EventState)

namespace Reading

/-- The next token. -/
def peek : Reading Token := do
  let s ← get
  match s.tokens with
  | t :: _ => return t
  | [] => throw s.ending

/-- Passes over the next token. -/
def advance : Reading Unit := modify fun s => { s with tokens := s.tokens.tail }

/-- Adds an event. -/
def emit (kind : EventKind) (mark : Mark) : Reading Unit :=
  modify fun s => { s with events := ⟨kind, mark⟩ :: s.events }

/-- Adds the event of a scalar that is not written. -/
def emitNothing (mark : Mark) : Reading Unit := emit (.scalar "" .plain none) mark

/-- Lets a name stand for the event that comes next. An anchor is numbered by how many names there
are, and the last event of a number is the one that counts. -/
def setAnchor (name : String) : Reading Unit :=
  modify fun s =>
    { s with
      names := (name, s.names.length) :: s.names.filter (·.1 != name)
      anchors := (s.names.length, s.events.length) :: s.anchors }

/-- What comes before the contents of a node. -/
structure Lead where
  start : Mark
  anchor : Option String := none
  /-- The handle and the rest of a tag, and its place. -/
  tag : Option (String × String × Mark) := none

/-- Reads an anchor and a tag in either order. -/
def readLead : Reading Lead := do
  let first ← peek
  match first.kind with
  | .anchor name =>
    advance
    let second ← peek
    match second.kind with
    | .tag handle suffix =>
      advance
      return ⟨first.start, some name, some (handle, suffix, second.start)⟩
    | _ => return ⟨first.start, some name, none⟩
  | .tag handle suffix =>
    advance
    let second ← peek
    match second.kind with
    | .anchor name =>
      advance
      return ⟨first.start, some name, some (handle, suffix, first.start)⟩
    | _ => return ⟨first.start, none, some (handle, suffix, first.start)⟩
  | _ => return ⟨first.start, none, none⟩

def fullTag (lead : Lead) : Reading (Option String) := do
  match lead.tag with
  | none => return none
  | some (handle, suffix, mark) =>
    if handle = "" then return some suffix
    match (← get).handles.lookup handle with
    | some start => return some (start ++ suffix)
    | none => throw (.at .undefinedHandle mark (some (.node, lead.start)))

/-- Whether a token follows an entry, a key or a colon that has nothing behind it. -/
def endsItem (kinds : List TokenKind) (t : Token) : Bool := kinds.contains t.kind

mutual

/-- Reads a node. Blocks are allowed where `block` says so, and entries that are not indented where
`indentless` does. -/
def node : Nat → Bool → Bool → Reading Unit
  | 0, _, _ => throw (.at .noContent {} none)
  | fuel + 1, block, indentless => do
    let first ← peek
    if let .reference name := first.kind then
      match (← get).names.lookup name with
      | none => throw (.unknownAnchor first.start)
      | some anchor =>
        advance
        emit (.reference anchor) first.start
    else
      let lead ← readLead
      let t ← peek
      let tag ← fullTag lead
      let start := fun (kind : EventKind) => do
        lead.anchor.forM setAnchor
        emit kind lead.start
      let otherwise := fun (_ : Unit) =>
        if lead.anchor.isSome || tag.isSome then start (.scalar "" .plain tag)
        else throw (.at .noContent t.start (some (if block then .blockNode else .flowNode, lead.start)))
      match t.kind with
      | .scalar text style =>
        advance
        start (.scalar text style (if tag = some "!" then none else tag))
      | .flowSequenceStart =>
        advance
        start .sequenceStart
        flowItems fuel t.start true
      | .flowMappingStart =>
        advance
        start .mappingStart
        flowPairs fuel t.start true
      | .blockEntry =>
        if indentless then
          start .sequenceStart
          indentlessItems fuel
        else otherwise ()
      | .blockSequenceStart =>
        if block then
          advance
          start .sequenceStart
          blockItems fuel t.start
        else otherwise ()
      | .blockMappingStart =>
        if block then
          advance
          start .mappingStart
          blockPairs fuel t.start
        else otherwise ()
      | _ => otherwise ()

/-- Reads the entries of a block and its end. -/
def blockItems : Nat → Mark → Reading Unit
  | 0, _ => throw (.at .noContent {} none)
  | fuel + 1, start => do
    let t ← peek
    match t.kind with
    | .blockEntry =>
      advance
      if endsItem [.blockEntry, .blockEnd] (← peek) then emitNothing t.finish
      else node fuel true false
      blockItems fuel start
    | .blockEnd =>
      advance
      emit .sequenceEnd t.start
    | _ => throw (.at .noDash t.start (some (.blockCollection, start)))

/-- Reads entries that stand at the column of the key before them. -/
def indentlessItems : Nat → Reading Unit
  | 0 => throw (.at .noContent {} none)
  | fuel + 1 => do
    let t ← peek
    match t.kind with
    | .blockEntry =>
      advance
      if endsItem [.blockEntry, .key, .value, .blockEnd] (← peek) then emitNothing t.finish
      else node fuel true false
      indentlessItems fuel
    | _ => emit .sequenceEnd t.start

/-- Reads the keys and values of a block and its end. -/
def blockPairs : Nat → Mark → Reading Unit
  | 0, _ => throw (.at .noContent {} none)
  | fuel + 1, start => do
    let t ← peek
    match t.kind with
    | .key =>
      advance
      if endsItem [.key, .value, .blockEnd] (← peek) then emitNothing t.finish
      else node fuel true true
      blockValue fuel
      blockPairs fuel start
    | .blockEnd =>
      advance
      emit .mappingEnd t.start
    | _ => throw (.at .noKey t.start (some (.blockMapping, start)))

def blockValue : Nat → Reading Unit
  | 0 => throw (.at .noContent {} none)
  | fuel + 1 => do
    let t ← peek
    match t.kind with
    | .value =>
      advance
      if endsItem [.key, .value, .blockEnd] (← peek) then emitNothing t.finish
      else node fuel true true
    | _ => emitNothing t.start

/-- Reads the items up to a closing bracket. -/
def flowItems : Nat → Mark → Bool → Reading Unit
  | 0, _, _ => throw (.at .noContent {} none)
  | fuel + 1, start, isFirst => do
    let t ← peek
    if t.kind = .flowSequenceEnd then
      advance
      emit .sequenceEnd t.start
    else
      if !isFirst then
        if t.kind = .flowEntry then advance
        else throw (.at .noCommaOrBracket t.start (some (.flowSequence, start)))
      let t ← peek
      if t.kind = .key then
        advance
        emit .mappingStart t.start
        singlePair fuel
        flowItems fuel start false
      else if t.kind = .flowSequenceEnd then
        advance
        emit .sequenceEnd t.start
      else
        node fuel false false
        flowItems fuel start false

/-- Reads a key and its value where an item of a sequence is expected, up to their end. A key that
is not written takes the colon with it, so it has no value. -/
def singlePair : Nat → Reading Unit
  | 0 => throw (.at .noContent {} none)
  | fuel + 1 => do
    let t ← peek
    if endsItem [.value, .flowEntry, .flowSequenceEnd] t then
      advance
      emitNothing t.finish
    else node fuel false false
    flowValue fuel [.flowEntry, .flowSequenceEnd]
    let t ← peek
    emit .mappingEnd t.start

/-- Reads the value of a key inside brackets; `ends` are the tokens that tell that there is
none. -/
def flowValue : Nat → List TokenKind → Reading Unit
  | 0, _ => throw (.at .noContent {} none)
  | fuel + 1, ends => do
    let t ← peek
    if t.kind = .value then
      advance
      let next ← peek
      if endsItem ends next then emitNothing next.start else node fuel false false
    else emitNothing t.start

/-- Reads the keys and values up to a closing brace. -/
def flowPairs : Nat → Mark → Bool → Reading Unit
  | 0, _, _ => throw (.at .noContent {} none)
  | fuel + 1, start, isFirst => do
    let t ← peek
    if t.kind = .flowMappingEnd then
      advance
      emit .mappingEnd t.start
    else
      if !isFirst then
        if t.kind = .flowEntry then advance
        else throw (.at .noCommaOrBrace t.start (some (.flowMapping, start)))
      let t ← peek
      if t.kind = .key then
        advance
        let next ← peek
        if endsItem [.value, .flowEntry, .flowMappingEnd] next then emitNothing next.start
        else node fuel false false
        flowValue fuel [.flowEntry, .flowMappingEnd]
        flowPairs fuel start false
      else if t.kind = .flowMappingEnd then
        advance
        emit .mappingEnd t.start
      else
        node fuel false false
        let next ← peek
        emitNothing next.start
        flowPairs fuel start false

end

/-- The handles that tags can have without being declared. -/
def standardHandles : List (String × String) :=
  [("!", "!"), ("!!", "tag:yaml.org,2002:")]

/-- Reads the directives before a document. -/
def directives : Nat → Bool → Reading Unit
  | 0, _ => pure ()
  | fuel + 1, hasVersion => do
    let t ← peek
    match t.kind with
    | .version major minor =>
      if hasVersion then throw (.at .repeatedVersion t.start none)
      if major != 1 || (minor != 1 && minor != 2) then throw (.at .otherVersion t.start none)
      advance
      directives fuel true
    | .tagDirective handle start =>
      if ((← get).handles.lookup handle).isSome then throw (.at .repeatedTag t.start none)
      modify fun s => { s with handles := s.handles ++ [(handle, start)] }
      advance
      directives fuel hasVersion
    | _ => pure ()

/-- Reads the first document, unless the text holds none. -/
def document (fuel : Nat) : Reading Unit := do
  let t ← peek
  let isDirective := match t.kind with
    | .version _ _ => true
    | .tagDirective _ _ => true
    | _ => false
  if t.kind = .streamEnd then return
  let useStandard : Reading Unit :=
    modify fun s => { s with handles := s.handles ++ standardHandles }
  if isDirective || t.kind = .documentStart then
    directives fuel false
    useStandard
    let t ← peek
    if t.kind != .documentStart then throw (.at .noDocumentStart t.start none)
    advance
    let t ← peek
    match t.kind with
    | .version _ _ | .tagDirective _ _ | .documentStart | .documentEnd | .streamEnd =>
      emitNothing t.start
    | _ => node fuel true false
  else
    useStandard
    node fuel true false
  let t ← peek
  if t.kind = .documentEnd then advance

end Reading

/-- The first document of a text. -/
structure Document where
  /-- Its events, as far as they can be read. A text without a document has none. -/
  events : List Event
  /-- How many events come before the one of an anchor. -/
  anchors : List (Nat × Nat)
  /-- What is wrong behind the events. -/
  error : Option SyntaxError
  /-- Whether nothing comes behind the document. -/
  isLast : Bool

namespace Document

/-- The first document of a text. -/
def ofText (text : String) : Document :=
  let source := tokens text
  let state : EventState :=
    { tokens := source.tokens, ending := source.error.getD (.at .noContent {} none) }
  let (result, state) := ((Reading.document (4 * source.tokens.length + 4)).run).run state
  { events := state.events.reverse
    anchors := state.anchors
    error := match result with
      | .ok _ => none
      | .error e => some e
    isLast :=
      match state.tokens.dropWhile (·.kind == .documentEnd) with
      | t :: _ => t.kind == .streamEnd
      | [] => false }

def eventsAt (d : Document) (anchor : Nat) : List Event :=
  match d.anchors.lookup anchor with
  | some position => d.events.drop position
  | none => []

end Document

end RouteAtlas.Yaml
