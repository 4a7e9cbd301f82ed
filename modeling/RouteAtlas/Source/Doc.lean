import RouteAtlas.Comment

/-!
# Comments of declarations

A comment belongs to the declaration directly below it: the last line of the comment and the first
line of the declaration are neighbours. Comments on consecutive lines form one block. A comment on
the line where the declaration before it ends belongs to nothing, unless it goes on a block.
-/

set_option autoImplicit false

namespace RouteAtlas.Source

/-- A comment or a declaration, in the order of the source. -/
inductive Sibling (α : Type) where
  | comment (text : String) (span : Span)
  | node (content : α) (span : Span)

/-- A comment as it stands in the source. -/
abbrev Comment := String × Span

/-- The line of a comment that is introduced by two slashes: its text behind them and one blank,
without carriage returns at its end. Other comments have no line. -/
def docLine? (c : Comment) : Option CommentLine :=
  match c.1.toList with
  | '/' :: '/' :: body =>
    let (offset, text) := match body with
      | ' ' :: rest => (3, rest)
      | _ => (2, body)
    let text := Text.dropTrailing (· == '\r') text
    some ⟨String.ofList text, c.2.sub offset (Text.byteCount text)⟩
  | _ => none

def docOf (block : List Comment) : DocComment := ⟨block.filterMap docLine?⟩

/-- Whether the last comment of a block ends on the line just above the given one. -/
def isJustAbove (block : List Comment) (line : Nat) : Bool :=
  match block.getLast? with
  | some c => c.2.endLine + 1 == line
  | none => false

/-- Pairs every declaration with its doc comment. `block` is the block of comments read last, and
`lastLine` is the line where the declaration before it ends. -/
def withDocsFrom {α : Type} (block : List Comment) (lastLine : Option Nat) :
    List (Sibling α) → List (α × Span × DocComment)
  | [] => []
  | .comment text span :: rest =>
    if isJustAbove block span.startLine then
      withDocsFrom (block ++ [(text, span)]) lastLine rest
    else if lastLine != some span.startLine then withDocsFrom [(text, span)] lastLine rest
    else withDocsFrom block lastLine rest
  | .node content span :: rest =>
    (content, span, if isJustAbove block span.startLine then docOf block else {}) ::
      withDocsFrom [] (some span.endLine) rest

/-- Pairs every declaration with its doc comment. -/
def withDocs {α : Type} (siblings : List (Sibling α)) : List (α × Span × DocComment) :=
  withDocsFrom [] none siblings

/-- The specifications of one declaration, in which the comment above the declaration goes to a
specification that is alone and has no comment of its own. -/
def withSharedDoc {α : Type} (doc : DocComment) (siblings : List (Sibling α)) :
    List (α × Span × DocComment) :=
  match withDocs siblings with
  | [(content, span, own)] => [(content, span, if own.isEmpty then doc else own)]
  | specs => specs

end RouteAtlas.Source
