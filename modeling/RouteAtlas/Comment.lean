import RouteAtlas.Span
import RouteAtlas.Text.Pieces

/-!
# Doc comments

The comment block directly above a declaration, line by line. Every line carries the place of its
text in the file, so that findings about a directive can point at it.
-/

set_option autoImplicit false

namespace RouteAtlas

/-- One line of a doc comment, without its comment mark. -/
structure CommentLine where
  text : String
  /-- Where `text` stands in the file. -/
  span : Span
  deriving DecidableEq, Repr, Inhabited

/-- The comment block of a declaration. -/
structure DocComment where
  lines : List CommentLine := []
  deriving DecidableEq, Repr, Inhabited

namespace DocComment

/-- Whether a declaration has no comment. -/
def isEmpty (doc : DocComment) : Bool := doc.lines.isEmpty

/-- The lines of the block, joined with line feeds. -/
def text (doc : DocComment) : String :=
  Text.join "\n" (doc.lines.map (·.text))

/-- The lines of a text from byte `offset` and row `row` on. Each line takes one byte more than
its own text, for the line feed that ends it. -/
def linesFrom (offset row : Nat) : List String → List CommentLine
  | [] => []
  | line :: rest =>
    { text := line
      span :=
        { startByte := offset, endByte := offset + line.utf8ByteSize
          startLine := row, startCol := 1
          endLine := row, endCol := line.utf8ByteSize + 1 } } ::
      linesFrom (offset + line.utf8ByteSize + 1) (row + 1) rest

/-- The block that a text without comment marks stands for; its spans count from the start of the
text. -/
def ofText (s : String) : DocComment :=
  ⟨linesFrom 0 1 (Text.lines s)⟩

end DocComment

end RouteAtlas
