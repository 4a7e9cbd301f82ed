import RouteAtlas.Json.Value

/-!
# Spans of source text

A span is a half-open interval of bytes together with the lines and columns of its ends. Lines and
columns count from one, and columns count bytes.
-/

set_option autoImplicit false

namespace RouteAtlas

/-- A stretch of source text. -/
structure Span where
  /-- Offset of the first byte. -/
  startByte : Nat := 0
  /-- Offset behind the last byte. -/
  endByte : Nat := 0
  startLine : Nat := 0
  startCol : Nat := 0
  endLine : Nat := 0
  endCol : Nat := 0
  deriving DecidableEq, Repr, Inhabited

namespace Span

/-- The span of `len` bytes that begins `offset` bytes into this one, on its first line. -/
def sub (span : Span) (offset len : Nat) : Span where
  startByte := span.startByte + offset
  endByte := span.startByte + offset + len
  startLine := span.startLine
  startCol := span.startCol + offset
  endLine := span.startLine
  endCol := span.startCol + offset + len

/-- Whether the bytes of another span all lie in this one. -/
def contains (span other : Span) : Bool :=
  span.startByte ≤ other.startByte && other.endByte ≤ span.endByte

/-- The span from the start of this one to the end of another. -/
def through (span last : Span) : Span where
  startByte := span.startByte
  endByte := last.endByte
  startLine := span.startLine
  startCol := span.startCol
  endLine := last.endLine
  endCol := last.endCol

/-- Where the span begins, as line and column. -/
def render (span : Span) : String :=
  toString span.startLine ++ ":" ++ toString span.startCol

def toJson (span : Span) : Json :=
  .object
    [("start_byte", .nat span.startByte), ("end_byte", .nat span.endByte),
     ("start_line", .nat span.startLine), ("start_col", .nat span.startCol),
     ("end_line", .nat span.endLine), ("end_col", .nat span.endCol)]

end Span

end RouteAtlas
