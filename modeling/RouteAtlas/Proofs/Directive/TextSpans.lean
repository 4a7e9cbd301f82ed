import RouteAtlas.Proofs.Directive.Fates
import RouteAtlas.Proofs.Directive.Spans
import RouteAtlas.Proofs.Text.LineEnds

/-!
# Spans in a text without comment marks

The lines of a text are numbered and measured as if each of them ended with a line feed alone. So
the lines and columns of what is read from a text are right, and its bytes lag behind by the number
of lines before it that end with a carriage return and a line feed (`textSpans_exact`). They are
right as well exactly if there is no such line.
-/

set_option autoImplicit false

namespace RouteAtlas

open Source

namespace Source.Place

/-- Bytes lead as many rows on as there are line feeds among them. -/
theorem row_advance (p : Place) (bytes : List UInt8) :
    (p.advance bytes).row = p.row + bytes.count 10 := by
  induction bytes generalizing p with
  | nil => rfl
  | cons b bytes ih =>
    have hstep : p.advance (b :: bytes) = (p.advance [b]).advance bytes := rfl
    rw [hstep, ih, List.count_cons]
    by_cases hb : b = 10
    · have hone : (p.advance [b]).row = p.row + 1 := by simp [advance, hb]
      rw [hone, if_pos (beq_iff_eq.2 hb)]
      omega
    · have hone : (p.advance [b]).row = p.row := by simp [advance, hb]
      rw [hone, if_neg (by simpa using hb)]
      omega

/-- Only no bytes at all lead to the same row and column. -/
theorem eq_nil_of_advance {p : Place} {bytes : List UInt8}
    (hrow : (p.advance bytes).row = p.row) (hcolumn : (p.advance bytes).column = p.column) :
    bytes = [] := by
  rw [row_advance] at hrow
  have hnone : 10 ∉ bytes := List.count_eq_zero.1 (by omega)
  rw [advance_of_notMem hnone] at hcolumn
  exact List.eq_nil_of_length_eq_zero (by dsimp only at hcolumn; omega)

/-- A line feed leads to the start of the next row. -/
theorem advance_feed {bytes : List UInt8} (h : 10 ∉ bytes) (p : Place) :
    p.advance (bytes ++ [10]) = ⟨p.byte + bytes.length + 1, p.row + 1, 0⟩ := by
  rw [advance_append, advance_of_notMem h]
  rfl

end Source.Place

namespace Span

/-- The span that begins and ends some bytes later, on the same lines and columns. -/
def later (span : Span) (n : Nat) : Span :=
  { span with startByte := span.startByte + n, endByte := span.endByte + n }

/-- A part of a span moves as the span does. -/
theorem later_sub (span : Span) (offset len n : Nat) :
    (span.sub offset len).later n = (span.later n).sub offset len := by
  simp only [later, sub, Span.mk.injEq, and_true]
  omega

variable {bytes : List UInt8} {span : Span} {cs : List Char}

/-- Of the spans on the same lines and columns only one can mark a text. -/
theorem marks_iff_of_later {n : Nat} (h : (span.later n).Marks bytes cs) :
    span.Marks bytes cs ↔ n = 0 := by
  constructor
  · intro hspan
    -- The bytes between the two starts would lead to the row and the column they begin at.
    have hplace : placeAt bytes (span.startByte + n) =
        (placeAt bytes span.startByte).advance ((bytes.drop span.startByte).take n) := by
      rw [placeAt, List.take_add, Place.advance_append]
      rfl
    have hrow : (placeAt bytes (span.startByte + n)).row = (placeAt bytes span.startByte).row := by
      have hlater := congrArg Span.startLine h.places
      have hnow := congrArg Span.startLine hspan.places
      exact Nat.succ.inj (hlater.symm.trans hnow)
    have hcolumn : (placeAt bytes (span.startByte + n)).column =
        (placeAt bytes span.startByte).column := by
      have hlater := congrArg Span.startCol h.places
      have hnow := congrArg Span.startCol hspan.places
      exact Nat.succ.inj (hlater.symm.trans hnow)
    rw [hplace] at hrow hcolumn
    have hlength := congrArg List.length (Place.eq_nil_of_advance hrow hcolumn)
    rw [List.length_take, List.length_drop, List.length_nil] at hlength
    have hle : span.startByte + n ≤ span.endByte + n := h.le
    have hbound : span.endByte + n ≤ bytes.length := h.bound
    omega
  · rintro rfl
    exact h

end Span

/-! ## The lines of a text -/

/-- The lines read so far take up `front`, and the next one is taken to begin at `offset`, in a row
of which it is the start. -/
structure LineStart (front : List Char) (offset row : Nat) : Prop where
  place : Place.advance ⟨0, 0, 0⟩ (Text.encoded front) = ⟨Text.byteCount front, row, 0⟩
  offset : offset + Text.countReturns front = Text.byteCount front
  begins : front = [] ∨ front.getLast? = some '\n'

/-- The carriage return that ends a line is what its own bytes and the line feed do not count. -/
theorem LineStart.next {front piece : List Char} {offset row : Nat}
    (h : LineStart front offset row) (hpiece : '\n' ∉ piece) :
    LineStart (front ++ (piece ++ ['\n']))
      (offset + Text.byteCount (Text.dropReturn piece) + 1) (row + 1) := by
  have hfeed : Text.encoded (piece ++ ['\n']) = Text.encoded piece ++ [10] :=
    Text.encoded_append piece ['\n']
  have hcount : Text.byteCount (front ++ (piece ++ ['\n'])) =
      Text.byteCount front + Text.byteCount piece + 1 := by
    rw [Text.byteCount_append, Text.byteCount_append, ← Nat.add_assoc]
    rfl
  refine ⟨?_, ?_, .inr (by simp)⟩
  · rw [Text.encoded_append, Place.advance_append, h.place, hfeed,
      Place.advance_feed (Text.ten_notMem_encoded hpiece), Text.length_encoded, hcount]
  · have hreturns : Text.countReturns (front ++ (piece ++ ['\n'])) =
        Text.countReturns front + Text.countReturns (piece ++ ['\n']) := by
      refine Text.countReturns_append fun hboth => ?_
      rcases h.begins with rfl | hlast
      · cases hboth.1
      · rw [hlast] at hboth
        exact absurd hboth.1 (by decide)
    have hline := Text.byteCount_dropReturn hpiece
    have hoffset := h.offset
    rw [hreturns, hcount]
    omega

/-- A line of a text behind some others, and its span, which is that of the line but for its bytes:
they are counted as if every line before it ended with a line feed alone. -/
structure CommentLine.Lags (s : String) (front : List Char) (line : CommentLine) : Prop where
  isLine : Text.IsLine s.toList front line.text.toList
  begins : line.span.startByte + Text.countReturns front = Text.byteCount front
  marks : (line.span.later (Text.countReturns front)).Marks (Text.encoded s.toList)
    line.text.toList

/-- The next line lags by the line breaks of two characters before it. -/
theorem LineStart.lags {front line : List Char} {offset row : Nat} {s : String}
    (h : LineStart front offset row) (ending rest : List Char)
    (hs : s.toList = front ++ line ++ ending ++ rest) (hline : '\n' ∉ line)
    (hending : ending = [] ∧ rest = [] ∨ ending = ['\r', '\n'] ∨
      ending = ['\n'] ∧ line.getLast? ≠ some '\r') :
    CommentLine.Lags s front
      ⟨String.ofList line, offset, offset + Text.byteCount line, row + 1, 1, row + 1,
        Text.byteCount line + 1⟩ := by
  have hbehind : Place.advance ⟨0, 0, 0⟩ (Text.encoded front ++ Text.encoded line) =
      ⟨Text.byteCount front + Text.byteCount line, row, Text.byteCount line⟩ := by
    rw [Place.advance_append, h.place, Place.advance_of_notMem (Text.ten_notMem_encoded hline),
      Text.length_encoded, Nat.zero_add]
  have hoffset := h.offset
  refine ⟨⟨h.begins, ?_, ending, rest, ?_, ?_⟩, hoffset, Span.marks_iff.2
    ⟨Text.encoded front, Text.encoded (ending ++ rest), ?_, ?_⟩⟩
  · rwa [String.toList_ofList]
  · rw [hs, String.toList_ofList]
  · rwa [String.toList_ofList]
  · rw [hs, String.toList_ofList, List.append_assoc _ ending, Text.encoded_append,
      Text.encoded_append]
  · rw [String.toList_ofList, hbehind, h.place]
    simp only [Span.later, Place.spanTo, Span.mk.injEq, Nat.zero_add, and_true]
    omega

/-- The bytes of a text are those of its characters. -/
theorem Text.utf8ByteSize_ofList (cs : List Char) :
    (String.ofList cs).utf8ByteSize = Text.byteCount cs := by
  rw [String.utf8ByteSize_ofList]
  induction cs with
  | nil => rfl
  | cons c cs ih =>
    rw [String.utf8Len_cons, ih]
    exact Nat.add_comm _ _

/-- The line behind the first is taken to begin one byte behind its end. -/
theorem DocComment.linesFrom_cons (offset row : Nat) (cs : List Char) (rest : List String) :
    linesFrom offset row (String.ofList cs :: rest) =
      ⟨String.ofList cs, offset, offset + Text.byteCount cs, row, 1, row,
        Text.byteCount cs + 1⟩ :: linesFrom (offset + Text.byteCount cs + 1) (row + 1) rest := by
  rw [linesFrom, Text.utf8ByteSize_ofList]

/-- The lines of what is left of a text lag behind, each by the carriage returns before it. -/
theorem LineStart.exists_lags {s : String} {front rest : List Char} {offset row : Nat}
    (h : LineStart front offset row) (hs : s.toList = front ++ rest) {line : CommentLine}
    (hline : line ∈ DocComment.linesFrom offset (row + 1)
      ((Text.lineChars rest).map String.ofList)) : ∃ before, line.Lags s before := by
  induction rest using Text.lines_induction generalizing front offset row with
  | last cs hcs =>
    rw [Text.lineChars_of_notMem hcs] at hline
    split at hline
    · cases hline
    · rw [List.map_singleton, DocComment.linesFrom_cons, DocComment.linesFrom,
        List.mem_singleton] at hline
      rw [hline]
      exact ⟨front, h.lags [] [] (by simp [hs]) hcs (.inl ⟨rfl, rfl⟩)⟩
  | more piece rest hpiece ih =>
    rw [Text.lineChars_append_cons hpiece, List.map_cons, DocComment.linesFrom_cons,
      List.mem_cons] at hline
    rcases hline with rfl | hline
    · refine ⟨front, ?_⟩
      rcases Text.dropReturn_cases piece with ⟨hlast, heq⟩ | heq
      · rw [heq]
        exact h.lags ['\n'] rest (by simp [hs]) hpiece (.inr (.inr ⟨rfl, hlast⟩))
      · refine h.lags ['\r', '\n'] rest ?_ (fun hmem => ?_) (.inr (.inl rfl))
        · rw [hs]
          conv_lhs => rw [heq]
          simp
        · rw [heq] at hpiece
          exact hpiece (List.mem_append_left _ hmem)
    · refine ih (h.next hpiece) ?_ hline
      simp [hs]

/-- Every line of a text lags behind some others. -/
theorem DocComment.exists_lags {s : String} {line : CommentLine}
    (h : line ∈ (DocComment.ofText s).lines) : ∃ front, line.Lags s front := by
  have hstart : LineStart [] 0 0 := ⟨rfl, rfl, .inl rfl⟩
  exact hstart.exists_lags rfl h

/-! ## What is read from a text -/

namespace CommentLine

/-- A span points at a line of a text behind some others, the blanks around the line aside, but for
the bytes: they are counted as if every line before it ended with a line feed alone. So the span is
right if and only if no line before it ends with a carriage return as well. -/
structure LaggingSpan (s : String) (front : List Char) (line : CommentLine) (span : Span) :
    Prop where
  begins : span.startByte + Text.countReturns front =
    Text.byteCount (front ++ line.text.toList.takeWhile Text.isBlank)
  marks : (span.later (Text.countReturns front)).Marks (Text.encoded s.toList)
    (Text.trimChars line.text.toList)
  exact : span.Marks (Text.encoded s.toList) (Text.trimChars line.text.toList) ↔
    ¬ ['\r', '\n'] <:+: front

/-- A line that lags has a span that does. -/
theorem Lags.laggingSpan {s : String} {front : List Char} {line : CommentLine}
    (h : line.Lags s front) : line.LaggingSpan s front line.place := by
  have hmarks : (line.place.later (Text.countReturns front)).Marks (Text.encoded s.toList)
      (Text.trimChars line.text.toList) := by
    rw [place, Span.later_sub]
    exact (h.marks.trimmed h.isLine.single).1
  refine ⟨?_, hmarks, ?_⟩
  · have hbegins := h.begins
    rw [Text.byteCount_append]
    show line.span.startByte + _ + _ = _
    omega
  · rw [Span.marks_iff_of_later hmarks, Text.countReturns_eq_zero_iff]

/-- A diagnostic about a line has the place of the line. -/
theorem Faulty.span_eq {line : CommentLine} {d : Diagnostic} (h : line.Faulty d) :
    d.span = line.place := by
  rcases h with ⟨m, hread, rfl⟩ | ⟨a, hread, rfl⟩
  · exact (line.placed.issue m hread).2
  · exact line.placed.directive a hread

end CommentLine

namespace DirectiveSet

/-- The directives and the findings of a text point at the trimmed lines they come from, with their
lines and columns, and with their bytes exactly if no line before them ends with a carriage return
and a line feed; each such line makes the bytes one too few. -/
theorem textSpans_exact (s : String) :
    (∀ a ∈ (ofText s).directives, ∃ front, ∃ line ∈ (DocComment.ofText s).lines,
      Text.IsLine s.toList front line.text.toList ∧ line.read = .ok a ∧
        line.LaggingSpan s front a.span) ∧
    ∀ d ∈ (ofText s).issues, ∃ front, ∃ line ∈ (DocComment.ofText s).lines,
      Text.IsLine s.toList front line.text.toList ∧ line.Faulty d ∧
        line.LaggingSpan s front d.span := by
  have hread := readFrom_ofDoc (DocComment.ofText s)
  constructor
  · intro a ha
    obtain ⟨line, hmem, hok⟩ := hread.directives a ha
    have hline := List.mem_of_mem_filter hmem
    obtain ⟨front, hlags⟩ := DocComment.exists_lags hline
    refine ⟨front, line, hline, hlags.isLine, hok, ?_⟩
    rw [line.placed.directive a hok]
    exact hlags.laggingSpan
  · intro d hd
    obtain ⟨line, hmem, hfault⟩ := hread.issues d hd
    have hline := List.mem_of_mem_filter hmem
    obtain ⟨front, hlags⟩ := DocComment.exists_lags hline
    refine ⟨front, line, hline, hlags.isLine, hfault, ?_⟩
    rw [hfault.span_eq]
    exact hlags.laggingSpan

/-- A text whose lines end in both ways. -/
def mixedEnds : String := "Lists orders.\n@Tag(orders)\r\n\t@Query(größe) x\r\n@Method"

/-- The span of the second directive lags one byte behind in `mixedEnds`, and that of the finding
two. -/
theorem textSpans_exact_mixedEnds :
    (∃ a ∈ (ofText mixedEnds).directives, a.value = some "größe" ∧ a.span.startByte = 28 ∧
      ∃ front, ∃ line ∈ (DocComment.ofText mixedEnds).lines,
        Text.IsLine mixedEnds.toList front line.text.toList ∧ line.read = .ok a ∧
          line.LaggingSpan mixedEnds front a.span) ∧
    ∃ d ∈ (ofText mixedEnds).issues, d.span.startByte = 46 ∧
      ∃ front, ∃ line ∈ (DocComment.ofText mixedEnds).lines,
        Text.IsLine mixedEnds.toList front line.text.toList ∧ line.Faulty d ∧
          line.LaggingSpan mixedEnds front d.span := by
  have hdirective : ∃ a ∈ (ofText mixedEnds).directives, a.value = some "größe" ∧
      a.span.startByte = 28 := by
    decide +kernel
  have hissue : ∃ d ∈ (ofText mixedEnds).issues, d.span.startByte = 46 := by
    decide +kernel
  obtain ⟨a, ha, hvalue, hstart⟩ := hdirective
  obtain ⟨d, hd, hplace⟩ := hissue
  exact ⟨⟨a, ha, hvalue, hstart, (textSpans_exact mixedEnds).1 a ha⟩,
    d, hd, hplace, (textSpans_exact mixedEnds).2 d hd⟩

/-- The bytes at the spans of `mixedEnds` are those of the trimmed line only before the first
carriage return. -/
theorem textSpans_shifted :
    (DocComment.ofText mixedEnds).lines.map (fun line => Text.trim line.text) =
      ["Lists orders.", "@Tag(orders)", "@Query(größe) x", "@Method"] ∧
    ((ofText mixedEnds).directives.map fun a =>
      ((Text.encoded mixedEnds.toList).take a.span.endByte).drop a.span.startByte) =
      ["@Tag(orders)", "\t@Query(größe) "].map (fun text => Text.encoded text.toList) ∧
    ((ofText mixedEnds).issues.map fun d =>
      ((Text.encoded mixedEnds.toList).take d.span.endByte).drop d.span.startByte) =
      ["\r\n@Meth"].map (fun text => Text.encoded text.toList) := by
  decide +kernel

end DirectiveSet

end RouteAtlas
