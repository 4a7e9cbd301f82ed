import RouteAtlas.Proofs.Directive.Arguments
import RouteAtlas.Proofs.Directive.Tidy
import RouteAtlas.Proofs.Pairing
import RouteAtlas.Proofs.Source.Tokens

/-!
# Spans of comments and directives

Every span that comes out of a comment points at the bytes it names: the span of a line at the line,
the spans of a directive and of a finding at the trimmed line they come from, and the span of a
value at the argument, or from the first to the last argument of a list (`spans_point`). Each of
them is a part of the span it is taken from, as many bytes in as there are bytes before its text,
and all of them are on the line of the comment.
-/

set_option autoImplicit false

namespace RouteAtlas

namespace Span

/-- A span begins on the line of another and as many columns after it as bytes. -/
def InStep (span other : Span) : Prop :=
  span.startLine = other.startLine ∧
    (span.startCol : Int) - other.startCol = (span.startByte : Int) - other.startByte

/-- A part of a span is in step with it. -/
theorem inStep_sub (span : Span) (offset len : Nat) : (span.sub offset len).InStep span := by
  refine ⟨rfl, ?_⟩
  simp only [sub]
  omega

/-- Being in step can be passed on. -/
theorem InStep.trans {a b c : Span} (h : a.InStep b) (h' : b.InStep c) : a.InStep c := by
  refine ⟨h.1.trans h'.1, ?_⟩
  have hab := h.2
  have hbc := h'.2
  omega

/-- A span is as many bytes wide as its text. -/
theorem Marks.endByte_eq {bytes : List UInt8} {span : Span} {cs : List Char}
    (h : span.Marks bytes cs) : span.endByte = span.startByte + Text.byteCount cs := by
  have hlength := congrArg List.length h.text
  rw [Text.length_encoded, List.length_drop, List.length_take] at hlength
  have hle := h.le
  have hbound := h.bound
  omega

/-- The part of a span that is taken up by a part of its text is inside it. -/
theorem Marks.contains_sub {bytes : List UInt8} {span : Span} {cs : List Char}
    (h : span.Marks bytes cs) {offset len : Nat} (hlen : offset + len ≤ Text.byteCount cs) :
    span.contains (span.sub offset len) = true := by
  have hend := h.endByte_eq
  have hfirst : span.startByte ≤ (span.sub offset len).startByte := Nat.le_add_right _ _
  have hlast : (span.sub offset len).endByte ≤ span.endByte := by
    show span.startByte + offset + len ≤ span.endByte
    omega
  simp [contains, hfirst, hlast]

/-- The blanks around a line are taken from its span as they are from the line. -/
theorem Marks.trimmed {bytes : List UInt8} {span : Span} {cs : List Char} (h : span.Marks bytes cs)
    (hline : '\n' ∉ cs) :
    (span.sub (Text.byteCount (cs.takeWhile Text.isBlank))
      (Text.byteCount (Text.trimChars cs))).Marks bytes (Text.trimChars cs) ∧
    '\n' ∉ Text.trimChars cs := by
  obtain ⟨back, hback⟩ := Text.exists_append_trimChars cs
  rw [hback] at h hline
  have hfront := fun hmem => hline (List.mem_append_left back hmem)
  exact ⟨h.sub hfront, fun hmem => hfront (List.mem_append_right _ hmem)⟩

end Span

/-! ## Comments -/

/-- The line of a comment stands where its span says. -/
structure CommentLine.Stands (bytes : List UInt8) (c : Source.Comment) (line : CommentLine) :
    Prop where
  eq : Source.docLine? c = some line
  marks : line.span.Marks bytes line.text.toList
  inStep : line.span.InStep c.2
  line : '\n' ∉ line.text.toList

/-- A line that is taken from behind the front of a comment, up to the carriage returns at its end,
stands where it was taken from. -/
theorem CommentLine.Stands.of_append {bytes : List UInt8} {c : Source.Comment} (h : c.IsLine bytes)
    (front : List Char) {rest text : List Char} (heq : c.1.toList = front ++ rest)
    (htext : text = Text.dropTrailing (· == '\r') rest)
    (hline : Source.docLine? c =
      some ⟨String.ofList text, c.2.sub (Text.byteCount front) (Text.byteCount text)⟩) :
    CommentLine.Stands bytes c
      ⟨String.ofList text, c.2.sub (Text.byteCount front) (Text.byteCount text)⟩ := by
  obtain ⟨back, hback⟩ : text <+: rest := htext ▸ List.rdropWhile_prefix (· == '\r') rest
  have hone := h.line
  have hmarks := h.marks
  rw [heq, ← hback, ← List.append_assoc] at hone hmarks
  have hfront : '\n' ∉ front ++ text := fun hmem => hone (List.mem_append_left back hmem)
  refine ⟨hline, ?_, Span.inStep_sub _ _ _, ?_⟩
  · rw [String.toList_ofList]
    exact hmarks.sub hfront
  · rw [String.toList_ofList]
    exact fun hmem => hfront (List.mem_append_right front hmem)

/-- A line comment has its line where its span says. -/
theorem exists_stands {bytes : List UInt8} {c : Source.Comment} (h : c.IsLine bytes) :
    ∃ line : CommentLine, line.Stands bytes c := by
  obtain ⟨body, hbody⟩ := h.mark
  have hbody : c.1.toList = '/' :: '/' :: body := hbody.symm
  by_cases hblank : ∃ rest, body = ' ' :: rest
  · obtain ⟨rest, rfl⟩ := hblank
    exact ⟨_, .of_append h ['/', '/', ' '] hbody rfl (by rw [Source.docLine?, hbody]; rfl)⟩
  · have hline : Source.docLine? c = some ⟨String.ofList (Text.dropTrailing (· == '\r') body),
        c.2.sub 2 (Text.byteCount (Text.dropTrailing (· == '\r') body))⟩ := by
      rw [Source.docLine?, hbody]
      cases body with
      | nil => rfl
      | cons c rest =>
        have hc : c ≠ ' ' := by
          rintro rfl
          exact hblank ⟨rest, rfl⟩
        simp [hc]
    exact ⟨_, .of_append h ['/', '/'] hbody rfl hline⟩

/-! ## Directives -/

namespace Directive

/-- A directive stands where its spans say: it takes up the trimmed line it was read from, and its
value the argument or the arguments that give it. -/
structure Stands (bytes : List UInt8) (c : Source.Comment) (line : List Char) (a : Directive) :
    Prop where
  marks : a.span.Marks bytes line
  inStep : a.span.InStep c.2
  value : a.valueSpan.isSome = a.value.isSome
  inside : ∀ place, a.valueSpan = some place →
    a.span.contains place = true ∧ place.InStep c.2
  single : a.kind.arity ≠ .list → ∀ place, a.valueSpan = some place →
    ∃ (call : Call line a.kind) (p : Part), itemsOf call.args = [p] ∧
      call.Places a.span p place ∧ place.Marks bytes (Text.trimChars p.2) ∧
      a.value = some (String.ofList (unquote (Text.trimChars p.2)))
  list : a.kind.arity = .list → ∀ place, a.valueSpan = some place →
    ∃ (call : Call line a.kind) (first last : Part) (firstPlace lastPlace : Span),
      (itemsOf call.args).head? = some first ∧ (itemsOf call.args).getLast? = some last ∧
      call.Places a.span first firstPlace ∧ firstPlace.Marks bytes (Text.trimChars first.2) ∧
      call.Places a.span last lastPlace ∧ lastPlace.Marks bytes (Text.trimChars last.2) ∧
      place = firstPlace.through lastPlace ∧
      a.value = some (Text.join ", " ((itemsOf call.args).map itemText))

variable {bytes : List UInt8} {c : Source.Comment} {line : List Char} {a : Directive}

/-- A directive without a value stands where its line does. -/
theorem Stands.of_none (hmarks : a.span.Marks bytes line) (hstep : a.span.InStep c.2)
    (hvalue : a.value = none) (hplace : a.valueSpan = none) : a.Stands bytes c line := by
  have hnone : ∀ place, a.valueSpan ≠ some place := by simp [hplace]
  exact ⟨hmarks, hstep, by rw [hvalue, hplace]; rfl, fun place h => absurd h (hnone place),
    fun _ place h => absurd h (hnone place), fun _ place h => absurd h (hnone place)⟩

/-- The value of a directive stands where its argument does. -/
theorem Stands.of_single (hmarks : a.span.Marks bytes line) (hstep : a.span.InStep c.2)
    (hline : '\n' ∉ line) (call : Call line a.kind) {p : Part} (hkind : a.kind.arity ≠ .list)
    (hitems : itemsOf call.args = [p]) (hvalue : a.value = some (itemText p))
    (hplace : a.valueSpan =
      some (a.span.sub (itemStart (call.keyword.length + 2) p) (itemSize p))) :
    a.Stands bytes c line := by
  have hmem : p ∈ itemsOf call.args := by simp [hitems]
  have hplaces := call.exists_places a.span hmem
  have hend := call.itemEnd_le (List.mem_of_mem_filter hmem)
  refine ⟨hmarks, hstep, by rw [hvalue, hplace]; rfl, ?_, ?_, fun hlist => absurd hlist hkind⟩
  · intro place heq
    rw [hplace, Option.some.injEq] at heq
    subst heq
    exact ⟨hmarks.contains_sub hend, (Span.inStep_sub _ _ _).trans hstep⟩
  · intro _ place heq
    rw [hplace, Option.some.injEq] at heq
    subst heq
    exact ⟨call, p, hitems, hplaces, hplaces.marks hmarks hline, hvalue⟩

/-- The value of a list stands from its first argument to its last one. -/
theorem Stands.of_list (hmarks : a.span.Marks bytes line) (hstep : a.span.InStep c.2)
    (hline : '\n' ∉ line) (call : Call line a.kind) {first last : Part}
    (hkind : a.kind.arity = .list) (hfirst : (itemsOf call.args).head? = some first)
    (hlast : (itemsOf call.args).getLast? = some last)
    (hvalue : a.value = some (Text.join ", " ((itemsOf call.args).map itemText)))
    (hplace : a.valueSpan = some (a.span.sub (itemStart (call.keyword.length + 2) first)
      (itemStart (call.keyword.length + 2) last + itemSize last -
        itemStart (call.keyword.length + 2) first))) :
    a.Stands bytes c line := by
  have hfirstMem := List.mem_of_mem_head? hfirst
  have hlastMem := List.mem_of_getLast? hlast
  have hfirstPlaces := call.exists_places a.span hfirstMem
  have hlastPlaces := call.exists_places a.span hlastMem
  have horder := call.itemStart_first_le hfirst hlast
  have hend := call.itemEnd_le (List.mem_of_mem_filter hlastMem)
  refine ⟨hmarks, hstep, by rw [hvalue, hplace]; rfl, ?_, fun hother => absurd hkind hother, ?_⟩
  · intro place heq
    rw [hplace, Option.some.injEq] at heq
    subst heq
    exact ⟨hmarks.contains_sub (by omega), (Span.inStep_sub _ _ _).trans hstep⟩
  · intro _ place heq
    rw [hplace, Option.some.injEq] at heq
    subst heq
    refine ⟨call, first, last, _, _, hfirst, hlast, hfirstPlaces,
      hfirstPlaces.marks hmarks hline, hlastPlaces, hlastPlaces.marks hmarks hline, ?_, hvalue⟩
    simp only [Span.sub, Span.through, Span.mk.injEq, true_and]
    omega

/-- What is read from a line stands where its spans say. -/
theorem stands_of_readLine {span : Span} (hmarks : span.Marks bytes line)
    (hstep : span.InStep c.2) (hline : '\n' ∉ line) (h : readLine line span = .ok a) :
    a.Stands bytes c line := by
  obtain ⟨rfl, -, ⟨hvalue, hplace⟩ | ⟨call, r, hread, hvalue, hplace⟩⟩ := readLine_cases h
  · exact .of_none hmarks hstep hvalue hplace
  · rcases readArguments_cases hread with ⟨hnone, hnowhere⟩ | ⟨hkind, p, hitems, htext, hspan⟩ |
      ⟨hkind, first, last, hfirst, hlast, htext, hspan⟩
    · exact .of_none hmarks hstep (hvalue.trans hnone) (hplace.trans hnowhere)
    · exact .of_single hmarks hstep hline call hkind hitems (hvalue.trans htext)
        (hplace.trans hspan)
    · exact .of_list hmarks hstep hline call hkind hfirst hlast (hvalue.trans htext)
        (hplace.trans hspan)

end Directive

/-! ## The directives of a comment -/

/-- What is wrong with a directive line, if it is read while a set is built: that it cannot be read,
or that a directive of its kind was there before. -/
def CommentLine.Faulty (line : CommentLine) (d : Diagnostic) : Prop :=
  (∃ m, line.read = .error m ∧ d = m.issue) ∨
    ∃ a, line.read = .ok a ∧
      d = .of .repeatedDirective (a.kind.mark ++ " may only appear once") a.span

namespace DirectiveSet

/-- The directives and the issues of a set come from some lines. -/
structure ReadFrom (set : DirectiveSet) (lines : List CommentLine) : Prop where
  directives : ∀ a ∈ set.directives, ∃ line ∈ lines, line.read = .ok a
  issues : ∀ d ∈ set.issues, ∃ line ∈ lines, line.Faulty d

/-- Adding a line leaves all of a set read from the lines. -/
theorem ReadFrom.addLine {set : DirectiveSet} {lines : List CommentLine} (h : set.ReadFrom lines)
    {line : CommentLine} (hline : line ∈ lines) : (set.addLine line).ReadFrom lines := by
  cases hread : line.read with
  | error m =>
    rw [addLine_of_error set hread]
    refine ⟨h.directives, fun d hd => ?_⟩
    rcases List.mem_append.1 hd with hd | hd
    · exact h.issues d hd
    · exact ⟨line, hline, .inl ⟨m, hread, List.mem_singleton.1 hd⟩⟩
  | ok a =>
    rw [addLine_of_ok set hread, push]
    split
    · refine ⟨h.directives, fun d hd => ?_⟩
      rcases List.mem_append.1 hd with hd | hd
      · exact h.issues d hd
      · exact ⟨line, hline, .inr ⟨a, hread, List.mem_singleton.1 hd⟩⟩
    · refine ⟨fun a' ha' => ?_, h.issues⟩
      rcases List.mem_append.1 ha' with ha' | ha'
      · exact h.directives a' ha'
      · obtain rfl := List.mem_singleton.1 ha'
        exact ⟨line, hline, hread⟩

/-- The set of a comment is read from its directive lines. -/
theorem readFrom_ofDoc (doc : DocComment) :
    (ofDoc doc).ReadFrom (doc.lines.filter isDirectiveLine) := by
  have hfold : ∀ (rest : List CommentLine) (set : DirectiveSet),
      (∀ line ∈ rest, line ∈ doc.lines.filter isDirectiveLine) →
      set.ReadFrom (doc.lines.filter isDirectiveLine) →
      (rest.foldl DirectiveSet.addLine set).ReadFrom (doc.lines.filter isDirectiveLine) := by
    intro rest
    induction rest with
    | nil => exact fun set _ h => h
    | cons line rest ih =>
      intro set hrest h
      exact ih _ (fun line' hline' => hrest line' (List.mem_cons_of_mem line hline'))
        (h.addLine (hrest line (List.mem_cons_self ..)))
  have h := hfold (doc.lines.filter isDirectiveLine) {} (fun _ h => h) ⟨by simp, by simp⟩
  exact ⟨h.directives, h.issues⟩

end DirectiveSet

/-- The blanks around a line can be taken off its span. -/
theorem CommentLine.Stands.trimmed {bytes : List UInt8} {c : Source.Comment} {line : CommentLine}
    (h : line.Stands bytes c) :
    (line.span.sub (Text.byteCount (line.text.toList.takeWhile Text.isBlank))
      (Text.byteCount (Text.trimChars line.text.toList))).Marks bytes
        (Text.trimChars line.text.toList) ∧
    '\n' ∉ Text.trimChars line.text.toList :=
  h.marks.trimmed h.line

/-- What a line is read as stands on its trimmed text. -/
theorem CommentLine.Stands.of_read {bytes : List UInt8} {c : Source.Comment} {line : CommentLine}
    (h : line.Stands bytes c) {a : Directive} (hread : line.read = .ok a) :
    a.Stands bytes c (Text.trimChars line.text.toList) := by
  obtain ⟨hmarks, hline⟩ := h.trimmed
  exact Directive.stands_of_readLine hmarks ((Span.inStep_sub _ _ _).trans h.inStep) hline hread

/-- A finding about a line points at the whole line. -/
theorem CommentLine.Stands.of_faulty {bytes : List UInt8} {c : Source.Comment} {line : CommentLine}
    (h : line.Stands bytes c) {d : Diagnostic} (hfault : line.Faulty d) :
    d.span.Marks bytes (Text.trimChars line.text.toList) ∧ d.span.InStep c.2 := by
  rcases hfault with ⟨m, hread, rfl⟩ | ⟨a, hread, rfl⟩
  · rw [Directive.span_of_readLine hread]
    exact ⟨h.trimmed.1, (Span.inStep_sub _ _ _).trans h.inStep⟩
  · exact ⟨(h.of_read hread).marks, (h.of_read hread).inStep⟩

/-- Each comment of a block has its line. -/
theorem forall₂_stands {bytes : List UInt8} {block : List Source.Comment}
    (h : ∀ c ∈ block, c.IsLine bytes) :
    List.Forall₂ (fun c line => CommentLine.Stands bytes c line) block
      (Source.docOf block).lines := by
  induction block with
  | nil => exact .nil
  | cons c block ih =>
    obtain ⟨line, hline⟩ := exists_stands (h c (List.mem_cons_self ..))
    have hrest := ih fun c' hc' => h c' (List.mem_cons_of_mem c hc')
    have hlines : (Source.docOf (c :: block)).lines = line :: (Source.docOf block).lines :=
      List.filterMap_cons_some hline.eq
    rw [hlines]
    exact .cons hline hrest

/-- The spans of a comment block and of its directives point at the bytes they name. -/
theorem spans_point {bytes : List UInt8} {block : List Source.Comment}
    (h : ∀ c ∈ block, c.IsLine bytes) :
    List.Forall₂ (fun c line => CommentLine.Stands bytes c line) block
      (Source.docOf block).lines ∧
    (∀ a ∈ (DirectiveSet.ofDoc (Source.docOf block)).directives, ∃ c ∈ block,
      ∃ line ∈ (Source.docOf block).lines, line.Stands bytes c ∧ line.read = .ok a ∧
        a.Stands bytes c (Text.trimChars line.text.toList)) ∧
    (∀ d ∈ (DirectiveSet.ofDoc (Source.docOf block)).issues, ∃ c ∈ block,
      ∃ line ∈ (Source.docOf block).lines, line.Stands bytes c ∧ line.Faulty d ∧
        d.span.Marks bytes (Text.trimChars line.text.toList) ∧ d.span.InStep c.2) := by
  have hread := DirectiveSet.readFrom_ofDoc (Source.docOf block)
  have hlines := forall₂_stands h
  refine ⟨hlines, fun a ha => ?_, fun d hd => ?_⟩
  · obtain ⟨line, hline, heq⟩ := hread.directives a ha
    have hmem := List.mem_of_mem_filter hline
    obtain ⟨c, hc, hstands⟩ := hlines.exists_left_of_mem hmem
    exact ⟨c, hc, line, hmem, hstands, heq, hstands.of_read heq⟩
  · obtain ⟨line, hline, hfault⟩ := hread.issues d hd
    have hmem := List.mem_of_mem_filter hline
    obtain ⟨c, hc, hstands⟩ := hlines.exists_left_of_mem hmem
    exact ⟨c, hc, line, hmem, hstands, hfault, hstands.of_faulty hfault⟩

/-- A source with a block of three comments: blanks and quotes around the arguments, letters of
several bytes, and a kind that appears twice. -/
def sizesSource : List UInt8 :=
  Text.encoded ("x\n// @Tag( \"Größe\" ) Übersicht\n" ++
    "//\t @ContentType(ä, \"é\" , \x7b\x7d) x\r\n//@Tag(zwei)\n").toList

/-- The comments of the source. -/
def sizesBlock : List Source.Comment :=
  ((Source.tokens sizesSource).filter (·.kind == .lineComment)).map fun t => (t.lexeme, t.span)

/-- The comments of the block are line comments of the source. -/
theorem isLine_of_mem_sizesBlock : ∀ c ∈ sizesBlock, c.IsLine sizesSource := by
  have htext : ∀ t ∈ Source.tokens sizesSource, t.kind = .lineComment → t.lexeme ≠ "" := by
    decide +kernel
  intro c hc
  obtain ⟨t, ht, rfl⟩ := List.mem_map.1 hc
  obtain ⟨hmem, hkind⟩ := List.mem_filter.1 ht
  have hkind : t.kind = .lineComment := by simpa using hkind
  exact Source.lineComment_of_mem_tokens hmem hkind (htext t hmem hkind)

/-- The spans in `sizesSource` point at two values, the second of them a list, and at a kind that
appears twice. -/
theorem spans_point_sizes :
    (DirectiveSet.ofDoc (Source.docOf sizesBlock)).directives.map (·.value) =
      [some "Größe", some "ä, é"] ∧
    (DirectiveSet.ofDoc (Source.docOf sizesBlock)).issues.length = 1 ∧
    (∀ a ∈ (DirectiveSet.ofDoc (Source.docOf sizesBlock)).directives, ∃ c ∈ sizesBlock,
      ∃ line ∈ (Source.docOf sizesBlock).lines, line.Stands sizesSource c ∧ line.read = .ok a ∧
        a.Stands sizesSource c (Text.trimChars line.text.toList)) := by
  refine ⟨by decide +kernel, by decide +kernel, ?_⟩
  exact (spans_point isLine_of_mem_sizesBlock).2.1

end RouteAtlas
