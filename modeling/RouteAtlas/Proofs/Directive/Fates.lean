import RouteAtlas.Proofs.Directive.Arguments
import RouteAtlas.Proofs.Directive.Tidy

/-!
# What becomes of the lines of a comment

A line of a comment ends in exactly one of four ways: it belongs to the text, or it is a directive
that is kept, a directive that is dropped because its kind may appear only once, or a line that
cannot be read. Which of them it is depends on the line and, for a kind that may appear only once,
on whether a line before it is of that kind (`CommentLine.fate`). The set of a comment is put
together from the fates of its lines in their order (`lines_accounted`), so a line has no say in
what comes of another one, but for such kinds.
-/

set_option autoImplicit false

namespace RouteAtlas

/-- What becomes of a line of a comment. -/
inductive LineFate where
  /-- It belongs to the text. -/
  | text (line : String)
  /-- It is a directive that is kept. -/
  | kept (a : Directive)
  /-- It is a directive of a kind that may appear only once, and not the first one. -/
  | repeated (a : Directive)
  /-- It is marked as a directive and cannot be read. -/
  | malformed (m : Directive.Malformed)

namespace LineFate

/-- The text that a line adds to its comment. -/
def text? : LineFate → Option String
  | .text line => some line
  | _ => none

/-- The directive that a line adds to its set. -/
def directive? : LineFate → Option Directive
  | .kept a => some a
  | _ => none

/-- The issue that is reported on a line. -/
def issue? : LineFate → Option Diagnostic
  | .repeated a => some (.of .repeatedDirective (a.kind.mark ++ " may only appear once") a.span)
  | .malformed m => some m.issue
  | _ => none

/-- The kind of a line that cannot be read, if its keyword can be. -/
def malformedKind? : LineFate → Option DirectiveKind
  | .malformed m => m.kind
  | _ => none

end LineFate

namespace CommentLine

/-- The kind of a line that can be read. -/
def kind? (line : CommentLine) : Option DirectiveKind :=
  match line.read with
  | .ok a => some a.kind
  | .error _ => none

/-- What becomes of a line behind some others. -/
def fate (before : List CommentLine) (line : CommentLine) : LineFate :=
  if line.isMarked then
    match line.read with
    | .ok a =>
      if a.kind.isSingleton && before.any (·.kind? == some a.kind) then .repeated a else .kept a
    | .error m => .malformed m
  else .text (Text.trim line.text)

/-- Where a line stands in the file, the blanks around it aside. -/
def place (line : CommentLine) : Span :=
  line.span.sub (Text.byteCount (line.text.toList.takeWhile Text.isBlank))
    (Text.byteCount (Text.trimChars line.text.toList))

end CommentLine

/-- What becomes of the lines of a comment, one by one. -/
def DocComment.fates (doc : DocComment) : List LineFate :=
  doc.lines.mapIdx fun i line => line.fate (doc.lines.take i)

/-- The lines of a comment that can be read, as directives. -/
def DocComment.readings (doc : DocComment) : List Directive :=
  doc.lines.filterMap (·.read.toOption)

/-- A set that is put together from the lines of a comment in their order. -/
structure DirectiveSet.Accounts (set : DirectiveSet) (doc : DocComment) : Prop where
  text : set.text = Text.trim (Text.join "\n" (doc.fates.filterMap LineFate.text?))
  directives : set.directives = doc.fates.filterMap LineFate.directive?
  ofKind : ∀ kind, set.ofKind kind =
    if kind.isSingleton then (doc.readings.filter (·.kind == kind)).take 1
    else doc.readings.filter (·.kind == kind)
  issues : set.issues = doc.fates.filterMap LineFate.issue?
  malformed : set.malformed = doc.fates.filterMap LineFate.malformedKind?
  count : set.directives.length + set.issues.length = doc.lines.countP (·.isMarked)
  annotated : set.isAnnotated = true ↔ ∃ line ∈ doc.lines, line.isMarked = true

/-- What a line is read as stands where the line does; a line that cannot be read is reported as
malformed, and its kind is noted if its keyword can be read. -/
structure CommentLine.Placed (line : CommentLine) : Prop where
  directive : ∀ a, line.read = .ok a → a.span = line.place
  issue : ∀ m, line.read = .error m →
    m.issue.code = .malformedDirective ∧ m.issue.span = line.place
  kind : ∀ m, line.read = .error m → m.kind =
    (Directive.keyword? (Text.trimChars line.text.toList)).map fun found =>
      .ofKeyword (String.ofList found.1)

/-! ## One line -/

namespace CommentLine

variable {line : CommentLine} {before : List CommentLine}

/-- The kind of a line is what it says. -/
theorem kind?_eq_some_iff (kind : DirectiveKind) : line.kind? = some kind ↔ line.Says kind := by
  unfold kind? Says
  cases line.read with
  | ok a => simp
  | error m => simp

/-- A kind is among those of some lines if one of them says it. -/
theorem any_kind?_iff (kind : DirectiveKind) :
    before.any (·.kind? == some kind) = true ↔ ∃ l ∈ before, l.Says kind := by
  rw [List.any_eq_true]
  simp only [beq_iff_eq, kind?_eq_some_iff]

/-- Only lines with the mark can be read. -/
theorem isMarked_of_says {kind : DirectiveKind} (h : line.Says kind) : line.isMarked = true := by
  obtain ⟨a, hread, -⟩ := h
  unfold read Directive.readLine at hread
  dsimp only at hread
  split at hread
  · cases hread
  · rename_i keyword rest hkeyword
    have hline := (Directive.keyword?_eq_some hkeyword).1
    unfold isMarked Text.trim
    rw [String.toList_ofList, hline]
    rfl

/-- Every line is read and reported where it stands. -/
theorem placed (line : CommentLine) : line.Placed where
  directive := fun _ h => (Directive.readLine_cases h).1
  issue := by
    intro m h
    refine ⟨?_, Directive.span_of_readLine h⟩
    unfold read Directive.readLine at h
    dsimp only at h
    split at h
    · cases h
      rfl
    · split at h
      · cases h
      · cases h
        rfl
  kind := by
    intro m h
    unfold read Directive.readLine at h
    dsimp only at h
    split at h
    · rename_i hkeyword
      cases h
      rw [hkeyword]
      rfl
    · rename_i hkeyword
      split at h
      · cases h
      · cases h
        rw [hkeyword]
        rfl

/-- A line without a mark is text. -/
theorem fate_of_unmarked (before : List CommentLine) (h : line.isMarked = false) :
    line.fate before = .text (Text.trim line.text) := by
  unfold fate
  rw [h]
  rfl

/-- A marked line that cannot be read is malformed. -/
theorem fate_of_error (before : List CommentLine) (h : line.isMarked = true)
    {m : Directive.Malformed} (hread : line.read = .error m) :
    line.fate before = .malformed m := by
  unfold fate
  rw [h, hread]
  rfl

/-- A line that can be read is kept, unless an earlier one says the same kind and that may stand
only once. -/
theorem fate_of_ok {a : Directive} (hread : line.read = .ok a) :
    line.fate before =
      if a.kind.isSingleton && before.any (·.kind? == some a.kind) then .repeated a
      else .kept a := by
  have hmarked := isMarked_of_says ⟨a, hread, rfl⟩
  unfold fate
  rw [hmarked, hread]
  rfl

/-- A line that is marked gives a directive or an issue, and no other line does. -/
theorem length_fate (before : List CommentLine) (line : CommentLine) :
    (line.fate before).directive?.toList.length + (line.fate before).issue?.toList.length =
      if line.isMarked then 1 else 0 := by
  unfold fate
  split
  · split
    · split
      · rfl
      · rfl
    · rfl
  · rfl

/-- The issue of a line is a malformed or a repeated directive. -/
theorem code_of_fate {d : Diagnostic} (h : (line.fate before).issue? = some d) :
    d.code = .malformedDirective ∨ d.code = .repeatedDirective := by
  cases hmarked : line.isMarked with
  | false =>
    rw [fate_of_unmarked before hmarked] at h
    cases h
  | true =>
    cases hread : line.read with
    | error m =>
      rw [fate_of_error before hmarked hread] at h
      cases h
      exact .inl (line.placed.issue m hread).1
    | ok a =>
      rw [fate_of_ok hread] at h
      split at h
      · cases h
        exact .inr rfl
      · cases h

/-- Only a line without the mark gets into the text. -/
theorem text?_fate (before : List CommentLine) (line : CommentLine) :
    (line.fate before).text? = if line.isMarked then none else some (Text.trim line.text) := by
  unfold fate
  split
  · split
    · split
      · rfl
      · rfl
    · rfl
  · rfl

/-- What becomes of a line depends on the lines before it only if its kind may appear once. -/
theorem fate_congr {before' : List CommentLine}
    (h : ∀ kind, kind.isSingleton = true → line.Says kind →
      before.any (·.kind? == some kind) = before'.any (·.kind? == some kind)) :
    line.fate before = line.fate before' := by
  cases hread : line.read with
  | error m =>
    unfold fate
    rw [hread]
  | ok a =>
    rw [fate_of_ok hread, fate_of_ok hread]
    cases hkind : a.kind.isSingleton with
    | false => rfl
    | true => rw [h a.kind hkind ⟨a, hread, rfl⟩]

end CommentLine

/-! ## One line more -/

/-- The last line of a comment has its fate from the lines before. -/
theorem DocComment.fates_concat (lines : List CommentLine) (line : CommentLine) :
    (DocComment.mk (lines ++ [line])).fates = (DocComment.mk lines).fates ++ [line.fate lines] := by
  have hearlier : lines.mapIdx (fun i l => l.fate ((lines ++ [line]).take i)) =
      lines.mapIdx fun i l => l.fate (lines.take i) := by
    rw [List.mapIdx_eq_mapIdx_iff]
    intro i hi
    rw [List.take_append_of_le_length (Nat.le_of_lt hi)]
  unfold fates
  dsimp only
  rw [List.mapIdx_concat, hearlier, List.take_left]

/-- What is gathered from fates gains what the last line gives. -/
theorem DocComment.filterMap_fates_concat {β : Type} (f : LineFate → Option β)
    (lines : List CommentLine) (line : CommentLine) :
    (DocComment.mk (lines ++ [line])).fates.filterMap f =
      (DocComment.mk lines).fates.filterMap f ++ (f (line.fate lines)).toList := by
  rw [fates_concat, List.filterMap_append]
  cases h : f (line.fate lines) with
  | none => rw [List.filterMap_cons_none h, List.filterMap_nil, Option.toList_none]
  | some b => rw [List.filterMap_cons_some h, List.filterMap_nil, Option.toList_some]

namespace DirectiveSet

/-- A kind is in the set of a comment if a line is of that kind. -/
theorem has_ofDoc (lines : List CommentLine) (kind : DirectiveKind) :
    (ofDoc ⟨lines⟩).has kind = lines.any (·.kind? == some kind) := by
  rw [Bool.eq_iff_iff, has_ofDoc_iff, CommentLine.any_kind?_iff]
  simp only [isDirectiveLine_eq]
  constructor
  · rintro ⟨l, hl, -, hsays⟩
    exact ⟨l, hl, hsays⟩
  · rintro ⟨l, hl, hsays⟩
    exact ⟨l, hl, CommentLine.isMarked_of_says hsays, hsays⟩

/-- What is done with a line does not depend on the text. -/
theorem addLine_withText (set : DirectiveSet) (text : String) (line : CommentLine) :
    ({ set with text := text } : DirectiveSet).addLine line =
      { set.addLine line with text := text } := by
  cases hread : line.read with
  | error m =>
    rw [addLine_of_error _ hread, addLine_of_error _ hread]
    rfl
  | ok a =>
    have hhas : ({ set with text := text } : DirectiveSet).has a.kind = set.has a.kind := rfl
    rw [addLine_of_ok _ hread, addLine_of_ok _ hread, push, push, hhas]
    split
    · rfl
    · rfl

/-- A last line without a mark changes only the text. -/
theorem ofDoc_of_unmarked (lines : List CommentLine) {line : CommentLine}
    (h : line.isMarked = false) :
    ofDoc ⟨lines ++ [line]⟩ = { ofDoc ⟨lines⟩ with text := textOf ⟨lines ++ [line]⟩ } := by
  have hskip : (lines ++ [line]).filter isDirectiveLine = lines.filter isDirectiveLine := by
    rw [List.filter_append, List.filter_cons_of_neg (by simp [isDirectiveLine_eq, h]),
      List.filter_nil, List.append_nil]
  unfold ofDoc
  rw [hskip]

/-- A last line with a mark is added, and the text is read anew. -/
theorem ofDoc_of_marked (lines : List CommentLine) {line : CommentLine}
    (h : line.isMarked = true) :
    ofDoc ⟨lines ++ [line]⟩ =
      { (ofDoc ⟨lines⟩).addLine line with text := textOf ⟨lines ++ [line]⟩ } := by
  have htake : (lines ++ [line]).filter isDirectiveLine =
      lines.filter isDirectiveLine ++ [line] := by
    rw [List.filter_append, List.filter_cons_of_pos (by simp [isDirectiveLine_eq, h]),
      List.filter_nil]
  have hadd : (ofDoc ⟨lines⟩).addLine line =
      { ((lines.filter isDirectiveLine).foldl addLine {}).addLine line with
        text := textOf ⟨lines⟩ } :=
    addLine_withText _ _ line
  rw [hadd]
  unfold ofDoc
  rw [htake, List.foldl_concat]

/-- One more line adds to the set of a comment what its fate says, and nothing else. -/
theorem ofDoc_concat (lines : List CommentLine) (line : CommentLine) :
    (ofDoc ⟨lines ++ [line]⟩).directives =
        (ofDoc ⟨lines⟩).directives ++ (line.fate lines).directive?.toList ∧
      (ofDoc ⟨lines ++ [line]⟩).issues =
        (ofDoc ⟨lines⟩).issues ++ (line.fate lines).issue?.toList ∧
      (ofDoc ⟨lines ++ [line]⟩).malformed =
        (ofDoc ⟨lines⟩).malformed ++ (line.fate lines).malformedKind?.toList := by
  cases hmarked : line.isMarked with
  | false =>
    rw [ofDoc_of_unmarked lines hmarked, CommentLine.fate_of_unmarked lines hmarked]
    simp [LineFate.directive?, LineFate.issue?, LineFate.malformedKind?]
  | true =>
    rw [ofDoc_of_marked lines hmarked]
    cases hread : line.read with
    | error m =>
      rw [addLine_of_error _ hread, CommentLine.fate_of_error lines hmarked hread]
      simp [refuse, LineFate.directive?, LineFate.issue?, LineFate.malformedKind?]
    | ok a =>
      rw [addLine_of_ok _ hread, push, has_ofDoc, CommentLine.fate_of_ok hread]
      split
      · simp [LineFate.directive?, LineFate.issue?, LineFate.malformedKind?]
      · simp [LineFate.directive?, LineFate.issue?, LineFate.malformedKind?]

/-- The lines of the text are those whose fate it is. -/
theorem textOf_eq (lines : List CommentLine) :
    textOf ⟨lines⟩ =
      Text.trim (Text.join "\n" ((DocComment.mk lines).fates.filterMap LineFate.text?)) := by
  have hlines : (lines.filter (!isDirectiveLine ·)).map (fun line => Text.trim line.text) =
      (DocComment.mk lines).fates.filterMap LineFate.text? := by
    induction lines using List.reverseRecOn with
    | nil => rfl
    | append_singleton lines line ih =>
      rw [DocComment.filterMap_fates_concat, ← ih, List.filter_append, List.map_append]
      have hfate := CommentLine.text?_fate lines line
      cases hmarked : line.isMarked with
      | false => simp [isDirectiveLine_eq, hmarked, hfate]
      | true => simp [isDirectiveLine_eq, hmarked, hfate]
  unfold textOf
  rw [hlines]

/-- The last line adds what it is read as. -/
theorem readings_concat (lines : List CommentLine) (line : CommentLine) :
    (DocComment.mk (lines ++ [line])).readings =
      (DocComment.mk lines).readings ++ line.read.toOption.toList := by
  unfold DocComment.readings
  rw [List.filterMap_append]
  rfl

/-- Whether a kind was said can be asked of the readings. -/
theorem any_kind?_eq (lines : List CommentLine) (kind : DirectiveKind) :
    lines.any (·.kind? == some kind) = (DocComment.mk lines).readings.any (·.kind == kind) := by
  unfold DocComment.readings
  rw [List.any_filterMap]
  congr 1
  funext line
  unfold CommentLine.kind?
  cases line.read with
  | ok a => simp [Except.toOption]
  | error m => rfl

/-- A line that cannot be read gives no directive. -/
theorem directive?_fate_of_error (lines : List CommentLine) {line : CommentLine}
    {m : Directive.Malformed} (hread : line.read = .error m) :
    (line.fate lines).directive? = none := by
  cases hmarked : line.isMarked with
  | false =>
    rw [CommentLine.fate_of_unmarked lines hmarked]
    rfl
  | true =>
    rw [CommentLine.fate_of_error lines hmarked hread]
    rfl

/-- A line that can be read gives its directive, unless that repeats one. -/
theorem directive?_fate_of_ok (lines : List CommentLine) {line : CommentLine} {a : Directive}
    (hread : line.read = .ok a) :
    (line.fate lines).directive? = if a.kind.isSingleton &&
      (DocComment.mk lines).readings.any (·.kind == a.kind) then none else some a := by
  rw [CommentLine.fate_of_ok hread, any_kind?_eq]
  split
  · rfl
  · rfl

/-- Of the lines of a kind that can be read all are kept, or the first one if the kind may appear
only once. -/
theorem ofKind_ofDoc (lines : List CommentLine) (kind : DirectiveKind) :
    (ofDoc ⟨lines⟩).ofKind kind =
      if kind.isSingleton then ((DocComment.mk lines).readings.filter (·.kind == kind)).take 1
      else (DocComment.mk lines).readings.filter (·.kind == kind) := by
  induction lines using List.reverseRecOn with
  | nil => cases kind.isSingleton <;> rfl
  | append_singleton lines line ih =>
    have hdirectives := (ofDoc_concat lines line).1
    unfold ofKind at ih ⊢
    rw [hdirectives, readings_concat, List.filter_append, List.filter_append, ih]
    cases hread : line.read with
    | error m => simp [directive?_fate_of_error lines hread, Except.toOption]
    | ok a =>
      have hfate := directive?_fate_of_ok lines hread
      by_cases hkind : a.kind = kind
      · subst hkind
        cases hsingle : a.kind.isSingleton with
        | false => simp [hfate, hsingle, Except.toOption]
        | true =>
          cases hfilter : (DocComment.mk lines).readings.filter (·.kind == a.kind) with
          | nil =>
            have hfirst : (DocComment.mk lines).readings.any (·.kind == a.kind) = false := by
              rw [List.any_eq_false]
              exact List.filter_eq_nil_iff.1 hfilter
            simp [hfate, hfirst, Except.toOption]
          | cons first rest =>
            have hlater : (DocComment.mk lines).readings.any (·.kind == a.kind) = true := by
              rw [List.any_eq_true]
              exact ⟨first, List.mem_filter.1 (hfilter ▸ List.mem_cons_self ..)⟩
            simp [hfate, hsingle, hlater, Except.toOption]
      · -- A directive of another kind adds nothing on either side.
        have hother : (line.fate lines).directive?.toList.filter (·.kind == kind) = [] := by
          rw [hfate]
          split
          · rfl
          · simp [hkind]
        simp [hother, hkind, Except.toOption]

/-- The set of a comment accounts for its lines. -/
theorem accounts_ofDoc (lines : List CommentLine) : (ofDoc ⟨lines⟩).Accounts ⟨lines⟩ := by
  induction lines using List.reverseRecOn with
  | nil =>
    exact ⟨textOf_eq [], rfl, ofKind_ofDoc [], rfl, rfl, rfl, by simp [ofDoc, isAnnotated]⟩
  | append_singleton lines line ih =>
    obtain ⟨hdirectives, hissues, hmalformed⟩ := ofDoc_concat lines line
    refine ⟨textOf_eq _, ?_, ofKind_ofDoc _, ?_, ?_, ?_, ?_⟩
    · rw [hdirectives, ih.directives, DocComment.filterMap_fates_concat]
    · rw [hissues, ih.issues, DocComment.filterMap_fates_concat]
    · rw [hmalformed, ih.malformed, DocComment.filterMap_fates_concat]
    · have hcount : _ = lines.countP (·.isMarked) := ih.count
      have hline := CommentLine.length_fate lines line
      rw [hdirectives, hissues, List.length_append, List.length_append, List.countP_append,
        List.countP_singleton]
      omega
    · rw [isAnnotated_ofDoc_iff]
      simp only [isDirectiveLine_eq]

/-- The issues of a comment are about lines that cannot be read and about kinds that may appear only
once. -/
theorem code_of_mem_issues {doc : DocComment} {d : Diagnostic} (h : d ∈ (ofDoc doc).issues) :
    d.code = .malformedDirective ∨ d.code = .repeatedDirective := by
  rw [(accounts_ofDoc doc.lines).issues, List.mem_filterMap] at h
  obtain ⟨fate, hfate, hissue⟩ := h
  obtain ⟨i, hi, rfl⟩ := List.mem_mapIdx.1 hfate
  exact CommentLine.code_of_fate hissue

end DirectiveSet

/-! ## One line replaced -/

/-- A line that does not say a kind may replace another that does not. -/
theorem any_kind?_set {lines : List CommentLine} {i : Nat} {new : CommentLine}
    {kind : DirectiveKind} (hold : ∀ l, lines[i]? = some l → ¬l.Says kind)
    (hnew : ¬new.Says kind) :
    (lines.set i new).any (·.kind? == some kind) = lines.any (·.kind? == some kind) := by
  rw [Bool.eq_iff_iff, CommentLine.any_kind?_iff, CommentLine.any_kind?_iff]
  constructor
  · rintro ⟨l, hl, hsays⟩
    rcases List.mem_or_eq_of_mem_set hl with hl | rfl
    · exact ⟨l, hl, hsays⟩
    · exact absurd hsays hnew
  · rintro ⟨l, hl, hsays⟩
    obtain ⟨k, hk⟩ := List.getElem?_of_mem hl
    have hne : i ≠ k := by
      rintro rfl
      exact hold l hk hsays
    rw [← List.getElem?_set_ne hne] at hk
    exact ⟨l, List.mem_of_getElem? hk, hsays⟩

/-- A line that is replaced by another one has no say in what becomes of the others, unless it or
the other one is of their kind and this kind may appear only once. -/
theorem DocComment.fates_set (doc : DocComment) {i j : Nat} {old new line : CommentLine}
    (hi : doc.lines[i]? = some old) (hij : j ≠ i) (hj : doc.lines[j]? = some line)
    (hkinds : ∀ kind : DirectiveKind, kind.isSingleton = true → line.Says kind →
      ¬old.Says kind ∧ ¬new.Says kind) :
    (DocComment.mk (doc.lines.set i new)).fates[j]? = doc.fates[j]? := by
  unfold fates
  rw [List.getElem?_mapIdx, List.getElem?_mapIdx, List.getElem?_set_ne (Ne.symm hij), hj,
    Option.map_some, Option.map_some, Option.some.injEq]
  apply CommentLine.fate_congr
  intro kind hkind hsays
  rw [List.take_set]
  apply any_kind?_set
  · intro l hl
    rw [List.getElem?_take] at hl
    split at hl
    · rw [hi, Option.some.injEq] at hl
      exact hl ▸ (hkinds kind hkind hsays).1
    · cases hl
  · exact (hkinds kind hkind hsays).2

/-- Every line of a comment is accounted for, and what comes of a line does not depend on the other
lines, but for kinds that may appear only once. -/
theorem lines_accounted (doc : DocComment) :
    (DirectiveSet.ofDoc doc).Accounts doc ∧ (∀ line ∈ doc.lines, line.Placed) ∧
      ∀ i old new, doc.lines[i]? = some old → ∀ j line, j ≠ i → doc.lines[j]? = some line →
        (∀ kind : DirectiveKind, kind.isSingleton = true → line.Says kind →
          ¬old.Says kind ∧ ¬new.Says kind) →
        (DocComment.mk (doc.lines.set i new)).fates[j]? = doc.fates[j]? :=
  ⟨DirectiveSet.accounts_ofDoc doc.lines, fun line _ => line.placed,
    fun _ _ _ hi _ _ hij hj hkinds => doc.fates_set hi hij hj hkinds⟩

/-- A comment with a repeated directive and with two lines that cannot be read, one of which has a
keyword. -/
def mixedComment : DocComment :=
  .ofText "Orders.\n@Tag(orders)\n@Tag(again)\n@Query(limit\n@Query(limit)\n@1"

/-- In the mixed comment, the second tag is dropped also if the line of the query is replaced. -/
theorem lines_accounted_mixed :
    (DirectiveSet.ofDoc mixedComment).directives.map (·.kind) = [.tag, .query] ∧
      (DirectiveSet.ofDoc mixedComment).issues.map (·.code) =
        [.repeatedDirective, .malformedDirective, .malformedDirective] ∧
      (DirectiveSet.ofDoc mixedComment).malformed = [.query] ∧
      (DirectiveSet.ofDoc mixedComment).Accounts mixedComment ∧
      (DocComment.mk (mixedComment.lines.set 4 ⟨"@Route(/)", {}⟩)).fates[2]? =
        mixedComment.fates[2]? := by
  obtain ⟨haccounts, -, hset⟩ := lines_accounted mixedComment
  refine ⟨by decide +kernel, by decide +kernel, by decide +kernel, haccounts, ?_⟩
  refine hset 4 (mixedComment.lines[4]?.getD default) ⟨"@Route(/)", {}⟩ (by decide +kernel) 2
    (mixedComment.lines[2]?.getD default) (by decide) (by decide +kernel) fun kind _ hsays => ?_
  have htag : (mixedComment.lines[2]?.getD default).kind? = some .tag := by decide +kernel
  have hquery : (mixedComment.lines[4]?.getD default).kind? = some .query := by decide +kernel
  have hroute : (CommentLine.mk "@Route(/)" {}).kind? = some .route := by decide +kernel
  rw [← CommentLine.kind?_eq_some_iff, htag, Option.some.injEq] at hsays
  subst hsays
  rw [← CommentLine.kind?_eq_some_iff, ← CommentLine.kind?_eq_some_iff, hquery, hroute]
  decide

end RouteAtlas
