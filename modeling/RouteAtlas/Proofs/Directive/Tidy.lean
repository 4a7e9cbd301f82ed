import RouteAtlas.Directive.Parser
import RouteAtlas.Proofs.Text.Pieces
import Mathlib

/-!
# Comments without faults

Whatever is wrong with the directive lines of a comment becomes an issue, and every issue is an
error. So a set of directives without issues says all that its comment says: each directive line
was read, and none of a kind that may appear only once was dropped.
-/

set_option autoImplicit false

namespace RouteAtlas

/-- Whether a line begins with the mark of directives, blanks aside. -/
def CommentLine.isMarked (line : CommentLine) : Bool :=
  (Text.trim line.text).toList.head? == some '@'

/-- What a directive line says, or why it cannot be read. -/
def CommentLine.read (line : CommentLine) : Except Directive.Malformed Directive :=
  let cs := line.text.toList
  let leading := Text.byteCount (cs.takeWhile Text.isBlank)
  let trimmed := Text.trimChars cs
  Directive.readLine trimmed (line.span.sub leading (Text.byteCount trimmed))

/-- A line that can be read as a directive of a kind. -/
def CommentLine.Says (line : CommentLine) (kind : DirectiveKind) : Prop :=
  ∃ a, line.read = .ok a ∧ a.kind = kind

namespace DirectiveSet

/-- A line is one of a directive if it is marked. -/
theorem isDirectiveLine_eq (line : CommentLine) : isDirectiveLine line = line.isMarked := by
  rw [isDirectiveLine, CommentLine.isMarked, Text.trim, String.toList_ofList,
    Text.head?_trimChars]
  exact (Bool.beq_eq_decide_eq _ _).symm

/-- Adding a line that can be read adds its directive. -/
theorem addLine_of_ok (set : DirectiveSet) {line : CommentLine} {a : Directive}
    (h : line.read = .ok a) : set.addLine line = set.push a := by
  unfold CommentLine.read at h
  unfold DirectiveSet.addLine
  simp only [h]

/-- Adding a line that cannot be read adds an issue. -/
theorem addLine_of_error (set : DirectiveSet) {line : CommentLine} {m : Directive.Malformed}
    (h : line.read = .error m) : set.addLine line = set.refuse m := by
  unfold CommentLine.read at h
  unfold DirectiveSet.addLine
  simp only [h]

/-- A set that says all that a comment says: its directives are the lines of the comment one by
one, none of them malformed, and no kind that may appear only once appears twice. -/
structure Tidy (set : DirectiveSet) (doc : DocComment) : Prop where
  eq : set = .ofDoc doc
  lines : (doc.lines.filter isDirectiveLine).map CommentLine.read = set.directives.map .ok
  once : ∀ kind : DirectiveKind, kind.isSingleton = true → (set.ofKind kind).length ≤ 1
  malformed : set.malformed = []
  issues : set.issues = []

/-- What is true of a set after some directive lines. -/
structure Follows (lines : List CommentLine) (set : DirectiveSet) : Prop where
  errors : ∀ d ∈ set.issues, d.severity = .error
  once : ∀ kind : DirectiveKind, kind.isSingleton = true → (set.ofKind kind).length ≤ 1
  malformed : set.issues = [] → set.malformed = []
  complete : set.issues = [] → lines.map CommentLine.read = set.directives.map .ok
  annotated : set.isAnnotated = true ↔ lines ≠ []
  has : ∀ kind, set.has kind = true ↔ ∃ line ∈ lines, line.Says kind

/-- The issue of a line that cannot be read is an error. -/
theorem severity_of_read {line : CommentLine} {m : Directive.Malformed}
    (h : line.read = .error m) : m.issue.severity = .error := by
  simp only [CommentLine.read, Directive.readLine] at h
  split at h
  · cases h
    rfl
  · split at h
    · cases h
    · cases h
      rfl

variable {lines : List CommentLine} {set : DirectiveSet}

/-- A kind is said in some lines and one more if it is said in either. -/
theorem exists_says_append {line : CommentLine} {kind : DirectiveKind} :
    (∃ l ∈ lines ++ [line], l.Says kind) ↔ (∃ l ∈ lines, l.Says kind) ∨ line.Says kind := by
  simp [or_and_right, exists_or]

/-- A directive is kept or becomes an issue. -/
theorem Follows.push (h : Follows lines set) {line : CommentLine} {a : Directive}
    (hread : line.read = .ok a) : Follows (lines ++ [line]) (set.push a) := by
  have hsays : ∀ kind, line.Says kind ↔ a.kind = kind := by
    intro kind
    simp [CommentLine.Says, hread]
  rw [DirectiveSet.push]
  split
  · rename_i hold
    refine ⟨?_, h.once, by simp, by simp, by simp [isAnnotated], fun kind => ?_⟩
    · intro d hd
      rcases List.mem_append.1 hd with hd | hd
      · exact h.errors d hd
      · obtain rfl := List.mem_singleton.1 hd
        rfl
    · rw [exists_says_append, hsays]
      refine (h.has kind).trans ⟨.inl, ?_⟩
      rintro (hlines | rfl)
      · exact hlines
      · exact (h.has a.kind).1 (Bool.and_eq_true_iff.1 hold).2
  · rename_i hnew
    refine ⟨h.errors, ?_, h.malformed, ?_, by simp [isAnnotated], fun kind => ?_⟩
    · intro kind hkind
      have hcount := h.once kind hkind
      simp only [ofKind, List.filter_append, List.length_append] at hcount ⊢
      by_cases ha : a.kind = kind
      · -- There was none of this kind before.
        have hnone : set.directives.filter (·.kind == kind) = [] := by
          subst ha
          simp only [hkind, Bool.true_and, DirectiveSet.has, first?] at hnew
          rw [List.filter_eq_nil_iff]
          simpa using hnew
        simp [hnone, ha]
      · simpa [ha] using hcount
    · intro hissues
      rw [List.map_append, List.map_append, h.complete hissues, List.map_singleton,
        List.map_singleton, hread]
    · rw [exists_says_append, hsays, ← h.has kind]
      simp [DirectiveSet.has, first?, List.find?_append]

/-- An issue is what follows from a line that cannot be read. -/
theorem Follows.refuse (h : Follows lines set) {line : CommentLine} {m : Directive.Malformed}
    (hread : line.read = .error m) : Follows (lines ++ [line]) (set.refuse m) := by
  refine ⟨?_, h.once, by simp [DirectiveSet.refuse], by simp [DirectiveSet.refuse],
    by simp [isAnnotated, DirectiveSet.refuse], fun kind => ?_⟩
  · intro d hd
    rcases List.mem_append.1 hd with hd | hd
    · exact h.errors d hd
    · obtain rfl := List.mem_singleton.1 hd
      exact severity_of_read hread
  · have hsilent : ¬line.Says kind := by simp [CommentLine.Says, hread]
    rw [exists_says_append, or_iff_left hsilent]
    exact h.has kind

/-- Adding a line follows from that line. -/
theorem Follows.addLine (h : Follows lines set) (line : CommentLine) :
    Follows (lines ++ [line]) (set.addLine line) := by
  cases hread : line.read with
  | ok a => exact addLine_of_ok set hread ▸ h.push hread
  | error m => exact addLine_of_error set hread ▸ h.refuse hread

/-- The text of a comment does not matter. -/
theorem Follows.withText (h : Follows lines set) (text : String) :
    Follows lines { set with text := text } :=
  ⟨h.errors, h.once, h.malformed, h.complete, h.annotated, h.has⟩

/-- The set of a comment follows from its directive lines. -/
theorem follows_ofDoc (doc : DocComment) :
    Follows (doc.lines.filter isDirectiveLine) (ofDoc doc) := by
  have hfold : ∀ (rest lines : List CommentLine) (set : DirectiveSet), Follows lines set →
      Follows (lines ++ rest) (rest.foldl DirectiveSet.addLine set) := by
    intro rest
    induction rest with
    | nil => exact fun lines set h => by simpa using h
    | cons line rest ih =>
      intro lines set h
      have hrest := ih _ _ (h.addLine line)
      rwa [List.append_assoc, List.singleton_append] at hrest
  have h := hfold (doc.lines.filter isDirectiveLine) [] {}
    ⟨by simp, by simp [ofKind], by simp, by simp, by simp [isAnnotated],
      by simp [DirectiveSet.has, first?]⟩
  unfold ofDoc
  exact h.withText _

/-- Every issue of a comment is an error. -/
theorem severity_of_mem_issues {doc : DocComment} {d : Diagnostic} (h : d ∈ (ofDoc doc).issues) :
    d.severity = .error :=
  (follows_ofDoc doc).errors d h

/-- A comment counts as annotated if one of its lines begins with the mark of directives. -/
theorem isAnnotated_ofDoc_iff (doc : DocComment) :
    (ofDoc doc).isAnnotated = true ↔ ∃ line ∈ doc.lines, isDirectiveLine line = true := by
  rw [(follows_ofDoc doc).annotated, Ne, List.filter_eq_nil_iff]
  simp

/-- The set of a comment has a kind if one of its directive lines says it. -/
theorem has_ofDoc_iff (doc : DocComment) (kind : DirectiveKind) :
    (ofDoc doc).has kind = true ↔
      ∃ line ∈ doc.lines, isDirectiveLine line = true ∧ line.Says kind := by
  rw [(follows_ofDoc doc).has]
  simp [and_assoc]

/-- A comment without issues says all it says. -/
theorem tidy_ofDoc {doc : DocComment} (h : (ofDoc doc).issues = []) : (ofDoc doc).Tidy doc where
  eq := rfl
  lines := (follows_ofDoc doc).complete h
  once := (follows_ofDoc doc).once
  malformed := (follows_ofDoc doc).malformed h
  issues := h

end DirectiveSet

end RouteAtlas
