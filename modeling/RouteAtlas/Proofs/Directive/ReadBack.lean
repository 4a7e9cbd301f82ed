import RouteAtlas.Proofs.Directive.Fates
import RouteAtlas.Proofs.Directive.Scans

/-!
# Directives read back

A directive is written as its mark, a keyword, a value between parentheses and a description. The
value may hold brackets of every kind, as the path of a route does, and the description may hold
anything. Reading such a line gives back what was written (`read_written`): both scans of the
arguments know how many brackets are open, and as long as the value closes none that it has not
opened, neither of them finds an end of the arguments or of a part inside it.
-/

set_option autoImplicit false

namespace RouteAtlas

namespace Directive

/-- Characters without a comma outside of brackets, if `depth` brackets are open before them. -/
def Uncut (depth : Int) (cs : List Char) : Prop :=
  ∀ before, before ++ [','] <+: cs → depthAfter depth before ≠ 0

instance (depth : Int) (cs : List Char) : Decidable (Uncut depth cs) :=
  decidable_of_iff
    (∀ before ∈ cs.inits, before ++ [','] ∈ cs.inits → depthAfter depth before ≠ 0) (by
    simp only [List.mem_inits]
    exact ⟨fun h before hcomma => h before ((List.prefix_append _ _).trans hcomma) hcomma,
      fun h before _ hcomma => h before hcomma⟩)

/-- A keyword: a letter, and then letters, digits and underscores. -/
def IsKeyword (cs : List Char) : Prop :=
  ∃ c rest, cs = c :: rest ∧ c.isAlpha = true ∧ ∀ x ∈ rest, isWord x = true

/-- A value that can stand between parentheses as it is. -/
structure IsPlain (value : List Char) : Prop where
  nonempty : value ≠ []
  trimmed : Text.trimChars value = value
  unquoted : '"' ∉ value
  noOptions : value.head? ≠ some '{'
  nested : Nested 0 value
  closed : depthAfter 0 value = 0
  uncut : Uncut 0 value

/-- The line of a directive with a value and a description, which may be empty. -/
def written (keyword value description : String) : String :=
  "@" ++ keyword ++ "(" ++ value ++ ")" ++ if description = "" then "" else " " ++ description

/-! ## The scans -/

variable {cs value rest : List Char}

/-- Without a quote every character stands outside of literals. -/
theorem bareFrom_of_notMem (h : '"' ∉ cs) :
    bareFrom .outside cs = cs ∧ quotingAfter .outside cs = .outside := by
  induction cs with
  | nil => exact ⟨rfl, rfl⟩
  | cons c cs ih =>
    rw [List.mem_cons, not_or] at h
    have hstep : Quoting.outside.step c = .outside := if_neg (Ne.symm h.1)
    obtain ⟨hbare, hquoting⟩ := ih h.2
    have hfirst : bareFrom .outside (c :: cs) =
        c :: bareFrom (Quoting.outside.step c) cs := rfl
    have hstate : quotingAfter .outside (c :: cs) =
        quotingAfter (Quoting.outside.step c) cs := rfl
    rw [hfirst, hstate, hstep, hbare]
    exact ⟨rfl, hquoting⟩

/-! ## The parts of a line -/

/-- A keyword ends where its parenthesis opens. -/
theorem keyword?_written {keyword : List Char} (h : IsKeyword keyword) (cs : List Char) :
    keyword? ('@' :: (keyword ++ '(' :: cs)) = some (keyword, '(' :: cs) := by
  obtain ⟨c, word, rfl, halpha, hword⟩ := h
  have hends : ¬isWord '(' = true := by decide
  have htake : (word ++ '(' :: cs).takeWhile isWord = word := by
    rw [List.takeWhile_append_of_pos hword, List.takeWhile_cons_of_neg hends, List.append_nil]
  have hdrop : (word ++ '(' :: cs).dropWhile isWord = '(' :: cs := by
    rw [List.dropWhile_append_of_pos hword, List.dropWhile_cons_of_neg hends]
  have hstep : keyword? ('@' :: (c :: word ++ '(' :: cs)) =
      some (c :: (word ++ '(' :: cs).takeWhile isWord, (word ++ '(' :: cs).dropWhile isWord) :=
    if_pos halpha
  rw [hstep, htake, hdrop]

/-- The arguments end with the parenthesis behind a value. -/
theorem IsPlain.closing?_eq (h : IsPlain value) (rest : List Char) :
    closing? ('(' :: (value ++ ')' :: rest)) = some ('(' :: value, rest) := by
  obtain ⟨hbare, hquoting⟩ := bareFrom_of_notMem h.unquoted
  refine closing?_paren_iff.2 ⟨value, rfl, rfl, (returnsAt_paren_iff value).2 ?_⟩
  rw [hbare]
  exact ⟨hquoting, h.nested, h.closed⟩

/-- The value is one part, since a comma between two parts would stand outside of brackets. -/
theorem IsPlain.splitTop_eq (h : IsPlain value) : splitTop value = [(0, value)] := by
  have hsome : ¬(Text.trimChars value).isEmpty = true := by
    rw [h.trimmed, List.isEmpty_iff]
    exact h.nonempty
  rw [splitTop, if_neg hsome]
  cases hparts : splitFrom .outside 0 0 [] 0 value with
  | nil => exact absurd hparts (splitFrom_ne_nil _ _ _ _ _ _)
  | cons first others =>
    have hfirst : splitFrom .outside 0 0 [] 0 value = [] ++ first :: others := hparts
    cases others with
    | nil =>
      obtain ⟨hvalue, hstart⟩ := splitFrom_eq_append rfl hfirst
      simp only [List.reverse_nil, List.nil_append, led, List.flatMap_nil,
        List.append_nil] at hvalue
      rw [hvalue]
      exact congrArg (fun start => [(start, first.2)]) hstart
    | cons second others =>
      obtain ⟨front, back, heq, -, -, hnesting⟩ := exists_comma_of_splitFrom hfirst
      have hcomma : front ++ [','] <+: value := ⟨back, by rw [heq]; simp⟩
      have hfront : front <+: value := (List.prefix_append _ _).trans hcomma
      have hquote : '"' ∉ front := fun hmem => h.unquoted (hfront.mem hmem)
      have hnested : Nested 0 front := fun before hbefore =>
        h.nested before (hbefore.trans hfront)
      rw [nesting, (bareFrom_of_notMem hquote).1] at hnesting
      have hdepth := foldl_nest_of_nested hnested
      rw [hnesting] at hdepth
      exact absurd hdepth.symm (h.uncut front hcomma)

/-- A plain value has no quotes to be taken away. -/
theorem IsPlain.unquote_eq (h : IsPlain value) : unquote value = value := by
  unfold unquote
  rw [h.trimmed]
  dsimp only
  split
  · exact absurd (List.mem_cons_self ..) h.unquoted
  · rfl

/-- A value is taken as it is, by a kind that takes one value and by a kind that takes a list. -/
theorem IsPlain.add_eq (h : IsPlain value) (isList : Bool) (base : Nat) (span : Span) :
    ∃ r, Reading.add isList base span {} (0, value) = .ok r ∧
      (r.finish span).value = some (String.ofList value) ∧ (r.finish span).options = [] := by
  have hsome : value.isEmpty = false := List.isEmpty_eq_false_iff.2 h.nonempty
  unfold Reading.add
  dsimp only
  rw [h.trimmed, if_neg h.noOptions, hsome, h.unquote_eq]
  cases isList with
  | true => exact ⟨_, rfl, by simp [Reading.finish, Text.join], rfl⟩
  | false => exact ⟨_, rfl, rfl, rfl⟩

/-- A plain value is read as itself, without options. -/
theorem IsPlain.readArguments_eq (h : IsPlain value) (kind : DirectiveKind) (base : Nat)
    (span : Span) : ∃ r, readArguments kind base span value = .ok r ∧
      r.value = some (String.ofList value) ∧ r.options = [] := by
  obtain ⟨r, hadd, hvalue, hoptions⟩ := h.add_eq (kind.arity == .list) base span
  refine ⟨r.finish span, ?_, hvalue, hoptions⟩
  unfold readArguments
  rw [h.splitTop_eq]
  simp [hadd, bind, Except.bind, pure, Except.pure]

/-- A kind that takes values is content with one. -/
theorem checkArity_of_value {kind : DirectiveKind} (h : kind.arity ≠ .none) (v : String) :
    checkArity kind (some v) = .ok () := by
  unfold checkArity
  cases harity : kind.arity with
  | none => exact absurd harity h
  | required => rfl
  | optional => rfl
  | list => rfl

/-! ## The line -/

/-- What is read behind the keyword of a line with a value. -/
theorem IsPlain.readRest_eq (h : IsPlain value) {kind : DirectiveKind} (harity : kind.arity ≠ .none)
    (line keyword behind : List Char) (span : Span) :
    ∃ a, readRest kind line keyword ('(' :: (value ++ ')' :: behind)) span = .ok a ∧
      a.kind = kind ∧ a.value = some (String.ofList value) ∧ a.options = [] ∧
      a.description = String.ofList (Text.trimChars behind) := by
  obtain ⟨r, hread, hvalue, hoptions⟩ := h.readArguments_eq kind (keyword.length + 2) span
  refine ⟨⟨kind, r.value, r.options, String.ofList (Text.trimChars behind), span, r.valueSpan⟩,
    ?_, rfl, hvalue, hoptions, rfl⟩
  have hcheck : checkArity kind r.value = .ok () := hvalue ▸ checkArity_of_value harity _
  unfold readRest
  rw [h.closing?_eq behind]
  simp [hread, hcheck, bind, Except.bind]

/-- What is written behind the value. -/
def tailOf (description : String) : List Char :=
  if description = "" then [] else ' ' :: description.toList

/-- A written directive is its mark, its keyword, its value in parentheses and its tail. -/
theorem toList_written (k v d : String) :
    (written k v d).toList = '@' :: (k.toList ++ '(' :: (v.toList ++ ')' :: tailOf d)) := by
  unfold written tailOf
  split
  · simp
  · simp

/-- A trimmed text has no blanks around its characters. -/
theorem trimChars_toList {d : String} (h : Text.trim d = d) :
    Text.trimChars d.toList = d.toList := by
  have htrim := congrArg String.toList h
  rwa [Text.trim, String.toList_ofList] at htrim

/-- The tail without blanks is the description. -/
theorem trimChars_tailOf {d : String} (h : Text.trim d = d) :
    Text.trimChars (tailOf d) = d.toList := by
  unfold tailOf
  split
  · rename_i hempty
    rw [hempty]
    rfl
  · exact trimChars_toList h

/-- A line that is written has no blanks around it. -/
theorem trimChars_written (k v : String) {d : String} (h : Text.trim d = d) :
    Text.trimChars (written k v d).toList = (written k v d).toList := by
  rw [Text.trimChars_eq_self_iff, toList_written]
  constructor
  · intro c hc
    cases hc
    decide
  · intro c hc
    have hend : '@' :: (k.toList ++ '(' :: (v.toList ++ ')' :: tailOf d)) =
        ('@' :: (k.toList ++ '(' :: v.toList)) ++ ')' :: tailOf d := by simp
    rw [hend, List.getLast?_append_of_ne_nil _ (List.cons_ne_nil _ _)] at hc
    unfold tailOf at hc
    split at hc
    · cases hc
      decide
    · rename_i hsome
      have hd : d.toList ≠ [] := by simpa using hsome
      rw [List.getLast?_cons_cons, List.getLast?_cons_of_ne_nil hd] at hc
      exact ((Text.trimChars_eq_self_iff _).1 (trimChars_toList h)).2 c hc

/-- A line that is written is read as what was written. -/
theorem read_written {k v d : String} (hk : IsKeyword k.toList)
    (harity : (DirectiveKind.ofKeyword k).arity ≠ .none) (hv : IsPlain v.toList)
    (hd : Text.trim d = d) (span : Span) :
    ∃ a, (CommentLine.mk (written k v d) span).read = .ok a ∧ a.kind = .ofKeyword k ∧
      a.value = some v ∧ a.options = [] ∧ a.description = d := by
  unfold CommentLine.read
  dsimp only
  rw [trimChars_written k v hd]
  obtain ⟨a, hread, hkind, hvalue, hoptions, hdescription⟩ :=
    hv.readRest_eq harity (written k v d).toList k.toList (tailOf d)
      (span.sub (Text.byteCount ((written k v d).toList.takeWhile Text.isBlank))
        (Text.byteCount (written k v d).toList))
  rw [String.ofList_toList] at hvalue
  rw [trimChars_tailOf hd, String.ofList_toList] at hdescription
  refine ⟨a, ?_, hkind, hvalue, hoptions, hdescription⟩
  have hkeyword : keyword? (written k v d).toList =
      some (k.toList, '(' :: (v.toList ++ ')' :: tailOf d)) := by
    rw [toList_written]
    exact keyword?_written hk _
  unfold readLine
  rw [hkeyword]
  dsimp only
  rw [String.ofList_toList, hread]

end Directive

namespace DirectiveSet

/-- A set of one directive, which has a value and a description and no options. -/
def SaysOnly (set : DirectiveSet) (keyword value description : String) : Prop :=
  ∃ a : Directive, set = { directives := [a] } ∧ a.kind = .ofKeyword keyword ∧
    a.value = some value ∧ a.options = [] ∧ a.description = description

/-- A comment that is one line with a directive says what was written in the line, whatever brackets
are in its value and whatever is in its description. So does a text that is such a line. -/
theorem saysOnly_written {k v d : String} (hk : Directive.IsKeyword k.toList)
    (harity : (DirectiveKind.ofKeyword k).arity ≠ .none) (hv : Directive.IsPlain v.toList)
    (hd : Text.trim d = d) :
    (∀ span, (ofDoc ⟨[⟨Directive.written k v d, span⟩]⟩).SaysOnly k v d) ∧
      ('\n' ∉ (Directive.written k v d).toList →
        (ofText (Directive.written k v d)).SaysOnly k v d) := by
  have hdoc : ∀ span, (ofDoc ⟨[⟨Directive.written k v d, span⟩]⟩).SaysOnly k v d := by
    intro span
    obtain ⟨a, hread, hkind, hvalue, hoptions, hdescription⟩ :=
      Directive.read_written hk harity hv hd span
    refine ⟨a, ?_, hkind, hvalue, hoptions, hdescription⟩
    have hmarked := CommentLine.isMarked_of_says ⟨a, hread, rfl⟩
    have htext : textOf ⟨[⟨Directive.written k v d, span⟩]⟩ = "" := by
      unfold textOf
      rw [List.filter_cons_of_neg (by simp [isDirectiveLine_eq, hmarked])]
      rfl
    have hadd := ofDoc_of_marked [] hmarked
    rw [List.nil_append, htext, addLine_of_ok _ hread] at hadd
    rw [hadd]
    unfold push
    rw [if_neg (by simp [has, first?, ofDoc])]
    rfl
  refine ⟨hdoc, fun hline => ?_⟩
  have hsome : Directive.written k v d ≠ "" := by
    intro hempty
    have hchars := Directive.toList_written k v d
    rw [hempty] at hchars
    cases hchars
  unfold ofText DocComment.ofText
  rw [Text.lines_of_notMem hsome hline]
  exact hdoc _

/-- A route whose path has brackets of every kind, and a description with a quote and brackets that
nothing closes. -/
theorem saysOnly_written_brackets :
    (ofText "@Route(/orgs/\x7borg\x7d/x(y)[z]) lists \"(things), )").SaysOnly "Route"
      "/orgs/\x7borg\x7d/x(y)[z]" "lists \"(things), )" := by
  have hplain : Directive.IsPlain "/orgs/\x7borg\x7d/x(y)[z]".toList :=
    ⟨by decide +kernel, by decide +kernel, by decide +kernel, by decide +kernel,
      by decide +kernel, by decide +kernel, by decide +kernel⟩
  have hkeyword : Directive.IsKeyword "Route".toList :=
    ⟨'R', ['o', 'u', 't', 'e'], by decide +kernel, by decide,
      List.all_eq_true.1 (by decide +kernel)⟩
  exact (saysOnly_written (d := "lists \"(things), )") hkeyword (by decide +kernel) hplain
    (by decide +kernel)).2 (by decide +kernel)

end DirectiveSet

end RouteAtlas
