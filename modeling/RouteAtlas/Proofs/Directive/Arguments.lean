import RouteAtlas.Directive.Parser
import RouteAtlas.Proofs.Outcome
import RouteAtlas.Proofs.Source.Marks
import RouteAtlas.Proofs.Text.Pieces

/-!
# Arguments of a directive line

Where the value of a directive stands in its line. The line is cut three times, at the keyword, at
the parentheses and at the commas, and none of the cuts loses a character (`Call.exists_append`);
so the offset at which a value is reported is the number of bytes before it. What the parts of the
argument list say together is an invariant of reading them one by one (`readArguments_cases`).
-/

set_option autoImplicit false

namespace RouteAtlas.Directive

/-! ## Cutting the line -/

/-- What closes a list of arguments is a parenthesis between them and the rest. -/
theorem closingFrom_eq_some {q : Quoting} {depth : Nat} {cs args rest : List Char}
    (h : closingFrom q depth cs = some (args, rest)) : cs = args ++ ')' :: rest := by
  induction cs generalizing q depth args with
  | nil => cases q <;> cases h
  | cons c cs ih =>
    have hmore : ∀ (q : Quoting) (depth : Nat),
        (closingFrom q depth cs).map (fun found => (c :: found.1, found.2)) = some (args, rest) →
        c :: cs = args ++ ')' :: rest := by
      intro q depth hmap
      obtain ⟨⟨args', rest'⟩, hfound, heq⟩ := Option.map_eq_some_iff.1 hmap
      cases heq
      rw [ih hfound]
      rfl
    cases q with
    | inside => exact hmore _ _ h
    | escaped => exact hmore _ _ h
    | outside =>
      rw [closingFrom.eq_def] at h
      dsimp only at h
      split at h
      · exact hmore _ _ h
      · split at h
        · split at h
          · cases h
          · split at h
            · rename_i hclose
              cases h
              rw [hclose]
              rfl
            · cases h
          · exact hmore _ _ h
        · exact hmore _ _ h

/-- The characters of a keyword. -/
def isWord (c : Char) : Bool := c.isAlphanum || c = '_'

/-- A character of keywords takes one byte. -/
theorem utf8Size_of_isWord {c : Char} (h : isWord c = true) : c.utf8Size = 1 := by
  rw [Char.utf8Size_eq_one_iff, UInt32.le_iff_toNat_le]
  simp only [isWord, Char.isAlphanum, Char.isAlpha, Char.isUpper, Char.isLower, Char.isDigit,
    Bool.or_eq_true, Bool.and_eq_true, decide_eq_true_eq, ge_iff_le,
    UInt32.le_iff_toNat_le] at h
  rcases h with ((⟨-, h⟩ | ⟨-, h⟩) | ⟨-, h⟩) | rfl
  · exact h.trans (by decide)
  · exact h.trans (by decide)
  · exact h.trans (by decide)
  · decide

/-- A keyword takes as many bytes as characters. -/
theorem byteCount_of_isWord {cs : List Char} (h : ∀ c ∈ cs, isWord c = true) :
    Text.byteCount cs = cs.length := by
  induction cs with
  | nil => rfl
  | cons c cs ih =>
    have hrest := ih fun x hx => h x (List.mem_cons_of_mem c hx)
    have hc := utf8Size_of_isWord (h c (List.mem_cons_self ..))
    have hstep : Text.byteCount (c :: cs) = c.utf8Size + Text.byteCount cs := rfl
    rw [hstep, hrest, hc, List.length_cons]
    omega

/-- The keyword of a line is a word behind its mark. -/
theorem keyword?_eq_some {line keyword rest : List Char}
    (h : keyword? line = some (keyword, rest)) :
    line = '@' :: keyword ++ rest ∧ ∀ c ∈ keyword, isWord c = true := by
  unfold keyword? at h
  split at h
  · rename_i c cs
    split at h
    · rename_i halpha
      cases h
      refine ⟨by simp, ?_⟩
      intro x hx
      rcases List.mem_cons.1 hx with rfl | hx
      · simp [isWord, Char.isAlphanum, halpha]
      · exact List.mem_takeWhile_imp (p := isWord) hx
    · cases h
  · cases h

/-- Parts with a comma behind each of them. -/
def led (parts : List Part) : List Char := parts.flatMap fun p => p.2 ++ [',']

/-- A comma stands behind the first part. -/
theorem led_cons (first : Part) (parts : List Part) :
    led (first :: parts) = first.2 ++ [','] ++ led parts := rfl

/-- A cut gives at least one part. -/
theorem splitFrom_ne_nil (q : Quoting) (depth start : Nat) (part : List Char) (offset : Nat)
    (cs : List Char) : splitFrom q depth start part offset cs ≠ [] := by
  induction cs generalizing q depth start part offset with
  | nil => cases q <;> simp [splitFrom]
  | cons c cs ih =>
    cases q with
    | inside => exact ih _ _ _ _ _
    | escaped => exact ih _ _ _ _ _
    | outside =>
      rw [splitFrom.eq_def]
      dsimp only
      split_ifs
      · exact ih _ _ _ _ _
      · exact ih _ _ _ _ _
      · simp
      · exact ih _ _ _ _ _

/-- The parts of a list are what stands between its commas, and each begins where it says. -/
theorem splitFrom_eq_append {q : Quoting} {depth start offset : Nat} {part cs : List Char}
    {before behind : List Part} {p : Part} (hoffset : offset = start + Text.byteCount part.reverse)
    (h : splitFrom q depth start part offset cs = before ++ p :: behind) :
    part.reverse ++ cs = led before ++ p.2 ++ (behind.flatMap fun p => ',' :: p.2) ∧
      p.1 = start + Text.byteCount (led before) := by
  induction cs generalizing q depth start part offset before p behind with
  | nil =>
    have hone : [(start, part.reverse)] = before ++ p :: behind := by
      cases q <;> exact h
    cases before with
    | nil =>
      cases hone
      simp [led, Text.byteCount]
    | cons first before =>
      have hnone := congrArg List.length hone
      simp at hnone
  | cons c cs ih =>
    have hmore : ∀ (q : Quoting) (depth : Nat),
        splitFrom q depth start (c :: part) (offset + c.utf8Size) cs = before ++ p :: behind →
        part.reverse ++ c :: cs = led before ++ p.2 ++ (behind.flatMap fun p => ',' :: p.2) ∧
          p.1 = start + Text.byteCount (led before) := by
      intro q depth hsplit
      have hnext : offset + c.utf8Size = start + Text.byteCount (c :: part).reverse := by
        rw [List.reverse_cons, Text.byteCount_append, hoffset]
        simp [Text.byteCount]
        omega
      have hrest := ih hnext hsplit
      rw [List.reverse_cons, List.append_assoc, List.singleton_append] at hrest
      exact hrest
    cases q with
    | inside => exact hmore _ _ h
    | escaped => exact hmore _ _ h
    | outside =>
      rw [splitFrom.eq_def] at h
      dsimp only at h
      split_ifs at h with hopen hclose hcomma
      · exact hmore _ _ h
      · exact hmore _ _ h
      · -- A comma ends a part, and the next one begins behind it.
        obtain rfl : c = ',' := by simp at hcomma; exact hcomma.1
        have hnext : offset + ','.utf8Size =
            offset + ','.utf8Size + Text.byteCount [].reverse := rfl
        cases before with
        | nil =>
          rw [List.nil_append, List.cons.injEq] at h
          obtain ⟨rfl, hbehind⟩ := h
          cases behind with
          | nil => exact absurd hbehind (splitFrom_ne_nil _ _ _ _ _ _)
          | cons second behind =>
            have hrest := (ih hnext (show _ = [] ++ second :: behind from hbehind)).1
            simp only [List.reverse_nil, List.nil_append] at hrest
            simp [led, hrest, Text.byteCount]
        | cons first before =>
          rw [List.cons_append, List.cons.injEq] at h
          obtain ⟨rfl, hbehind⟩ := h
          obtain ⟨hcs, hplace⟩ := ih hnext hbehind
          simp only [List.reverse_nil, List.nil_append] at hcs
          refine ⟨by simp [led, hcs], ?_⟩
          have hcomma : Text.byteCount [','] = ','.utf8Size := rfl
          rw [hplace, hoffset, led_cons, Text.byteCount_append, Text.byteCount_append, hcomma]
          dsimp only
          omega
      · exact hmore _ _ h

/-! ## What the parts say together -/

/-- Whether a part is a value, and not the options. -/
def isItem (p : Part) : Bool := (Text.trimChars p.2).head? != some '{'

/-- The value that a part gives. -/
def itemText (p : Part) : String := String.ofList (unquote (Text.trimChars p.2))

/-- Where the value of a part begins, in bytes of the line. -/
def itemStart (base : Nat) (p : Part) : Nat :=
  base + p.1 + Text.byteCount (p.2.takeWhile Text.isBlank)

/-- The bytes of a part without the blanks around it. -/
def itemSize (p : Part) : Nat := Text.byteCount (Text.trimChars p.2)

variable {base : Nat} {span : Span}

/-- What has been read of the parts of a kind that takes a list. -/
structure Reading.Lists (base : Nat) (items : List Part) (r : Reading) : Prop where
  value : r.value = none ∧ r.valueSpan = none
  texts : r.items = items.map itemText
  range : r.range = items.head?.bind fun first => items.getLast?.map fun last =>
    (itemStart base first, itemStart base last + itemSize last)

/-- What has been read of the parts of any other kind. -/
structure Reading.Holds (base : Nat) (span : Span) (items : List Part) (r : Reading) : Prop where
  range : r.range = none
  value : (items = [] ∧ r.value = none ∧ r.valueSpan = none) ∨
    ∃ p, items = [p] ∧ r.value = some (itemText p) ∧
      r.valueSpan = some (span.sub (itemStart base p) (itemSize p))

/-- A part that is no options is one more value, of a list or the first one. -/
theorem Reading.add_cases {isList : Bool} {r r' : Reading} {p : Part}
    (h : r.add isList base span p = .ok r') :
    (isItem p = false ∧ ∃ options, r' = { r with options := options }) ∨
    (isItem p = true ∧ isList = true ∧
      r' = { r with
        items := r.items ++ [itemText p]
        range := some ((r.range.map (·.1)).getD (itemStart base p),
          itemStart base p + itemSize p) }) ∨
    (isItem p = true ∧ isList = false ∧ r.value = none ∧
      r' = { r with
        value := some (itemText p)
        valueSpan := some (span.sub (itemStart base p) (itemSize p)) }) := by
  unfold Reading.add at h
  dsimp only at h
  split at h
  · rename_i hbrace
    left
    refine ⟨by simp [isItem, hbrace], ?_⟩
    split at h
    · cases h
      exact ⟨_, rfl⟩
    · cases h
  · rename_i hbrace
    have hitem : isItem p = true := by simpa [isItem] using hbrace
    right
    split at h
    · rename_i hlist
      have hlist : isList = true := by simp at hlist; exact hlist.1.1
      cases h
      exact .inl ⟨hitem, hlist, rfl⟩
    · split at h
      · rename_i hsingle
        have hsingle : isList = false ∧ r.value = none := by
          simp at hsingle
          exact hsingle.1
        cases h
        exact .inr ⟨hitem, hsingle.1, hsingle.2, rfl⟩
      · cases h

/-- One more part is one more item of a list. -/
theorem Reading.Lists.add {items : List Part} {r r' : Reading} {p : Part}
    (hr : r.Lists base items) (h : r.add true base span p = .ok r') :
    r'.Lists base (items ++ [p].filter isItem) := by
  rcases Reading.add_cases h with ⟨hitem, options, rfl⟩ | ⟨hitem, -, rfl⟩ | ⟨-, hother, -⟩
  · simp only [List.filter_cons, hitem, Bool.false_eq_true, if_false, List.filter_nil,
      List.append_nil]
    exact ⟨hr.value, hr.texts, hr.range⟩
  · simp only [List.filter_cons, hitem, if_true, List.filter_nil]
    refine ⟨hr.value, ?_, ?_⟩
    · simp [hr.texts]
    · have hlast : (items ++ [p]).getLast? = some p := List.getLast?_concat
      cases items with
      | nil => simp [hr.range]
      | cons first rest =>
        have hold := List.getLast?_eq_some_getLast (List.cons_ne_nil first rest)
        dsimp only
        rw [hlast, hr.range, hold]
        rfl
  · cases hother

/-- One more part is one more item of a directive that is no list. -/
theorem Reading.Holds.add {items : List Part} {r r' : Reading} {p : Part}
    (hr : r.Holds base span items) (h : r.add false base span p = .ok r') :
    r'.Holds base span (items ++ [p].filter isItem) := by
  rcases Reading.add_cases h with ⟨hitem, options, rfl⟩ | ⟨-, hother, -⟩ | ⟨hitem, -, hnone, rfl⟩
  · simp only [List.filter_cons, hitem, Bool.false_eq_true, if_false, List.filter_nil,
      List.append_nil]
    exact ⟨hr.range, hr.value⟩
  · cases hother
  · simp only [List.filter_cons, hitem, if_true, List.filter_nil]
    refine ⟨hr.range, .inr ⟨p, ?_, rfl, rfl⟩⟩
    rcases hr.value with ⟨rfl, -⟩ | ⟨_, -, hsome, -⟩
    · rfl
    · rw [hnone] at hsome
      cases hsome

/-- What every part adds to, all parts have added up to. -/
theorem foldlM_add {isList : Bool} {P : List Part → Reading → Prop}
    (hadd : ∀ items r r' p, P items r → Reading.add isList base span r p = .ok r' →
      P (items ++ [p].filter isItem) r') (parts : List Part) {items : List Part} {r r' : Reading}
    (hr : P items r) (h : parts.foldlM (Reading.add isList base span) r = .ok r') :
    P (items ++ parts.filter isItem) r' := by
  induction parts generalizing items r with
  | nil =>
    cases h
    simpa using hr
  | cons p parts ih =>
    rw [List.foldlM_cons] at h
    obtain ⟨next, hp, h⟩ := bind_eq_ok h
    have hrest := ih (hadd _ _ _ _ hr hp) h
    rwa [List.append_assoc, ← List.filter_append, List.singleton_append] at hrest

/-- The values among the arguments of a line. -/
def itemsOf (args : List Char) : List Part := (splitTop args).filter isItem

/-- What is read of a list holds the items of its arguments. -/
theorem lists_of_foldlM_add {args : List Char} {all : Reading}
    (h : (splitTop args).foldlM (Reading.add true base span) {} = .ok all) :
    all.Lists base (itemsOf args) := by
  have hstart : ({} : Reading).Lists base [] := ⟨⟨rfl, rfl⟩, rfl, rfl⟩
  have hfold := foldlM_add (P := fun items r => r.Lists base items)
    (fun _ _ _ _ hr h => hr.add h) (splitTop args) hstart h
  simpa [itemsOf] using hfold

/-- What is read of a directive that is no list holds the items of its arguments. -/
theorem holds_of_foldlM_add {args : List Char} {all : Reading}
    (h : (splitTop args).foldlM (Reading.add false base span) {} = .ok all) :
    all.Holds base span (itemsOf args) := by
  have hstart : ({} : Reading).Holds base span [] := ⟨rfl, .inl ⟨rfl, rfl, rfl⟩⟩
  have hfold := foldlM_add (P := fun items r => r.Holds base span items)
    (fun _ _ _ _ hr h => hr.add h) (splitTop args) hstart h
  simpa [itemsOf] using hfold

/-- A kind that takes a list has all the values, and any other kind has one of them at most. -/
theorem readArguments_cases {kind : DirectiveKind} {args : List Char} {r : Reading}
    (h : readArguments kind base span args = .ok r) :
    (r.value = none ∧ r.valueSpan = none) ∨
    (kind.arity ≠ .list ∧ ∃ p, itemsOf args = [p] ∧ r.value = some (itemText p) ∧
      r.valueSpan = some (span.sub (itemStart base p) (itemSize p))) ∨
    (kind.arity = .list ∧ ∃ first last, (itemsOf args).head? = some first ∧
      (itemsOf args).getLast? = some last ∧
      r.value = some (Text.join ", " ((itemsOf args).map itemText)) ∧
      r.valueSpan = some (span.sub (itemStart base first)
        (itemStart base last + itemSize last - itemStart base first))) := by
  unfold readArguments at h
  dsimp only at h
  split at h
  · cases h
  · obtain ⟨all, hread, h⟩ := bind_eq_ok h
    cases h
    by_cases hlist : kind.arity = .list
    · rw [hlist, beq_self_eq_true] at hread
      have hall := lists_of_foldlM_add hread
      cases hfirst : (itemsOf args).head? with
      | none =>
        left
        have hrange : all.range = none := by rw [hall.range, hfirst, Option.bind_none]
        rw [Reading.finish, hrange]
        exact hall.value
      | some first =>
        cases hlast : (itemsOf args).getLast? with
        | none =>
          rw [List.getLast?_eq_none_iff.1 hlast] at hfirst
          cases hfirst
        | some last =>
          right
          right
          have hrange := hall.range
          rw [hfirst, hlast, Option.bind_some, Option.map_some] at hrange
          refine ⟨hlist, first, last, rfl, rfl, ?_, ?_⟩
          · rw [Reading.finish, hrange, ← hall.texts]
          · rw [Reading.finish, hrange]
    · have hother : (kind.arity == .list) = false := beq_eq_false_iff_ne.2 hlist
      rw [hother] at hread
      have hall := holds_of_foldlM_add hread
      rw [Reading.finish, hall.range]
      rcases hall.value with ⟨-, hvalue⟩ | hvalue
      · exact .inl hvalue
      · exact .inr (.inl ⟨hlist, hvalue⟩)

/-! ## Where the arguments stand -/

/-- A directive line with arguments: its keyword, what is between the parentheses, and what is
behind them. -/
structure Call (line : List Char) (kind : DirectiveKind) where
  keyword : List Char
  args : List Char
  behind : List Char
  line_eq : line = '@' :: keyword ++ '(' :: args ++ ')' :: behind
  kind_eq : kind = .ofKeyword (String.ofList keyword)
  word : ∀ c ∈ keyword, isWord c = true
  closes : closing? ('(' :: args ++ ')' :: behind) = some ('(' :: args, behind)

namespace Call

variable {line : List Char} {kind : DirectiveKind}

/-- What stands in the line before a part, the leading blanks of the part included. -/
def lead (call : Call line kind) (before : List Part) (p : Part) : List Char :=
  '@' :: call.keyword ++ '(' :: led before ++ p.2.takeWhile Text.isBlank

/-- A part of the arguments stands at a place, blanks around it aside; `span` is the span of the
line. -/
def Places (call : Call line kind) (span : Span) (p : Part) (place : Span) : Prop :=
  ∃ before behind, splitTop call.args = before ++ p :: behind ∧
    place = span.sub (Text.byteCount (call.lead before p)) (itemSize p)

/-- The line is not changed by the cuts, so a part begins as far in as its offset says. -/
theorem exists_append (call : Call line kind) {before behind : List Part} {p : Part}
    (h : splitTop call.args = before ++ p :: behind) :
    (∃ back, line = call.lead before p ++ Text.trimChars p.2 ++ back) ∧
      itemStart (call.keyword.length + 2) p = Text.byteCount (call.lead before p) := by
  have hsplit : splitFrom .outside 0 0 [] 0 call.args = before ++ p :: behind := by
    unfold splitTop at h
    split at h
    · simp at h
    · exact h
  obtain ⟨hargs, hplace⟩ := splitFrom_eq_append rfl hsplit
  rw [List.reverse_nil, List.nil_append] at hargs
  constructor
  · obtain ⟨back, hp⟩ := Text.exists_append_trimChars p.2
    refine ⟨back ++ ((behind.flatMap fun p => ',' :: p.2) ++ ')' :: call.behind), ?_⟩
    calc line = '@' :: call.keyword ++ '(' :: (led before ++ p.2 ++
          (behind.flatMap fun p => ',' :: p.2)) ++ ')' :: call.behind := by
          rw [← hargs]
          exact call.line_eq
      _ = '@' :: call.keyword ++ '(' :: (led before ++
          (p.2.takeWhile Text.isBlank ++ Text.trimChars p.2 ++ back) ++
          (behind.flatMap fun p => ',' :: p.2)) ++ ')' :: call.behind := by
          rw [← hp]
      _ = _ := by simp [lead]
  · have hkeyword : Text.byteCount ('@' :: call.keyword) = call.keyword.length + 1 := by
      have hword := byteCount_of_isWord call.word
      have hstep : Text.byteCount ('@' :: call.keyword) = 1 + Text.byteCount call.keyword := rfl
      omega
    have hopen : Text.byteCount ('(' :: led before) = 1 + Text.byteCount (led before) := rfl
    rw [lead, Text.byteCount_append, Text.byteCount_append, hkeyword, hopen, itemStart, hplace]
    omega

/-- The bytes at the place of a part are the part without the blanks around it. -/
theorem Places.marks {call : Call line kind} {span place : Span} {p : Part}
    (h : call.Places span p place) {bytes : List UInt8} (hspan : span.Marks bytes line)
    (hline : '\n' ∉ line) : place.Marks bytes (Text.trimChars p.2) := by
  obtain ⟨before, behind, hsplit, rfl⟩ := h
  obtain ⟨⟨back, heq⟩, -⟩ := call.exists_append hsplit
  rw [heq] at hspan hline
  exact hspan.sub fun hmem => hline (List.mem_append_left back hmem)

/-- Every part is placed. -/
theorem exists_places (call : Call line kind) (span : Span) {p : Part}
    (h : p ∈ itemsOf call.args) :
    call.Places span p (span.sub (itemStart (call.keyword.length + 2) p) (itemSize p)) := by
  obtain ⟨before, behind, hsplit⟩ := List.append_of_mem (List.mem_of_mem_filter h)
  exact ⟨before, behind, hsplit, by rw [(call.exists_append hsplit).2]⟩

/-- A part ends inside the line. -/
theorem itemEnd_le (call : Call line kind) {p : Part} (h : p ∈ splitTop call.args) :
    itemStart (call.keyword.length + 2) p + itemSize p ≤ Text.byteCount line := by
  obtain ⟨before, behind, hsplit⟩ := List.append_of_mem h
  obtain ⟨⟨back, heq⟩, hstart⟩ := call.exists_append hsplit
  have hline := congrArg Text.byteCount heq
  rw [Text.byteCount_append, Text.byteCount_append] at hline
  rw [hstart, itemSize]
  omega

/-- The first value begins before the last one does, or they are the same. -/
theorem itemStart_first_le (call : Call line kind) {first last : Part}
    (hfirst : (itemsOf call.args).head? = some first)
    (hlast : (itemsOf call.args).getLast? = some last) :
    itemStart (call.keyword.length + 2) first ≤ itemStart (call.keyword.length + 2) last := by
  obtain ⟨others, hitems⟩ := List.head?_eq_some_iff.1 hfirst
  obtain ⟨before, behind, hsplit, -, -, hothers⟩ := List.filter_eq_cons_iff.1 hitems
  have hmem : last ∈ first :: others := hitems ▸ List.mem_of_getLast? hlast
  rcases List.mem_cons.1 hmem with rfl | hmem
  · exact le_rfl
  · rw [← hothers] at hmem
    obtain ⟨middle, after, rfl⟩ := List.append_of_mem (List.mem_of_mem_filter hmem)
    have hlater : splitTop call.args = (before ++ first :: middle) ++ last :: after := by
      rw [hsplit]
      simp
    rw [(call.exists_append hsplit).2, (call.exists_append hlater).2]
    have hfirst : Text.byteCount first.2 = Text.byteCount (first.2.takeWhile Text.isBlank) +
        Text.byteCount (first.2.dropWhile Text.isBlank) := by
      rw [← Text.byteCount_append, List.takeWhile_append_dropWhile]
    have hled : led (before ++ first :: middle) = led before ++ (first.2 ++ [','] ++ led middle) :=
      List.flatMap_append
    have hopen : ∀ cs : List Char, Text.byteCount ('(' :: cs) = 1 + Text.byteCount cs :=
      fun _ => rfl
    simp only [lead, hled, Text.byteCount_append, hopen]
    omega

end Call

/-- What a line with arguments says is read from between its parentheses. -/
theorem readRest_call {kind : DirectiveKind} {line keyword cs : List Char} {a : Directive}
    (hline : line = '@' :: keyword ++ '(' :: cs) (hkind : kind = .ofKeyword (String.ofList keyword))
    (hword : ∀ c ∈ keyword, isWord c = true)
    (h : readRest kind line keyword ('(' :: cs) span = .ok a) :
    a.span = span ∧ checkArity a.kind a.value = .ok () ∧
      ∃ (call : Call line a.kind) (r : Reading),
        readArguments a.kind (call.keyword.length + 2) span call.args = .ok r ∧
          a.value = r.value ∧ a.valueSpan = r.valueSpan := by
  unfold readRest at h
  cases hclose : closing? ('(' :: cs) with
  | none =>
    rw [hclose] at h
    cases h
  | some found =>
    obtain ⟨args, behind⟩ := found
    rw [hclose] at h
    dsimp only at h
    have hcs : '(' :: cs = args ++ ')' :: behind := closingFrom_eq_some hclose
    cases args with
    | nil => cases hcs
    | cons c args =>
      rw [List.cons_append, List.cons.injEq] at hcs
      obtain ⟨rfl, rfl⟩ := hcs
      obtain ⟨r, hread, h⟩ := bind_eq_ok h
      obtain ⟨⟨⟩, harity, h⟩ := bind_eq_ok h
      cases h
      have hcall : line = '@' :: keyword ++ '(' :: args ++ ')' :: behind := by
        rw [hline]
        simp
      exact ⟨rfl, harity, ⟨keyword, args, behind, hcall, hkind, hword, hclose⟩, r, hread, rfl, rfl⟩

/-- A line that can be read has a value as its kind demands, and its arguments tell it. -/
theorem readLine_cases {line : List Char} {a : Directive} (h : readLine line span = .ok a) :
    a.span = span ∧ checkArity a.kind a.value = .ok () ∧
      ((a.value = none ∧ a.valueSpan = none) ∨
        ∃ (call : Call line a.kind) (r : Reading),
          readArguments a.kind (call.keyword.length + 2) span call.args = .ok r ∧
            a.value = r.value ∧ a.valueSpan = r.valueSpan) := by
  unfold readLine at h
  split at h
  · cases h
  · rename_i keyword rest hkeyword
    obtain ⟨hline, hword⟩ := keyword?_eq_some hkeyword
    dsimp only at h
    split at h
    · rename_i directive hrest
      cases h
      by_cases hcall : ∃ cs, rest = '(' :: cs
      · obtain ⟨cs, rfl⟩ := hcall
        obtain ⟨hspan, harity, hvalue⟩ := readRest_call hline rfl hword hrest
        exact ⟨hspan, harity, .inr hvalue⟩
      · unfold readRest at hrest
        split at hrest
        · rename_i cs
          exact absurd ⟨cs, rfl⟩ hcall
        · split at hrest
          · obtain ⟨⟨⟩, harity, hrest⟩ := bind_eq_ok hrest
            cases hrest
            exact ⟨rfl, harity, .inl ⟨rfl, rfl⟩⟩
          · cases hrest
    · cases h

/-- What is wrong with a line is said about the whole line. -/
theorem span_of_readLine {line : List Char} {m : Malformed} (h : readLine line span = .error m) :
    m.issue.span = span := by
  unfold readLine at h
  split at h
  · cases h
    rfl
  · dsimp only at h
    split at h
    · cases h
    · cases h
      rfl

end RouteAtlas.Directive
