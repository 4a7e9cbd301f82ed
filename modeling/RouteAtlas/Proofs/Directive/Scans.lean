import RouteAtlas.Proofs.Directive.Arguments

/-!
# The two scans of an argument list

The search for the closing parenthesis and the cut at the commas read the same characters with the
same rules for literals and brackets, but each in its own way: the search gives up at a bracket that
nothing opened, and the cut passes over it. Both are described here by what a text says without any
scan: which of its characters stand outside of literals (`bareFrom`), and how many brackets are open
behind them (`depthAfter`). The search ends exactly where the depth returns to zero for the first
time (`closingFrom_eq_some_iff`), and from this follows that the cut of what it has found never
meets a bracket that nothing opened (`scans_agree`).
-/

set_option autoImplicit false

namespace RouteAtlas.Directive

/-! ## Literals and brackets -/

/-- The state with respect to literals behind some characters. -/
def quotingAfter (q : Quoting) (cs : List Char) : Quoting := cs.foldl Quoting.step q

/-- The characters that stand outside of literals, the opening quotes included. -/
def bareFrom : Quoting → List Char → List Char
  | _, [] => []
  | .outside, c :: cs => c :: bareFrom (Quoting.outside.step c) cs
  | .inside, c :: cs => bareFrom (Quoting.inside.step c) cs
  | .escaped, c :: cs => bareFrom (Quoting.escaped.step c) cs

/-- How many brackets a character opens. -/
def opens (c : Char) : Int := if isOpening c then 1 else if isClosing c then -1 else 0

/-- How many brackets are open behind some characters, if `depth` were open before them. -/
def depthAfter (depth : Int) (cs : List Char) : Int :=
  cs.foldl (fun depth c => depth + opens c) depth

/-- Characters that close no bracket but those they open and `depth` others. -/
def Nested (depth : Int) (cs : List Char) : Prop :=
  ∀ before, before <+: cs → 0 ≤ depthAfter depth before

instance (depth : Int) (cs : List Char) : Decidable (Nested depth cs) :=
  decidable_of_iff (∀ before ∈ cs.inits, 0 ≤ depthAfter depth before) (by
    simp only [List.mem_inits, Nested])

/-- How many brackets some characters open and do not close, literals aside. The number is negative
if they close more brackets than they open. -/
def openBrackets (cs : List Char) : Int := depthAfter 0 (bareFrom .outside cs)

/-- How many brackets are open behind one more character, if a bracket that nothing opened is passed
over. -/
def nest (depth : Nat) (c : Char) : Nat :=
  if isOpening c then depth + 1 else if isClosing c then depth - 1 else depth

/-- How many brackets are open behind some characters, if those that nothing opened are passed
over. -/
def nesting (q : Quoting) (depth : Nat) (cs : List Char) : Nat := (bareFrom q cs).foldl nest depth

/-- The depth returns to zero with the character behind `front`, and not before. -/
structure ReturnsAt (front : List Char) (c : Char) : Prop where
  outside : quotingAfter .outside front = .outside
  zero : openBrackets (front ++ [c]) = 0
  first : ∀ before, before ≠ [] → before <+: front → 0 < openBrackets before

/-- Behind some characters a text is outside of literals, and every bracket opened in them is
closed: no stretch that they end with opens more brackets than it closes. -/
structure AtTop (front : List Char) : Prop where
  outside : quotingAfter .outside front = .outside
  closed : ∀ stretch, stretch <:+ bareFrom .outside front → depthAfter 0 stretch ≤ 0

/-- Behind some characters, whatever follows them, the cut at the commas goes on from the state `q`
with `depth` brackets open. -/
def CutStands (front : List Char) (q : Quoting) (depth : Nat) : Prop :=
  ∃ (parts : List Part) (start : Nat) (part : List Char), ∀ rest,
    splitFrom .outside 0 0 [] 0 (front ++ rest) =
      parts ++ splitFrom q depth start part (Text.byteCount front) rest

/-- The cut at the commas ends outside of literals with no bracket open, and where it meets a
closing bracket outside of literals, as many brackets are open as the text says, and one at least.
So it is at the top where the text has closed as many brackets as it has opened. -/
structure CutsClean (args : List Char) : Prop where
  ends : CutStands args .outside 0
  opened : ∀ before c, before ++ [c] <+: args → quotingAfter .outside before = .outside →
    isClosing c = true → ∃ depth : Nat, CutStands before .outside depth ∧
      (depth : Int) = openBrackets before ∧ 0 < depth
  top : ∀ before, before <+: args →
    (AtTop before ↔ quotingAfter .outside before = .outside ∧ openBrackets before = 0)

/-- The comma behind `front` stands between two of the parts. -/
def Separates (parts : List Part) (front : List Char) : Prop :=
  ∃ before p next behind, parts = before ++ p :: next :: behind ∧ front = led before ++ p.2

/-- Some parts are what a list is cut into at the commas outside of literals and brackets. -/
structure IsCut (args : List Char) (parts : List Part) : Prop where
  joined : [','].intercalate (parts.map (·.2)) = args
  placed : ∀ p ∈ parts, ∃ front back, args = front ++ p.2 ++ back ∧ Text.byteCount front = p.1
  separates : ∀ front back, args = front ++ ',' :: back → (Separates parts front ↔ AtTop front)

section Scans

variable {q : Quoting} {c : Char} {cs front args behind : List Char}

/-- What is bare in a text is what is bare in each piece, with the state in which the piece
begins. -/
theorem bareFrom_append (q : Quoting) (front rest : List Char) :
    bareFrom q (front ++ rest) = bareFrom q front ++ bareFrom (quotingAfter q front) rest := by
  induction front generalizing q with
  | nil => rfl
  | cons c cs ih =>
    have hquoting : quotingAfter q (c :: cs) = quotingAfter (q.step c) cs := rfl
    rw [hquoting]
    cases q with
    | outside => simp only [List.cons_append, bareFrom, ih]
    | inside => simp only [List.cons_append, bareFrom, ih]
    | escaped => simp only [List.cons_append, bareFrom, ih]

/-- The first character within a literal is not bare. -/
theorem bareFrom_cons_of_ne (h : q ≠ .outside) (c : Char) (cs : List Char) :
    bareFrom q (c :: cs) = bareFrom (q.step c) cs := by
  cases q with
  | outside => exact absurd rfl h
  | inside => rfl
  | escaped => rfl

/-- An opening bracket begins no literal. -/
theorem step_of_isOpening (h : isOpening c = true) : Quoting.outside.step c = .outside := by
  refine if_neg ?_
  rintro rfl
  exact absurd h (by decide)

/-- A closing bracket begins no literal. -/
theorem step_of_isClosing (h : isClosing c = true) : Quoting.outside.step c = .outside := by
  refine if_neg ?_
  rintro rfl
  exact absurd h (by decide)

/-- No bracket both opens and closes. -/
theorem not_isOpening_of_isClosing (h : isClosing c = true) : ¬ isOpening c = true := by
  have hcases : (c = ')' ∨ c = '}') ∨ c = ']' := by simpa [isClosing] using h
  rcases hcases with (rfl | rfl) | rfl <;> decide

/-- A closing bracket closes one. -/
theorem opens_of_isClosing (h : isClosing c = true) : opens c = -1 := by
  rw [opens, if_neg (not_isOpening_of_isClosing h), if_pos h]

/-- The depth behind two pieces is that behind the second from that behind the first. -/
theorem depthAfter_append (depth : Int) (front rest : List Char) :
    depthAfter depth (front ++ rest) = depthAfter (depthAfter depth front) rest :=
  List.foldl_append

/-- The depth at the start is added throughout. -/
theorem depthAfter_eq_add (depth : Int) (cs : List Char) :
    depthAfter depth cs = depth + depthAfter 0 cs := by
  induction cs generalizing depth with
  | nil => exact (Int.add_zero depth).symm
  | cons c cs ih =>
    have hstep : ∀ d : Int, depthAfter d (c :: cs) = depthAfter (d + opens c) cs := fun _ => rfl
    rw [hstep, hstep, ih, ih (0 + opens c)]
    omega

/-- What is behind the first character is nested at the depth it leads to. -/
theorem Nested.tail {depth : Int} (h : Nested depth (c :: cs)) : Nested (depth + opens c) cs :=
  fun before hbefore => h (c :: before) (List.cons_prefix_cons.2 ⟨rfl, hbefore⟩)

/-- Nothing is nested at a negative depth. -/
theorem Nested.nonneg {depth : Int} (h : Nested depth cs) : 0 ≤ depth := h [] List.nil_prefix

/-- The empty text is nested at every depth. -/
theorem nested_nil (depth : Nat) : Nested depth [] := by
  intro before hbefore
  rw [List.prefix_nil.1 hbefore]
  exact Int.natCast_nonneg depth

/-- Nesting can be told from behind the first character, if the depth is none below zero. -/
theorem nested_cons_iff_tail {depth : Nat} :
    Nested depth (c :: cs) ↔ Nested (depth + opens c) cs := by
  refine ⟨Nested.tail, fun h before hbefore => ?_⟩
  cases before with
  | nil => exact Int.natCast_nonneg depth
  | cons first before =>
    obtain ⟨rfl, hshorter⟩ := List.cons_prefix_cons.1 hbefore
    exact h before hshorter

/-! ## The depth of the cut -/

/-- One more character opens as many brackets as it does, but never leads below zero. -/
theorem nest_eq_max (depth : Nat) (c : Char) :
    ((nest depth c : Nat) : Int) = max 0 (depth + opens c) := by
  unfold nest opens
  split_ifs <;> omega

/-- As long as nothing is closed that is not open, no bracket is passed over. -/
theorem foldl_nest_of_nested {depth : Nat} (h : Nested depth cs) :
    (cs.foldl nest depth : Nat) = depthAfter depth cs := by
  induction cs generalizing depth with
  | nil => rfl
  | cons c cs ih =>
    have htail := h.tail
    have hstep : depthAfter depth (c :: cs) = depthAfter (depth + opens c) cs := rfl
    have hnest : ((nest depth c : Nat) : Int) = depth + opens c := by
      rw [nest_eq_max, max_eq_right htail.nonneg]
    rw [List.foldl_cons, hstep, ← hnest, ih (hnest ▸ htail)]

/-- The brackets that are open are those of the stretch at the end that opens the most. -/
theorem foldl_nest_isGreatest (cs : List Char) :
    IsGreatest {n : Int | ∃ stretch, stretch <:+ cs ∧ depthAfter 0 stretch = n}
      ((cs.foldl nest 0 : Nat) : Int) := by
  induction cs using List.reverseRecOn with
  | nil =>
    refine ⟨⟨[], List.nil_suffix, rfl⟩, ?_⟩
    rintro n ⟨stretch, hstretch, rfl⟩
    rw [List.suffix_nil.1 hstretch]
    rfl
  | append_singleton cs c ih =>
    obtain ⟨⟨most, hmost, heq⟩, hle⟩ := ih
    have hlast : ∀ stretch, depthAfter 0 (stretch ++ [c]) = depthAfter 0 stretch + opens c :=
      fun stretch => depthAfter_append 0 stretch [c]
    have hnest : (((cs ++ [c]).foldl nest 0 : Nat) : Int) =
        max 0 (((cs.foldl nest 0 : Nat) : Int) + opens c) := by
      rw [List.foldl_concat, nest_eq_max]
    rw [hnest]
    constructor
    · rcases max_choice 0 (((cs.foldl nest 0 : Nat) : Int) + opens c) with hmax | hmax
      · exact ⟨[], List.nil_suffix, hmax.symm⟩
      · refine ⟨most ++ [c], (List.suffix_append_inj_of_length_eq rfl).2 ⟨hmost, rfl⟩, ?_⟩
        rw [hmax, hlast, heq]
    · rintro n ⟨stretch, hstretch, rfl⟩
      rcases List.suffix_concat_iff.1 hstretch with rfl | ⟨shorter, rfl, hshorter⟩
      · exact le_max_left _ _
      · rw [hlast]
        exact le_max_of_le_right (by have := hle ⟨shorter, hshorter, rfl⟩; omega)

/-- A place is at the top if it stands in no literal and no bracket is open. -/
theorem atTop_iff (front : List Char) :
    AtTop front ↔ quotingAfter .outside front = .outside ∧ nesting .outside 0 front = 0 := by
  obtain ⟨⟨most, hmost, heq⟩, hle⟩ := foldl_nest_isGreatest (bareFrom .outside front)
  constructor
  · rintro ⟨houtside, hclosed⟩
    have := hclosed most hmost
    exact ⟨houtside, by unfold nesting; omega⟩
  · rintro ⟨houtside, hnesting⟩
    refine ⟨houtside, fun stretch hstretch => ?_⟩
    have := hle ⟨stretch, hstretch, rfl⟩
    unfold nesting at hnesting
    omega

/-! ## The search -/

/-- How many brackets are open behind one more character, which may stand in a literal. -/
def nestAt (q : Quoting) (depth : Nat) (c : Char) : Nat :=
  if q = .outside then nest depth c else depth

/-- The first character decides state and depth for the rest. -/
theorem nesting_cons (q : Quoting) (depth : Nat) (c : Char) (cs : List Char) :
    nesting q depth (c :: cs) = nesting (q.step c) (nestAt q depth c) cs := by
  cases q with
  | outside => rfl
  | inside => rfl
  | escaped => rfl

/-- A bracket that nothing opened ends the search, and only a parenthesis ends it well. -/
theorem closingFrom_of_isClosing (h : isClosing c = true) (cs : List Char) :
    closingFrom .outside 1 (c :: cs) = if c = ')' then some ([], cs) else none := by
  rw [closingFrom.eq_def]
  dsimp only
  rw [if_neg (not_isOpening_of_isClosing h), if_pos h]

/-- The search goes on behind every other character. -/
theorem closingFrom_cons {depth : Nat}
    (h : ¬ (q = .outside ∧ isClosing c = true ∧ depth = 0)) (cs : List Char) :
    closingFrom q (depth + 1) (c :: cs) =
      (closingFrom (q.step c) (nestAt q depth c + 1) cs).map fun found =>
        (c :: found.1, found.2) := by
  cases q with
  | inside => rfl
  | escaped => rfl
  | outside =>
    rw [closingFrom.eq_def, nestAt, if_pos rfl, nest]
    dsimp only
    by_cases hopen : isOpening c = true
    · rw [if_pos hopen, if_pos hopen, step_of_isOpening hopen]
    · rw [if_neg hopen, if_neg hopen]
      by_cases hclose : isClosing c = true
      · obtain ⟨n, rfl⟩ := Nat.exists_eq_succ_of_ne_zero fun hzero => h ⟨rfl, hclose, hzero⟩
        rw [if_pos hclose, if_pos hclose, step_of_isClosing hclose]
        rfl
      · rw [if_neg hclose, if_neg hclose]

/-- One more character in front, if it closes nothing that is not open. -/
theorem nested_cons_iff {depth : Nat}
    (h : ¬ (q = .outside ∧ isClosing c = true ∧ depth = 0)) (cs : List Char) :
    (Nested depth (bareFrom q (c :: cs)) ↔ Nested (nestAt q depth c) (bareFrom (q.step c) cs)) ∧
      depthAfter depth (bareFrom q (c :: cs)) =
        depthAfter (nestAt q depth c) (bareFrom (q.step c) cs) := by
  by_cases hq : q = .outside
  · subst hq
    have hnonneg : 0 ≤ (depth : Int) + opens c := by
      by_cases hclose : isClosing c = true
      · have hdepth : depth ≠ 0 := fun hzero => h ⟨rfl, hclose, hzero⟩
        rw [opens_of_isClosing hclose]
        omega
      · unfold opens
        split_ifs <;> omega
    have hnest : ((nestAt .outside depth c : Nat) : Int) = depth + opens c := by
      rw [nestAt, if_pos rfl, nest_eq_max, max_eq_right hnonneg]
    rw [hnest]
    exact ⟨nested_cons_iff_tail, rfl⟩
  · rw [bareFrom_cons_of_ne hq, nestAt, if_neg hq]
    exact ⟨Iff.rfl, rfl⟩

/-- The search, one more bracket deep than the text, ends with the arguments exactly if they are
outside of literals at their end, close every bracket that they open and no other one. -/
theorem closingFrom_eq_some_iff {depth : Nat} :
    closingFrom q (depth + 1) cs = some (args, behind) ↔
      cs = args ++ ')' :: behind ∧ quotingAfter q args = .outside ∧
        Nested depth (bareFrom q args) ∧ depthAfter depth (bareFrom q args) = 0 := by
  induction cs generalizing q depth args with
  | nil =>
    have hnone : closingFrom q (depth + 1) [] = none := by
      cases q with
      | outside => rfl
      | inside => rfl
      | escaped => rfl
    rw [hnone]
    simp
  | cons c cs ih =>
    by_cases hend : q = .outside ∧ isClosing c = true ∧ depth = 0
    · obtain ⟨rfl, hclose, rfl⟩ := hend
      rw [closingFrom_of_isClosing hclose]
      constructor
      · intro h
        split at h
        · rename_i hparen
          cases h
          exact ⟨by rw [hparen]; rfl, rfl, nested_nil 0, rfl⟩
        · cases h
      · rintro ⟨heq, -, hnested, -⟩
        cases args with
        | nil =>
          cases heq
          rfl
        | cons first rest =>
          rw [List.cons_append, List.cons.injEq] at heq
          obtain ⟨rfl, -⟩ := heq
          have hnonneg := hnested.tail.nonneg
          rw [opens_of_isClosing hclose] at hnonneg
          omega
    · rw [closingFrom_cons hend, Option.map_eq_some_iff]
      cases args with
      | nil =>
        constructor
        · rintro ⟨found, -, hfound⟩
          cases hfound
        · rintro ⟨heq, houtside, -, hzero⟩
          cases heq
          exact absurd ⟨houtside, rfl, Int.ofNat_eq_zero.1 hzero⟩ hend
      | cons first rest =>
        constructor
        · rintro ⟨found, hfound, heq⟩
          cases heq
          obtain ⟨rfl, houtside, hnested, hzero⟩ := ih.1 hfound
          obtain ⟨hstep, hdepth⟩ := nested_cons_iff hend found.1
          exact ⟨rfl, houtside, hstep.2 hnested, hdepth.trans hzero⟩
        · rintro ⟨heq, houtside, hnested, hzero⟩
          rw [List.cons_append, List.cons.injEq] at heq
          obtain ⟨rfl, rfl⟩ := heq
          obtain ⟨hstep, hdepth⟩ := nested_cons_iff hend rest
          exact ⟨(rest, behind),
            ih.2 ⟨rfl, houtside, hstep.1 hnested, hdepth.symm.trans hzero⟩, rfl⟩

/-- What some bare characters begin with is what stands bare in a beginning of the text. -/
theorem exists_prefix_of_bareFrom {stretch : List Char} (h : stretch <+: bareFrom q cs) :
    ∃ before, before <+: cs ∧ bareFrom q before = stretch := by
  induction cs generalizing q stretch with
  | nil =>
    have hnil : bareFrom q [] = [] := by cases q <;> rfl
    rw [hnil, List.prefix_nil] at h
    exact ⟨[], List.nil_prefix, hnil.trans h.symm⟩
  | cons c cs ih =>
    by_cases hq : q = .outside
    · subst hq
      cases stretch with
      | nil => exact ⟨[], List.nil_prefix, rfl⟩
      | cons first stretch =>
        obtain ⟨rfl, hrest⟩ := List.cons_prefix_cons.1 h
        obtain ⟨before, hbefore, rfl⟩ := ih hrest
        exact ⟨first :: before, List.cons_prefix_cons.2 ⟨rfl, hbefore⟩, rfl⟩
    · rw [bareFrom_cons_of_ne hq] at h
      obtain ⟨before, hbefore, heq⟩ := ih h
      exact ⟨c :: before, List.cons_prefix_cons.2 ⟨rfl, hbefore⟩,
        (bareFrom_cons_of_ne hq c before).trans heq⟩

/-- Nothing is closed that is not open exactly if the depth is never negative. -/
theorem nested_bareFrom_iff (cs : List Char) :
    Nested 0 (bareFrom .outside cs) ↔ ∀ before, before <+: cs → 0 ≤ openBrackets before := by
  constructor
  · rintro h before ⟨rest, rfl⟩
    rw [bareFrom_append] at h
    exact h _ (List.prefix_append _ _)
  · intro h stretch hstretch
    obtain ⟨before, hbefore, rfl⟩ := exists_prefix_of_bareFrom hstretch
    exact h before hbefore

/-- A last character outside of literals opens as many brackets as it does alone. -/
theorem openBrackets_concat (h : quotingAfter .outside front = .outside) (c : Char) :
    openBrackets (front ++ [c]) = openBrackets front + opens c := by
  rw [openBrackets, bareFrom_append, h, depthAfter_append]
  rfl

/-- An opening parenthesis adds one open bracket. -/
theorem openBrackets_paren (cs : List Char) : openBrackets ('(' :: cs) = 1 + openBrackets cs := by
  have hstep : openBrackets ('(' :: cs) = depthAfter 1 (bareFrom .outside cs) := rfl
  rw [hstep, depthAfter_eq_add]
  rfl

/-- Behind an opening parenthesis the depth returns to zero where the text, read without it, closes
one bracket more than it has opened. -/
theorem returnsAt_paren_iff (args : List Char) :
    ReturnsAt ('(' :: args) ')' ↔ quotingAfter .outside args = .outside ∧
      Nested 0 (bareFrom .outside args) ∧ depthAfter 0 (bareFrom .outside args) = 0 := by
  have hquoting : quotingAfter .outside ('(' :: args) = quotingAfter .outside args := rfl
  have hclose : opens ')' = -1 := rfl
  have hdepth : depthAfter 0 (bareFrom .outside args) = openBrackets args := rfl
  rw [nested_bareFrom_iff, hdepth]
  constructor
  · rintro ⟨houtside, hzero, hfirst⟩
    rw [openBrackets_concat houtside, openBrackets_paren, hclose] at hzero
    refine ⟨houtside, fun before hbefore => ?_, by omega⟩
    have hpositive := hfirst ('(' :: before) (List.cons_ne_nil _ _)
      (List.cons_prefix_cons.2 ⟨rfl, hbefore⟩)
    rw [openBrackets_paren] at hpositive
    omega
  · rintro ⟨houtside, hnonneg, hzero⟩
    refine ⟨houtside, ?_, fun before hsome hbefore => ?_⟩
    · rw [openBrackets_concat (hquoting.trans houtside), openBrackets_paren, hclose, hzero]
      rfl
    · cases before with
      | nil => exact absurd rfl hsome
      | cons first before =>
        obtain ⟨rfl, hshorter⟩ := List.cons_prefix_cons.1 hbefore
        have := hnonneg before hshorter
        rw [openBrackets_paren]
        omega

/-- The search finds where the depth returns to zero for the first time, if that is at a
parenthesis. -/
theorem closing?_paren_iff :
    closing? ('(' :: cs) = some (front, behind) ↔
      ∃ args, front = '(' :: args ∧ cs = args ++ ')' :: behind ∧ ReturnsAt ('(' :: args) ')' := by
  have hopen : closing? ('(' :: cs) =
      (closingFrom .outside (0 + 1) cs).map fun found => ('(' :: found.1, found.2) := rfl
  simp only [returnsAt_paren_iff]
  rw [hopen, Option.map_eq_some_iff]
  constructor
  · rintro ⟨⟨args, behind'⟩, hfound, heq⟩
    cases heq
    obtain ⟨rfl, hargs⟩ := closingFrom_eq_some_iff.1 hfound
    exact ⟨args, rfl, rfl, hargs⟩
  · rintro ⟨args, rfl, rfl, hargs⟩
    exact ⟨(args, behind), closingFrom_eq_some_iff.2 ⟨rfl, hargs⟩, rfl⟩

/-! ## The cut -/

/-- A comma at the top ends a part. -/
theorem splitFrom_comma (start offset : Nat) (part cs : List Char) :
    splitFrom .outside 0 start part offset (',' :: cs) =
      (start, part.reverse) :: splitFrom .outside 0 (offset + 1) [] (offset + 1) cs := rfl

/-- Every other character goes to the current part. -/
theorem splitFrom_cons {depth : Nat} (h : ¬ (q = .outside ∧ depth = 0 ∧ c = ','))
    (start offset : Nat) (part cs : List Char) :
    splitFrom q depth start part offset (c :: cs) =
      splitFrom (q.step c) (nestAt q depth c) start (c :: part) (offset + c.utf8Size) cs := by
  cases q with
  | inside => rfl
  | escaped => rfl
  | outside =>
    have hcomma : ¬ (decide (c = ',') && depth == 0) = true := by
      intro hboth
      obtain ⟨hc, hdepth⟩ : c = ',' ∧ depth = 0 := by simpa using hboth
      exact h ⟨rfl, hdepth, hc⟩
    rw [splitFrom.eq_def, nestAt, if_pos rfl, nest]
    dsimp only
    by_cases hopen : isOpening c = true
    · rw [if_pos hopen, if_pos hopen, step_of_isOpening hopen]
    · rw [if_neg hopen, if_neg hopen]
      by_cases hclose : isClosing c = true
      · rw [if_pos hclose, if_pos hclose, step_of_isClosing hclose]
      · rw [if_neg hclose, if_neg hclose, if_neg hcomma]

/-- What the cut has done behind some characters does not depend on what follows them. -/
theorem exists_splitFrom_append (q : Quoting) (depth start offset : Nat) (part front : List Char) :
    ∃ (parts : List Part) (start' : Nat) (part' : List Char),
      part.reverse ++ front = led parts ++ part'.reverse ∧ ∀ rest,
        splitFrom q depth start part offset (front ++ rest) =
          parts ++ splitFrom (quotingAfter q front) (nesting q depth front) start' part'
            (offset + Text.byteCount front) rest := by
  induction front generalizing q depth start offset part with
  | nil =>
    have hnesting : nesting q depth [] = depth := by cases q <;> rfl
    exact ⟨[], start, part, by simp [led], fun rest => by rw [hnesting]; rfl⟩
  | cons c front ih =>
    have hcount : ∀ offset, offset + Text.byteCount (c :: front) =
        offset + c.utf8Size + Text.byteCount front := fun offset => by
      rw [Nat.add_assoc]
      rfl
    by_cases hend : q = .outside ∧ depth = 0 ∧ c = ','
    · obtain ⟨rfl, rfl, rfl⟩ := hend
      obtain ⟨parts, start', part', hparts, hrest⟩ :=
        ih .outside 0 (offset + 1) (offset + 1) []
      refine ⟨(start, part.reverse) :: parts, start', part', ?_, fun rest => ?_⟩
      · rw [List.reverse_nil, List.nil_append] at hparts
        rw [led_cons, hparts]
        simp
      · rw [List.cons_append, splitFrom_comma, hrest, hcount]
        rfl
    · obtain ⟨parts, start', part', hparts, hrest⟩ :=
        ih (q.step c) (nestAt q depth c) start (offset + c.utf8Size) (c :: part)
      refine ⟨parts, start', part', ?_, fun rest => ?_⟩
      · rw [← hparts]
        simp
      · rw [List.cons_append, splitFrom_cons hend, hrest, hcount, nesting_cons]
        rfl

/-- Two parts next to each other are separated by a comma outside of literals and brackets. -/
theorem exists_comma_of_splitFrom {depth start offset : Nat} {part : List Char}
    {before behind : List Part} {p next : Part}
    (h : splitFrom q depth start part offset cs = before ++ p :: next :: behind) :
    ∃ front back, cs = front ++ ',' :: back ∧ part.reverse ++ front = led before ++ p.2 ∧
      quotingAfter q front = .outside ∧ nesting q depth front = 0 := by
  induction cs generalizing q depth start part offset before with
  | nil =>
    have hone : splitFrom q depth start part offset [] = [(start, part.reverse)] := by
      cases q <;> rfl
    rw [hone] at h
    have hlength := congrArg List.length h
    simp only [List.length_append, List.length_cons, List.length_nil] at hlength
    omega
  | cons c cs ih =>
    by_cases hend : q = .outside ∧ depth = 0 ∧ c = ','
    · obtain ⟨rfl, rfl, rfl⟩ := hend
      rw [splitFrom_comma] at h
      cases before with
      | nil =>
        rw [List.nil_append, List.cons.injEq] at h
        obtain ⟨rfl, -⟩ := h
        exact ⟨[], cs, rfl, by simp [led], rfl, rfl⟩
      | cons first before =>
        rw [List.cons_append, List.cons.injEq] at h
        obtain ⟨rfl, hrest⟩ := h
        obtain ⟨front, back, rfl, hparts, hquoting, hnesting⟩ := ih hrest
        rw [List.reverse_nil, List.nil_append] at hparts
        refine ⟨',' :: front, back, rfl, ?_, hquoting, hnesting⟩
        rw [led_cons, hparts]
        simp
    · rw [splitFrom_cons hend] at h
      obtain ⟨front, back, rfl, hparts, hquoting, hnesting⟩ := ih h
      refine ⟨c :: front, back, rfl, ?_, hquoting, ?_⟩
      · rw [← hparts]
        simp
      · rw [nesting_cons]
        exact hnesting

/-- Behind any characters the cut goes on from their state and their depth. -/
theorem cutStands (front : List Char) :
    CutStands front (quotingAfter .outside front) (nesting .outside 0 front) := by
  obtain ⟨parts, start, part, -, hrest⟩ := exists_splitFrom_append .outside 0 0 0 [] front
  rw [Nat.zero_add] at hrest
  exact ⟨parts, start, part, hrest⟩

end Scans

/-- The cut of what the search has found goes in step with it. -/
theorem cutsClean_of_returnsAt {args : List Char} (h : ReturnsAt ('(' :: args) ')') :
    CutsClean args := by
  obtain ⟨houtside, hnested, hzero⟩ := (returnsAt_paren_iff args).1 h
  have hdepth : ∀ before, before <+: args →
      ((nesting .outside 0 before : Nat) : Int) = openBrackets before := by
    rintro before ⟨rest, rfl⟩
    rw [bareFrom_append] at hnested
    exact foldl_nest_of_nested fun stretch hstretch =>
      hnested stretch (hstretch.trans (List.prefix_append _ _))
  constructor
  · have hend := hdepth args List.prefix_rfl
    have hnone : nesting .outside 0 args = 0 := Int.ofNat_eq_zero.1 (hend.trans hzero)
    have hstands := cutStands args
    rwa [houtside, hnone] at hstands
  · intro before c hbefore hquoting hclose
    have hstands := cutStands before
    rw [hquoting] at hstands
    have hbehind := (nested_bareFrom_iff args).1 hnested _ hbefore
    rw [openBrackets_concat hquoting, opens_of_isClosing hclose] at hbehind
    have hcount := hdepth before ((List.prefix_append _ _).trans hbefore)
    exact ⟨_, hstands, hcount, by omega⟩
  · intro before hbefore
    rw [atTop_iff, ← hdepth before hbefore, Int.natCast_eq_zero]

/-- Arguments that are not blank are cut at their commas. -/
theorem splitTop_of_not_blank {args : List Char} (h : ∃ c ∈ args, Text.isBlank c = false) :
    splitTop args = splitFrom .outside 0 0 [] 0 args := by
  refine if_neg fun hempty => ?_
  obtain ⟨c, hc, hblank⟩ := h
  have hhead := Text.head?_trimChars args
  rw [List.isEmpty_iff.1 hempty, List.head?_nil, eq_comm, List.head?_eq_none_iff,
    List.dropWhile_eq_nil_iff] at hhead
  rw [hhead c hc] at hblank
  cases hblank

/-- What arguments are split into is their cut at the commas outside of literals and brackets. -/
theorem isCut_splitTop {args : List Char} (h : ∃ c ∈ args, Text.isBlank c = false) :
    IsCut args (splitTop args) := by
  rw [splitTop_of_not_blank h]
  constructor
  · cases hparts : splitFrom .outside 0 0 [] 0 args with
    | nil => exact absurd hparts (splitFrom_ne_nil _ _ _ _ _ _)
    | cons first others =>
      have hargs := (splitFrom_eq_append rfl (show _ = [] ++ first :: others from hparts)).1
      rw [List.map_cons, Text.intercalate_cons_eq, List.flatMap_map]
      exact hargs.symm
  · intro p hp
    obtain ⟨before, behind, hparts⟩ := List.append_of_mem hp
    obtain ⟨hargs, hplace⟩ := splitFrom_eq_append rfl hparts
    exact ⟨led before, _, hargs, by rw [hplace, Nat.zero_add]⟩
  · rintro front back rfl
    rw [atTop_iff]
    constructor
    · rintro ⟨before, p, next, behind, hparts, rfl⟩
      obtain ⟨front, -, -, hfront, hstate⟩ := exists_comma_of_splitFrom hparts
      rw [← hfront]
      exact hstate
    · rintro ⟨houtside, hnesting⟩
      obtain ⟨parts, start, part, hfront, hrest⟩ := exists_splitFrom_append .outside 0 0 0 [] front
      have hcut := hrest (',' :: back)
      rw [houtside, hnesting, splitFrom_comma] at hcut
      obtain ⟨next, behind, hnext⟩ := List.exists_cons_of_ne_nil (splitFrom_ne_nil .outside 0
        (0 + Text.byteCount front + 1) [] (0 + Text.byteCount front + 1) back)
      rw [hnext] at hcut
      exact ⟨parts, _, next, behind, hcut, hfront⟩

/-- The two scans of an argument list agree. The search ends at the first parenthesis that brings
the depth back to zero, the cut of what stands before it is clean, and the parts of any list are
what stands between its commas outside of literals and brackets. -/
theorem scans_agree :
    (∀ (cs : List Char) (close : Nat), matchingParen? ('(' :: cs) = some close ↔
      ∃ args behind, cs = args ++ ')' :: behind ∧ Text.byteCount ('(' :: args) = close ∧
        ReturnsAt ('(' :: args) ')') ∧
    (∀ args, ReturnsAt ('(' :: args) ')' → CutsClean args) ∧
    ∀ args, (∃ c ∈ args, Text.isBlank c = false) → IsCut args (splitTop args) := by
  refine ⟨fun cs close => ?_, fun _ => cutsClean_of_returnsAt, fun _ => isCut_splitTop⟩
  rw [matchingParen?, Option.map_eq_some_iff]
  constructor
  · rintro ⟨⟨front, behind⟩, hfound, hcount⟩
    obtain ⟨args, rfl, hcs, hreturns⟩ := closing?_paren_iff.1 hfound
    exact ⟨args, behind, hcs, hcount, hreturns⟩
  · rintro ⟨args, behind, hcs, hcount, hreturns⟩
    exact ⟨('(' :: args, behind), closing?_paren_iff.2 ⟨args, rfl, hcs, hreturns⟩, hcount⟩

/-- Arguments with a comma and a bracket in a literal, and others in brackets. -/
def quotedArgs : List Char := "\"ä,)\" , \x7bb: [1, 2]\x7d".toList

/-- The scans agree on `quotedArgs`, which stand before a second parenthesis. -/
theorem scans_agree_quotedArgs :
    (∃ args behind, quotedArgs ++ ") x )".toList = args ++ ')' :: behind ∧
      Text.byteCount ('(' :: args) = 21 ∧ ReturnsAt ('(' :: args) ')' ∧ CutsClean args) ∧
    IsCut quotedArgs (splitTop quotedArgs) ∧ (splitTop quotedArgs).map (·.1) = [0, 8] := by
  have hclose : matchingParen? ('(' :: (quotedArgs ++ ") x )".toList)) = some 21 := by
    decide +kernel
  obtain ⟨args, behind, hcs, hcount, hreturns⟩ := (scans_agree.1 _ _).1 hclose
  exact ⟨⟨args, behind, hcs, hcount, hreturns, scans_agree.2.1 args hreturns⟩,
    scans_agree.2.2 quotedArgs ⟨',', by decide +kernel, by decide⟩, by decide +kernel⟩

end RouteAtlas.Directive
