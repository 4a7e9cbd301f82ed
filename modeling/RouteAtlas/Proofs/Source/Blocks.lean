import RouteAtlas.Proofs.Source.Counters
import RouteAtlas.Source.Parser

/-!
# Blocks of constants

The constants of a block stand in the order of its specifications, those of one specification
together, and the comments between them do not count (`exists_block`). A specification without
values repeats the type and the offset of the expression that counts in its place, the first value
of the nearest specification before it that has values (`IsOrigin.inherited_eq`).

Where arithmetic is checked, reading a block ends at the first number that does not fit a word. That
is the sum of a place and an offset, or the least word when its sign is changed
(`overflows_constants_iff`).
-/

set_option autoImplicit false

namespace RouteAtlas.Source

/-- What is repeated behind some specifications. -/
def inherited (specs : List ConstSpec) : Inherited :=
  specs.foldl (fun i spec => (i.after spec).value) {}

/-- The number of constants that some specifications give. -/
def nameCount (specs : List ConstSpec) : Nat := (specs.map (·.names.length)).sum

/-- The expression that counts in place `i` is the first value of `origin`, in place `j`: no
specification behind that one, up to place `i`, has a value. -/
structure IsOrigin (specs : List ConstSpec) (i j : Nat) (origin : ConstSpec) (text : String) :
    Prop where
  le : j ≤ i
  lt : i < specs.length
  inPlace : specs[j]? = some origin
  first : origin.values.head? = some text
  silent : ∀ k spec, j < k → k ≤ i → specs[k]? = some spec → spec.values = []

/-- The expression that decides the value in position `k` of the specification in place `i`: the
value it has there, or if it has none the expression that it repeats. -/
inductive Decides (specs : List ConstSpec) (i k : Nat) (text : String) : Prop
  | own {spec : ConstSpec} (hspec : specs[i]? = some spec) (hvalue : spec.values[k]? = some text)
  | repeated {spec origin : ConstSpec} {j : Nat} (hspec : specs[i]? = some spec)
      (hvalue : spec.values[k]? = none) (horigin : IsOrigin specs i j origin text)

/-- A number in a block does not fit a word: for a name that a counter decides the sum of its place
and its offset is too large, or the first value of a specification, which is read whether it has a
name or not, is a counter from which the least word is taken. -/
inductive Overflows (specs : List ConstSpec) : Prop
  | sum {spec : ConstSpec} {i k : Nat} {text : String} {n : Int} (hspec : specs[i]? = some spec)
      (hname : k < spec.names.length) (hdecides : Decides specs i k text) (hn : Counter text n)
      (hlarge : 2 ^ 63 ≤ i + n)
  | sign {spec : ConstSpec} {text : String} (hspec : spec ∈ specs)
      (hfirst : spec.values.head? = some text) (hn : Counter text (2 ^ 63))

variable {α : Type} {doc : DocComment} {siblings : List (Sibling ConstSpec)}
  {specs : List ConstSpec} {spec origin : ConstSpec} {text : String} {i j k : Nat} {n : Int}

/-! ## The constants of a block -/

/-- Collecting comments leaves the declarations between them as they are. -/
theorem map_withDocsFrom (block : List Comment) (lastLine : Option Nat)
    (siblings : List (Sibling α)) :
    (withDocsFrom block lastLine siblings).map (·.1) = nodesOf siblings := by
  induction siblings generalizing block lastLine with
  | nil => rfl
  | cons s rest ih =>
    cases s with
    | comment text span =>
      rw [withDocsFrom]
      split_ifs <;> exact ih _ _
    | node content span => exact congrArg (content :: ·) (ih _ _)

/-- The specifications of a declaration are its members without the comments. -/
theorem map_withSharedDoc (doc : DocComment) (siblings : List (Sibling α)) :
    (withSharedDoc doc siblings).map (·.1) = nodesOf siblings := by
  rw [← map_withDocsFrom [] none siblings, ← withDocs, withSharedDoc]
  split
  · rename_i h
    rw [h]
    rfl
  · rfl

/-- The constants of a specification, one for each name. -/
theorem value_specConstants (index : Nat) (s : Inherited) (spec : ConstSpec) (span : Span)
    (doc : DocComment) :
    (specConstants index s spec span doc).value = spec.names.zipIdx.map fun (name, k) =>
      { name := name, type := s.type, value := (constValue index s spec k).value, doc := doc
        span := span } := by
  rw [specConstants, Checked.value_mapM]
  rfl

/-- The names of the constants of a specification are its names. -/
theorem map_name_specConstants (index : Nat) (s : Inherited) (spec : ConstSpec) (span : Span)
    (doc : DocComment) :
    (specConstants index s spec span doc).value.map (·.name) = spec.names := by
  rw [value_specConstants, List.map_map]
  exact List.zipIdx_map_fst 0 spec.names

/-- The name in position `k` is paired with the value in position `k`. -/
theorem getElem?_specConstants (index : Nat) (s : Inherited) (spec : ConstSpec) (span : Span)
    (doc : DocComment) (k : Nat) :
    (specConstants index s spec span doc).value[k]? = spec.names[k]?.map fun name =>
      { name := name, type := s.type, value := (constValue index s spec k).value, doc := doc
        span := span } := by
  rw [value_specConstants, List.getElem?_map, List.getElem?_zipIdx, Option.map_map, Nat.zero_add]
  rfl

/-- The constants behind some specifications go on with what is repeated behind those. -/
theorem value_constantsFrom_append (index : Nat) (i : Inherited)
    (xs ys : List (ConstSpec × Span × DocComment)) :
    (constantsFrom index i (xs ++ ys)).value = (constantsFrom index i xs).value ++
      (constantsFrom (index + xs.length)
        ((xs.map (·.1)).foldl (fun i spec => (i.after spec).value) i) ys).value := by
  induction xs generalizing index i with
  | nil => rfl
  | cons x xs ih =>
    obtain ⟨spec, span, doc⟩ := x
    simp only [List.cons_append, constantsFrom, Checked.value_bind, Checked.value_pure]
    rw [ih, List.length_cons, List.map_cons, List.foldl_cons, List.append_assoc,
      Nat.add_right_comm, Nat.add_assoc]

/-- A block gives as many constants as it has names. -/
theorem length_constantsFrom (index : Nat) (i : Inherited)
    (entries : List (ConstSpec × Span × DocComment)) :
    (constantsFrom index i entries).value.length = nameCount (entries.map (·.1)) := by
  induction entries generalizing index i with
  | nil => rfl
  | cons entry entries ih =>
    obtain ⟨spec, span, doc⟩ := entry
    simp only [constantsFrom, Checked.value_bind, Checked.value_pure]
    rw [List.length_append, ih, ← List.length_map (f := ConstDecl.name), map_name_specConstants]
    simp [nameCount]

/-- A specification changes what is repeated behind it. -/
theorem inherited_take_succ (h : specs[i]? = some spec) :
    inherited (specs.take (i + 1)) = ((inherited (specs.take i)).after spec).value := by
  rw [inherited, List.take_add_one, h, Option.toList_some, List.foldl_append]
  rfl

/-- The constants of a specification stand between those of the ones before and behind it. The
number of the ones before it is its place, and its own values are among what it can repeat. -/
theorem exists_block (doc : DocComment) (h : (nodesOf siblings)[i]? = some spec) :
    ∃ front back span own,
      (constants (withSharedDoc doc siblings)).value = front ++
        ((specConstants i (inherited ((nodesOf siblings).take (i + 1))) spec span own).value ++ back) ∧
      front.length = nameCount ((nodesOf siblings).take i) ∧
      back.length = nameCount ((nodesOf siblings).drop (i + 1)) := by
  rw [inherited_take_succ h]
  rw [← map_withSharedDoc doc siblings] at h ⊢
  generalize withSharedDoc doc siblings = entries at h ⊢
  rw [List.getElem?_map, Option.map_eq_some_iff] at h
  obtain ⟨⟨spec, span, own⟩, hentry, rfl⟩ := h
  obtain ⟨hi, hentry⟩ := List.getElem?_eq_some_iff.1 hentry
  have hsplit : entries = entries.take i ++ (spec, span, own) :: entries.drop (i + 1) := by
    rw [← hentry, List.getElem_cons_drop, List.take_append_drop]
  rw [← List.map_take, ← List.map_drop]
  refine ⟨(constantsFrom 0 {} (entries.take i)).value,
    (constantsFrom (i + 1) ((inherited ((entries.take i).map (·.1))).after spec).value
      (entries.drop (i + 1))).value, span, own, ?_, length_constantsFrom .., length_constantsFrom ..⟩
  conv_lhs => rw [hsplit]
  rw [constants, value_constantsFrom_append, constantsFrom, List.length_take_of_le hi.le,
    Nat.zero_add]
  rfl

/-! ## Repeated expressions -/

/-- A specification with values has its own type and the offset of its first value repeated. -/
theorem Inherited.after_of_first (h : origin.values.head? = some text) (s : Inherited) :
    s.after origin = (⟨origin.type, ·⟩) <$> iotaOffset? text := by
  obtain ⟨more, hvalues⟩ := List.head?_eq_some_iff.1 h
  rw [Inherited.after, hvalues]
  exact bind_pure_comp _ _

/-- A specification without values leaves what is repeated as it is. -/
theorem Inherited.after_of_silent (h : spec.values = []) (s : Inherited) :
    s.after spec = pure s := by
  rw [Inherited.after, h]

/-- What is repeated in a place is the type and the offset of the expression that counts there. -/
theorem IsOrigin.inherited_eq (h : IsOrigin specs i j origin text) :
    inherited (specs.take (i + 1)) = ⟨origin.type, (iotaOffset? text).value⟩ := by
  obtain ⟨hle, hlt, hplace, hfirst, hsilent⟩ := h
  -- From the place of the expression on, no step changes what is repeated.
  induction i, hle using Nat.le_induction with
  | base => rw [inherited_take_succ hplace, Inherited.after_of_first hfirst, Checked.value_map]
  | succ i hle ih =>
    have hspec : specs[i + 1]? = some specs[i + 1] := List.getElem?_eq_getElem hlt
    rw [inherited_take_succ hspec,
      Inherited.after_of_silent (hsilent _ _ (Nat.lt_succ_of_le hle) (Nat.le_refl _) hspec),
      Checked.value_pure]
    exact ih (Nat.lt_of_succ_lt hlt) fun k spec hj hk => hsilent k spec hj (Nat.le_succ_of_le hk)

/-- A specification with values counts in its own place. -/
theorem IsOrigin.here (hspec : specs[i]? = some spec) (hfirst : spec.values.head? = some text) :
    IsOrigin specs i i spec text :=
  ⟨Nat.le_refl i, (List.getElem?_eq_some_iff.1 hspec).1, hspec, hfirst,
    fun _ _ hlt hle => absurd hle (Nat.not_le_of_lt hlt)⟩

/-- What counts in a place counts in the next one too, if that has no values. -/
theorem IsOrigin.succ (h : IsOrigin specs i j origin text) (hspec : specs[i + 1]? = some spec)
    (hvalues : spec.values = []) : IsOrigin specs (i + 1) j origin text := by
  refine ⟨Nat.le_succ_of_le h.le, (List.getElem?_eq_some_iff.1 hspec).1, h.inPlace, h.first, ?_⟩
  intro k spec' hj hk hspec'
  rcases Nat.le_succ_iff.1 hk with hk | rfl
  · exact h.silent k spec' hj hk hspec'
  · rwa [Option.some.inj (hspec'.symm.trans hspec)]

/-- An offset that is repeated is that of an expression that counts there. -/
theorem exists_origin {w : Int64} (hspec : specs[i]? = some spec)
    (hoffset : (inherited (specs.take (i + 1))).offset = some w) :
    ∃ j origin text, IsOrigin specs i j origin text ∧ (iotaOffset? text).value = some w := by
  induction i generalizing spec with
  | zero =>
    cases hvalues : spec.values with
    | nil =>
      rw [inherited_take_succ hspec, Inherited.after_of_silent hvalues] at hoffset
      cases hoffset
    | cons text more =>
      have horigin : IsOrigin specs 0 0 spec text := .here hspec (by rw [hvalues]; rfl)
      rw [horigin.inherited_eq] at hoffset
      exact ⟨0, spec, text, horigin, hoffset⟩
  | succ i ih =>
    cases hvalues : spec.values with
    | nil =>
      have hlt := (List.getElem?_eq_some_iff.1 hspec).1
      have hbefore : specs[i]? = some specs[i] := List.getElem?_eq_getElem (Nat.lt_of_succ_lt hlt)
      rw [inherited_take_succ hspec, Inherited.after_of_silent hvalues] at hoffset
      obtain ⟨j, origin, text, horigin, hw⟩ := ih hbefore hoffset
      exact ⟨j, origin, text, horigin.succ hspec hvalues, hw⟩
    | cons text more =>
      have horigin : IsOrigin specs (i + 1) (i + 1) spec text := .here hspec (by rw [hvalues]; rfl)
      rw [horigin.inherited_eq] at hoffset
      exact ⟨i + 1, spec, text, horigin, hoffset⟩

/-- The value of a name that repeats a counter is the worth of that. -/
theorem value_mapM_iotaValue (hn : Counter text n) (index : Nat) :
    ((iotaOffset? text).value.mapM (iotaValue index)).value = some (worth index text) := by
  rw [iotaOffset?_of_counter hn, worth_of_counter hn, ← value_iotaValue]
  rfl

/-- The value that an expression decides is its worth, if it is the own one of its name or a
counter. -/
theorem Decides.value_constValue (h : Decides specs i k text) (hspec : specs[i]? = some spec)
    (hkept : spec.values[k]? = some text ∨ ∃ n, Counter text n) :
    (constValue i (inherited (specs.take (i + 1))) spec k).value = some (worth i text) := by
  cases h with
  | own hplace hvalue =>
    obtain rfl := Option.some.inj (hspec.symm.trans hplace)
    rw [constValue_of_value hvalue, Checked.value_map, worth]
  | repeated hplace hvalue horigin =>
    obtain rfl := Option.some.inj (hspec.symm.trans hplace)
    obtain ⟨n, hn⟩ := hkept.resolve_left (by simp [hvalue])
    rw [horigin.inherited_eq, constValue, hvalue]
    exact value_mapM_iotaValue hn i

/-! ## Overflow -/

/-- A repeated offset whose sum with a place overflows is that of a counter, and the sum as numbers
is too large. -/
theorem exists_large_of_overflows {w : Int64} {index : Nat}
    (hw : (iotaOffset? text).value = some w) (h : (iotaValue index w).overflows = true) :
    ∃ n, Counter text n ∧ 2 ^ 63 ≤ index + n := by
  rcases exists_counter_or text with ⟨n, hn⟩ | hnone
  · refine ⟨n, hn, ?_⟩
    rw [iotaOffset?_of_counter hn] at hw
    obtain rfl : Int64.ofInt n = w := Option.some.inj hw
    by_cases hfits : FitsWord n
    · exact (hfits.overflows_iotaValue_iff index).1 h
    · rw [hn.fitsWord_iff, not_not] at hfits
      omega
  · rw [hnone] at hw
    cases hw

/-- Reading the value in position `k` overflows if its own expression does, or the sum of the place
and the offset that is repeated. -/
theorem overflows_constValue_iff (hspec : specs[i]? = some spec) :
    (constValue i (inherited (specs.take (i + 1))) spec k).overflows = true ↔
      (∃ text, spec.values[k]? = some text ∧ (evaluate i text).overflows = true) ∨
        ∃ j origin text w, spec.values[k]? = none ∧ IsOrigin specs i j origin text ∧
          (iotaOffset? text).value = some w ∧ (iotaValue i w).overflows = true := by
  rw [constValue]
  cases hvalue : spec.values[k]? with
  | some text => simp
  | none =>
    dsimp only
    constructor
    · intro h
      cases hoffset : (inherited (specs.take (i + 1))).offset with
      | none =>
        rw [hoffset] at h
        cases h
      | some w =>
        obtain ⟨j, origin, text, horigin, hw⟩ := exists_origin hspec hoffset
        rw [hoffset] at h
        exact .inr ⟨j, origin, text, w, rfl, horigin, hw, by simpa [Option.mapM] using h⟩
    · rintro (⟨text, htext, -⟩ | ⟨j, origin, text, w, -, horigin, hw, h⟩)
      · cases htext
      · rw [horigin.inherited_eq, hw]
        simpa [Option.mapM] using h

/-- What is kept of an expression to be repeated overflows if it is the least word with its sign
changed. -/
theorem overflows_iotaOffset?_iff (text : String) :
    (iotaOffset? text).overflows = true ↔ Counter text (2 ^ 63) := by
  rcases exists_counter_or text with ⟨n, hn⟩ | hnone
  · rw [iotaOffset?_of_counter hn, Checked.overflows_map, overflows_word_iff, hn.fitsWord_iff,
      not_not]
    exact ⟨fun h => h ▸ hn, fun h => hn.unique h⟩
  · rw [hnone, Checked.overflows_pure]
    refine iff_of_false Bool.false_ne_true fun h => ?_
    rw [iotaOffset?_of_counter h] at hnone
    cases congrArg Checked.value hnone

/-- Reading a specification for what it repeats overflows if its first value is the least word with
its sign changed. -/
theorem overflows_after_iff {s : Inherited} :
    (s.after spec).overflows = true ↔
      ∃ text, spec.values.head? = some text ∧ Counter text (2 ^ 63) := by
  cases hvalues : spec.values with
  | nil => simp [Inherited.after_of_silent hvalues]
  | cons text more =>
    have hfirst : spec.values.head? = some text := by rw [hvalues]; rfl
    rw [Inherited.after_of_first hfirst, Checked.overflows_map, overflows_iotaOffset?_iff]
    simp

/-- Reading a specification overflows if reading its first value does, to be repeated, or reading
the value of one of its names. -/
def OverflowsAt (index : Nat) (s : Inherited) (spec : ConstSpec) : Prop :=
  (s.after spec).overflows = true ∨
    ∃ k < spec.names.length, (constValue index (s.after spec).value spec k).overflows = true

/-- Reading the constants of a specification overflows if reading the value of one of its names
does. -/
theorem overflows_specConstants_iff (index : Nat) (s : Inherited) (spec : ConstSpec) (span : Span)
    (doc : DocComment) :
    (specConstants index s spec span doc).overflows = true ↔
      ∃ k < spec.names.length, (constValue index s spec k).overflows = true := by
  rw [specConstants, Checked.overflows_mapM_iff]
  constructor
  · rintro ⟨⟨name, k⟩, hmem, h⟩
    have hname := List.getElem?_eq_some_iff.1 (List.mem_zipIdx_iff_getElem?.1 hmem)
    exact ⟨k, hname.1, by simpa using h⟩
  · rintro ⟨k, hk, h⟩
    have hname : spec.names[k]? = some spec.names[k] := List.getElem?_eq_getElem hk
    refine ⟨(spec.names[k], k), List.mem_zipIdx_iff_getElem?.2 hname, ?_⟩
    simpa using h

/-- A block overflows if one of its specifications does. -/
theorem overflows_constantsFrom_iff (index : Nat) (s : Inherited)
    (entries : List (ConstSpec × Span × DocComment)) :
    (constantsFrom index s entries).overflows = true ↔
      ∃ j spec, (entries.map (·.1))[j]? = some spec ∧
        OverflowsAt (index + j)
          (((entries.map (·.1)).take j).foldl (fun s spec => (s.after spec).value) s) spec := by
  induction entries generalizing index s with
  | nil => simp [constantsFrom]
  | cons entry entries ih =>
    obtain ⟨spec, span, doc⟩ := entry
    rw [constantsFrom, Checked.overflows_bind, Checked.overflows_bind, Checked.overflows_bind,
      Checked.overflows_pure, Bool.or_false, Bool.or_eq_true, Bool.or_eq_true,
      overflows_specConstants_iff, ih, ← or_assoc]
    constructor
    · rintro (h | ⟨j, spec', hspec', h⟩)
      · exact ⟨0, spec, rfl, h⟩
      · refine ⟨j + 1, spec', hspec', ?_⟩
        rw [Nat.add_right_comm, Nat.add_assoc] at h
        exact h
    · rintro ⟨j, spec', hspec', h⟩
      cases j with
      | zero =>
        obtain rfl := Option.some.inj hspec'
        exact .inl h
      | succ j =>
        refine .inr ⟨j, spec', hspec', ?_⟩
        rw [Nat.add_right_comm, Nat.add_assoc]
        exact h

/-- Reading a specification in its place overflows if its first value is the least word with its
sign changed, or the value of one of its names overflows. -/
theorem overflowsAt_iff (hspec : specs[i]? = some spec) :
    OverflowsAt i (inherited (specs.take i)) spec ↔
      (∃ text, spec.values.head? = some text ∧ Counter text (2 ^ 63)) ∨
        ∃ k < spec.names.length,
          (constValue i (inherited (specs.take (i + 1))) spec k).overflows = true := by
  rw [OverflowsAt, overflows_after_iff, inherited_take_succ hspec]

/-- A sum that is too large ends the reading in its place, or where its offset is written. -/
theorem Decides.exists_overflowsAt (h : Decides specs i k text) (hspec : specs[i]? = some spec)
    (hname : k < spec.names.length) (hn : Counter text n) (hlarge : 2 ^ 63 ≤ i + n) :
    ∃ i spec, specs[i]? = some spec ∧ OverflowsAt i (inherited (specs.take i)) spec := by
  cases h with
  | own hplace hvalue =>
    obtain rfl := Option.some.inj (hspec.symm.trans hplace)
    have hown := (overflows_evaluate_iff i text).2 ⟨n, hn, hlarge⟩
    have hread := (overflows_constValue_iff hspec).2 (.inl ⟨text, hvalue, hown⟩)
    exact ⟨i, spec, hspec, (overflowsAt_iff hspec).2 (.inr ⟨k, hname, hread⟩)⟩
  | repeated hplace hvalue horigin =>
    obtain rfl := Option.some.inj (hspec.symm.trans hplace)
    by_cases hfits : FitsWord n
    · have hoffset := congrArg Checked.value (iotaOffset?_of_counter hn)
      have hsum := (hfits.overflows_iotaValue_iff i).2 hlarge
      have hread := (overflows_constValue_iff hspec).2
        (.inr ⟨_, _, text, _, hvalue, horigin, hoffset, hsum⟩)
      exact ⟨i, spec, hspec, (overflowsAt_iff hspec).2 (.inr ⟨k, hname, hread⟩)⟩
    · rw [hn.fitsWord_iff, not_not] at hfits
      exact ⟨_, _, horigin.inPlace,
        (overflowsAt_iff horigin.inPlace).2 (.inl ⟨text, horigin.first, hfits ▸ hn⟩)⟩

/-- Reading a block overflows if and only if a number in it does not fit a word. -/
theorem overflows_constants_iff (doc : DocComment) (siblings : List (Sibling ConstSpec)) :
    (constants (withSharedDoc doc siblings)).overflows = true ↔ Overflows (nodesOf siblings) := by
  rw [constants, overflows_constantsFrom_iff, map_withSharedDoc]
  simp only [Nat.zero_add]
  constructor
  · rintro ⟨i, spec, hspec, h⟩
    rcases (overflowsAt_iff hspec).1 h with ⟨text, hfirst, hn⟩ | ⟨k, hname, h⟩
    · exact .sign (List.mem_of_getElem? hspec) hfirst hn
    · rcases (overflows_constValue_iff hspec).1 h with
        ⟨text, hvalue, h⟩ | ⟨j, origin, text, w, hvalue, horigin, hw, h⟩
      · obtain ⟨n, hn, hlarge⟩ := (overflows_evaluate_iff i text).1 h
        exact .sum hspec hname (.own hspec hvalue) hn hlarge
      · obtain ⟨n, hn, hlarge⟩ := exists_large_of_overflows hw h
        exact .sum hspec hname (.repeated hspec hvalue horigin) hn hlarge
  · intro h
    cases h with
    | sum hspec hname hdecides hn hlarge =>
      exact hdecides.exists_overflowsAt hspec hname hn hlarge
    | sign hspec hfirst hn =>
      obtain ⟨i, hi⟩ := List.mem_iff_getElem?.1 hspec
      exact ⟨i, _, hi, (overflowsAt_iff hi).2 (.inl ⟨_, hfirst, hn⟩)⟩

/-- A block comes out as its value, unless a number in it does not fit a word. -/
theorem outcome_constants_iff (doc : DocComment) (siblings : List (Sibling ConstSpec)) :
    (constants (withSharedDoc doc siblings)).outcome =
        .ok (constants (withSharedDoc doc siblings)).value ↔ ¬ Overflows (nodesOf siblings) := by
  rw [Checked.outcome_eq_value_iff, Checked.outcome_eq_error_iff, overflows_constants_iff]

end RouteAtlas.Source
