import RouteAtlas.Proofs.Source.Blocks

/-!
# Constants

A specification gives one constant for each of its names. What a specification without values takes
from the expression that counts in its place is its offset only, so a repeated expression that is no
counter is worth nothing (`constants_repeat`).

The names of a specification are kept with the commas between them, and the values without. So the
name in position `k` is paired with the value in position `2 * k`, which is its own for a single
name only (`constants_paired`).
-/

set_option autoImplicit false

namespace RouteAtlas.Source

variable {doc : DocComment} {siblings : List (Sibling ConstSpec)} {specs : List ConstSpec}
  {spec origin : ConstSpec} {text : String} {i j : Nat}

/-! ## Repeated expressions -/

/-- Specifications with one name each have as many names as there are of them. -/
theorem nameCount_of_single (h : ∀ spec ∈ specs, spec.names.length = 1) :
    nameCount specs = specs.length := by
  rw [nameCount, List.map_congr_left h]
  simp

/-- The expression that counts in a place decides the value of the first name there. -/
theorem IsOrigin.decides (h : IsOrigin specs i j origin text) (hspec : specs[i]? = some spec) :
    Decides specs i 0 text := by
  rcases eq_or_lt_of_le h.le with rfl | hlt
  · refine .own h.inPlace ?_
    rw [← List.head?_eq_getElem?, h.first]
  · refine .repeated hspec ?_ h
    rw [h.silent i spec hlt (Nat.le_refl i) hspec]
    rfl

/-- The value in a place of what has its expression there or repeats it: its worth, unless it is
repeated and no counter. -/
theorem IsOrigin.value_constValue (h : IsOrigin specs i j origin text)
    (hspec : specs[i]? = some spec) :
    ((j = i ∨ ∃ n, Counter text n) →
        (constValue i (inherited (specs.take (i + 1))) spec 0).value = some (worth i text)) ∧
      ((j ≠ i ∧ ∀ n, ¬ Counter text n) →
        (constValue i (inherited (specs.take (i + 1))) spec 0).value = none) := by
  constructor
  · intro hkept
    refine (h.decides hspec).value_constValue hspec (hkept.imp_left ?_)
    rintro rfl
    rw [← List.head?_eq_getElem?, Option.some.inj (hspec.symm.trans h.inPlace), h.first]
  · rintro ⟨hother, hliteral⟩
    have hlt : j < i := Nat.lt_of_le_of_ne h.le hother
    rw [h.inherited_eq, constValue, h.silent i spec hlt (Nat.le_refl i) hspec,
      iotaOffset?_of_literal hliteral]
    rfl

/-- The value in a place is what the expression that counts there denotes, if it is the own one or a
counter, and its sum with the place fits a word. -/
theorem IsOrigin.exists_denotes_iff (h : IsOrigin specs i j origin text)
    (hspec : specs[i]? = some spec) :
    (∃ value, Denotes i text value ∧
        (constValue i (inherited (specs.take (i + 1))) spec 0).value = some value) ↔
      (j = i ∨ ∃ n, Counter text n) ∧ ∀ n, Counter text n → FitsWord (i + n) := by
  obtain ⟨hworth, hnone⟩ := h.value_constValue hspec
  rw [← denotes_worth_iff]
  by_cases hkept : j = i ∨ ∃ n, Counter text n
  · rw [hworth hkept]
    constructor
    · rintro ⟨value, hvalue, heq⟩
      cases heq
      exact ⟨hkept, hvalue⟩
    · exact fun hdenotes => ⟨worth i text, hdenotes.2, rfl⟩
  · rw [hnone (by simpa using hkept)]
    refine iff_of_false ?_ fun hdenotes => hkept hdenotes.1
    rintro ⟨value, -, heq⟩
    cases heq

/-- In a block whose specifications have one name each, the constant in a place has the type of the
specification that its expression comes from. Its value is what the expression denotes there if and
only if the expression is its own or a counter, and the sum of a counter fits a word; a repeated
expression of any other sort leaves it without a value. Where arithmetic is checked these constants
come out unless a number in the block does not fit a word. -/
theorem constants_repeat (doc : DocComment)
    (hsingle : ∀ spec ∈ nodesOf siblings, spec.names.length = 1)
    (h : IsOrigin (nodesOf siblings) i j origin text) :
    (constants (withSharedDoc doc siblings)).value.length = (nodesOf siblings).length ∧
      (∃ c, (constants (withSharedDoc doc siblings)).value[i]? = some c ∧
        (nodesOf siblings)[i]?.map (·.names) = some [c.name] ∧ c.type = origin.type ∧
        ((∃ value, Denotes i text value ∧ c.value = some value) ↔
          (j = i ∨ ∃ n, Counter text n) ∧ ∀ n, Counter text n → FitsWord (i + n)) ∧
        ((j ≠ i ∧ ∀ n, ¬ Counter text n) → c.value = none)) ∧
      ((constants (withSharedDoc doc siblings)).outcome =
          .ok (constants (withSharedDoc doc siblings)).value ↔
        ¬ Overflows (nodesOf siblings)) := by
  have hlength :
      (constants (withSharedDoc doc siblings)).value.length = (nodesOf siblings).length := by
    rw [constants, length_constantsFrom, map_withSharedDoc, nameCount_of_single hsingle]
  obtain ⟨spec, hspec⟩ : ∃ spec, (nodesOf siblings)[i]? = some spec :=
    ⟨_, List.getElem?_eq_getElem h.lt⟩
  obtain ⟨name, hname⟩ := List.length_eq_one_iff.1 (hsingle spec (List.mem_of_getElem? hspec))
  obtain ⟨front, back, span, own, hblock, hfront, -⟩ := exists_block doc hspec
  have hplace : front.length = i := by
    rw [hfront, nameCount_of_single fun s hs => hsingle s (List.mem_of_mem_take hs),
      List.length_take_of_le h.lt.le]
  have hown : ∃ c,
      (specConstants i (inherited ((nodesOf siblings).take (i + 1))) spec span own).value = [c] ∧
      spec.names = [c.name] ∧ c.type = origin.type ∧
      c.value = (constValue i (inherited ((nodesOf siblings).take (i + 1))) spec 0).value := by
    rw [value_specConstants, hname, h.inherited_eq]
    exact ⟨_, rfl, rfl, rfl, rfl⟩
  obtain ⟨c, hc, hnames, htype, hvalue⟩ := hown
  refine ⟨hlength, ⟨c, ?_, ?_, htype, ?_, ?_⟩, outcome_constants_iff doc siblings⟩
  · rw [hblock, hc, ← hplace, List.getElem?_append_right (Nat.le_refl _), Nat.sub_self]
    rfl
  · rw [hspec, Option.map_some, hnames]
  · rw [hvalue]
    exact h.exists_denotes_iff hspec
  · rw [hvalue]
    exact (h.value_constValue hspec).2

/-- The block `Red Color = iota` and `Green`, with a comment between them. -/
def colors : List (Sibling ConstSpec) :=
  [.node ⟨["Red"], some (.named none "Color"), ["iota"]⟩ {}, .comment "// then" {},
    .node ⟨["Green"], none, []⟩ {}]

/-- The second of the colors repeats the type and the counter of the first. -/
theorem constants_repeat_colors :
    (∀ spec ∈ nodesOf colors, spec.names.length = 1) ∧
      IsOrigin (nodesOf colors) 1 0 ⟨["Red"], some (.named none "Color"), ["iota"]⟩ "iota" ∧
      ∃ c, (constants (withSharedDoc {} colors)).value[1]? = some c ∧
        c.type = some (.named none "Color") ∧
        ∃ value, Denotes 1 "iota" value ∧ c.value = some value := by
  have hsingle : ∀ spec ∈ nodesOf colors, spec.names.length = 1 := by decide
  have horigin :
      IsOrigin (nodesOf colors) 1 0 ⟨["Red"], some (.named none "Color"), ["iota"]⟩ "iota" := by
    refine ⟨by decide, by decide, rfl, rfl, fun k spec hlt hle hspec => ?_⟩
    obtain rfl : k = 1 := by omega
    cases hspec
    rfl
  have hcounter : Counter "iota" 0 := .alone (by decide +kernel)
  obtain ⟨-, ⟨c, hc, -, htype, hvalue, -⟩, -⟩ := constants_repeat {} hsingle horigin
  refine ⟨hsingle, horigin, c, hc, htype, hvalue.2 ⟨.inr ⟨0, hcounter⟩, fun n hn => ?_⟩⟩
  obtain rfl := hn.unique hcounter
  exact ⟨by decide, by decide⟩

/-- The block `A T = "x"` and `B`. -/
def defaults : List (Sibling ConstSpec) :=
  [.node ⟨["A"], some (.named none "T"), ["\"x\""]⟩ {}, .node ⟨["B"], none, []⟩ {}]

/-- The second constant repeats a literal and has no value. -/
theorem repeatedLiteral_lost :
    (∀ spec ∈ nodesOf defaults, spec.names.length = 1) ∧
      IsOrigin (nodesOf defaults) 1 0 ⟨["A"], some (.named none "T"), ["\"x\""]⟩ "\"x\"" ∧
      Denotes 1 "\"x\"" "x" ∧
      (constants (withSharedDoc {} defaults)).outcome.map
          (fun block => block.map fun c => (c.name, c.value)) =
        .ok [("A", some "x"), ("B", none)] := by
  refine ⟨by decide, ⟨by decide, by decide, rfl, rfl, fun k spec hlt hle hspec => ?_⟩, ?_,
    by decide +kernel⟩
  · obtain rfl : k = 1 := by omega
    cases hspec
    rfl
  · have htext : "\"x\"".toList = '"' :: ['x', '"'] := by decide
    have hnone : ∀ n, ¬ Counter "\"x\"" n := not_counter_of_head htext (by decide) (by decide)
    have hliteral : literalValue "\"x\"" = "x" := by decide +kernel
    rw [← hliteral]
    exact .literal hnone

/-! ## Names and values -/

/-- The names stand in the even positions, the commas between them. -/
theorem getElem?_withCommas (ids : List String) (k : Nat) : (withCommas ids)[2 * k]? = ids[k]? := by
  induction ids generalizing k with
  | nil => rfl
  | cons id ids ih =>
    cases ids with
    | nil => cases k <;> rfl
    | cons next ids =>
      cases k with
      | zero => rfl
      | succ k => exact ih k

/-- There is one comma less than there are names. -/
theorem length_withCommas {ids : List String} (hids : ids ≠ []) :
    (withCommas ids).length + 1 = 2 * ids.length := by
  induction ids with
  | nil => exact absurd rfl hids
  | cons id ids ih =>
    cases ids with
    | nil => rfl
    | cons next ids =>
      have hmore := ih (List.cons_ne_nil next ids)
      rw [withCommas, List.length_cons, List.length_cons, List.length_cons]
      · omega
      · exact nofun

/-- Reading a specification keeps its names with the commas between them. -/
theorem exists_names_of_readConstSpec {src : Contents} {ts : List Token}
    {p : Parsed (ConstSpec × Span)} (h : readConstSpec src ts = some p) :
    ∃ ids, ids ≠ [] ∧ p.value.1.names = withCommas ids := by
  cases ts with
  | nil => cases h
  | cons first rest =>
    refine ⟨first.lexeme :: (moreNames rest.length rest).1.map (·.lexeme),
      List.cons_ne_nil _ _, ?_⟩
    unfold readConstSpec at h
    dsimp only at h
    split_ifs at h
    split at h
    · cases h; rfl
    · split_ifs at h
      · cases h; rfl
      · obtain ⟨values, -, hp⟩ := Option.bind_eq_some_iff.1 h
        cases hp; rfl
      · obtain ⟨type, -, hp⟩ := Option.bind_eq_some_iff.1 h
        split at hp
        · split_ifs at hp
          obtain ⟨values, -, hp⟩ := Option.bind_eq_some_iff.1 hp
          cases hp; rfl
        · cases hp

/-- What a specification with as many expressions as names should give. -/
def paired (index : Nat) (ids exprs : List String) : List (String × Option String) :=
  List.zipWith (fun id text => (id, some (worth index text))) ids exprs

/-- A specification gives what it should if and only if it has one name: with more names there are
more constants than names. -/
theorem specConstants_paired_iff {ids exprs : List String} (hids : ids ≠ [])
    (hnames : spec.names = withCommas ids) (hexprs : exprs.length = ids.length)
    (hfirst : spec.values.head? = exprs.head?) (index : Nat) (s : Inherited) (span : Span)
    (doc : DocComment) :
    (specConstants index s spec span doc).value.map (fun c => (c.name, c.value)) =
        paired index ids exprs ↔ ids.length = 1 := by
  constructor
  · intro h
    have hlength := congrArg List.length h
    rw [List.length_map, paired, List.length_zipWith, hexprs, Nat.min_self,
      ← List.length_map (f := ConstDecl.name), map_name_specConstants, hnames] at hlength
    have htotal := length_withCommas hids
    omega
  · intro h
    obtain ⟨id, rfl⟩ := List.length_eq_one_iff.1 h
    obtain ⟨text, rfl⟩ := List.length_eq_one_iff.1 (hexprs.trans h)
    have hvalue : spec.values[0]? = some text := by rw [← List.head?_eq_getElem?, hfirst]; rfl
    have hworth : (constValue index s spec 0).value = some (worth index text) := by
      rw [constValue_of_value hvalue, Checked.value_map, worth]
    rw [value_specConstants, hnames]
    simp [withCommas, paired, hworth]

/-- The constants of a specification with some names and as many expressions, of which the first
comes first among its values, stand behind those of the specifications before it. Their names are
these names and the commas between them, and the name in position `k` has the worth of the value in
position `2 * k`. So they are the names with the worths of their expressions if and only if there is
one name. Where arithmetic is checked they come out unless a number in the block does not fit a
word. -/
theorem constants_paired (doc : DocComment) (h : (nodesOf siblings)[i]? = some spec)
    {ids exprs : List String} (hids : ids ≠ []) (hnames : spec.names = withCommas ids)
    (hexprs : exprs.length = ids.length) (hfirst : spec.values.head? = exprs.head?) :
    (∃ front own back, (constants (withSharedDoc doc siblings)).value = front ++ (own ++ back) ∧
      front.length = nameCount ((nodesOf siblings).take i) ∧
      back.length = nameCount ((nodesOf siblings).drop (i + 1)) ∧
      own.map (·.name) = withCommas ids ∧
      (∀ k id, ids[k]? = some id → ∃ c, own[2 * k]? = some c ∧ c.name = id ∧
        ∀ text, spec.values[2 * k]? = some text → c.value = some (worth i text)) ∧
      (own.map (fun c => (c.name, c.value)) = paired i ids exprs ↔ ids.length = 1)) ∧
    ((constants (withSharedDoc doc siblings)).outcome =
        .ok (constants (withSharedDoc doc siblings)).value ↔ ¬ Overflows (nodesOf siblings)) := by
  refine ⟨?_, outcome_constants_iff doc siblings⟩
  obtain ⟨front, back, span, own, hblock, hfront, hback⟩ := exists_block doc h
  refine ⟨front, _, back, hblock, hfront, hback, ?_, fun k id hid => ?_,
    specConstants_paired_iff hids hnames hexprs hfirst ..⟩
  · rw [map_name_specConstants, hnames]
  · rw [getElem?_specConstants, hnames, getElem?_withCommas, hid]
    refine ⟨_, rfl, rfl, fun text htext => ?_⟩
    rw [constValue_of_value htext, Checked.value_map, worth]

/-- The specification `A = 1`. -/
def oneName : ConstSpec := ⟨["A"], none, ["1"]⟩

/-- A specification with one name and one value gives that name with that value. -/
theorem constants_paired_oneName :
    (nodesOf [Sibling.node oneName {}])[0]? = some oneName ∧ oneName.names = withCommas ["A"] ∧
      oneName.values.head? = ["1"].head? ∧
      ∃ front own back,
        (constants (withSharedDoc {} [.node oneName {}])).value = front ++ (own ++ back) ∧
        own.map (fun c => (c.name, c.value)) = [("A", some "1")] := by
  have hplace : (nodesOf [Sibling.node oneName {}])[0]? = some oneName := rfl
  have hlength : ["1"].length = ["A"].length := rfl
  obtain ⟨⟨front, own, back, hblock, -, -, -, -, hpaired⟩, -⟩ :=
    constants_paired {} hplace (List.cons_ne_nil "A" []) rfl hlength rfl
  exact ⟨hplace, rfl, rfl, front, own, back, hblock, (hpaired.2 rfl).trans (by decide +kernel)⟩

/-- The specification `A, B = 1, 2`. -/
def twoNames : ConstSpec := ⟨withCommas ["A", "B"], none, ["1", "2"]⟩

/-- The comma is taken for a name and has the second value. -/
theorem constants_comma :
    twoNames.names = withCommas ["A", "B"] ∧ twoNames.values = ["1", "2"] ∧
      (constants (withSharedDoc {} [.node twoNames {}])).outcome.map
          (fun block => block.map fun c => (c.name, c.value)) =
        .ok [("A", some "1"), (",", some "2"), ("B", none)] ∧
      paired 0 ["A", "B"] ["1", "2"] = [("A", some "1"), ("B", some "2")] := by
  decide +kernel

end RouteAtlas.Source
