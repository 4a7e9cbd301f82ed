import RouteAtlas.Proofs.Source.Blocks
import RouteAtlas.Source.File

/-!
# Counters at the ends of the range

The offset of a counter expression and the sum of an offset and a place are words. A number that is
taken away is read before its sign is changed, so the offset is one too large for a word if the
least word is taken away; and a sum is too large if it is `2 ^ 63` or more. Where arithmetic is
checked either ends the reading of the block, and so of the file (`outcome_read_eq_error_iff`). A
block that is read to its end has the sum of the place and the offset for every name that a counter
decides (`counters_exact`).
-/

set_option autoImplicit false

namespace RouteAtlas

namespace Source

variable {specs : List ConstSpec} {spec : ConstSpec} {siblings : List (Sibling ConstSpec)}
  {text name : String} {i k : Nat} {n : Int}

/-! ## Offsets and sums -/

/-- Computing the offset of a counter overflows if the least word is taken away, and if not it is
the offset as a number. -/
theorem Counter.outcome_iotaOffset? (h : Counter text n) :
    ((iotaOffset? text).outcome = .error .overflow ↔ n = 2 ^ 63) ∧
      (n ≠ 2 ^ 63 → ∃ offset, (iotaOffset? text).outcome = .ok (some offset) ∧ offset.toInt = n) := by
  rw [Checked.outcome_eq_error_iff, overflows_iotaOffset?_iff]
  refine ⟨⟨fun hleast => h.unique hleast, fun hn => hn ▸ h⟩, fun hn => ?_⟩
  have hfits : FitsWord n := h.fitsWord_iff.2 hn
  rw [iotaOffset?_of_counter h, word_of_fitsWord hfits, map_pure]
  exact ⟨_, rfl, (toInt_ofInt_eq_iff n).2 hfits⟩

/-- Adding a place to an offset overflows if their sum as numbers is `2 ^ 63` or more. -/
theorem outcome_iotaValue_eq_error_iff (index : Nat) (offset : Int64) :
    (iotaValue index offset).outcome = .error .overflow ↔ 2 ^ 63 ≤ index + offset.toInt := by
  have hoffset : FitsWord offset.toInt := by
    rw [← toInt_ofInt_eq_iff, Int64.ofInt_toInt]
  rw [Checked.outcome_eq_error_iff, ← hoffset.overflows_iotaValue_iff, Int64.ofInt_toInt]

/-! ## Values -/

/-- The sum of a place and an offset is the value of a name that a counter decides, if nothing in
the block overflows. -/
theorem Decides.value_constValue_of_fits (h : Decides specs i k text)
    (hspec : specs[i]? = some spec) (hname : k < spec.names.length) (hn : Counter text n)
    (hfits : ¬ Overflows specs) :
    (constValue i (inherited (specs.take (i + 1))) spec k).value = some (toString (i + n)) := by
  have hsum : FitsWord (i + n) := by
    obtain ⟨hleast, -⟩ := hn.bounds
    refine ⟨by omega, ?_⟩
    by_contra hlarge
    exact hfits (.sum hspec hname h hn (not_lt.1 hlarge))
  rw [h.value_constValue hspec (.inr ⟨n, hn⟩), worth_of_counter hn, (bmod_eq_self_iff _).2 hsum]

/-- Where arithmetic is checked, changing the sign of an offset overflows for the least word only,
adding a place to an offset that is a word overflows if the sum as numbers is `2 ^ 63` or more, and
a block is not read to its end if and only if one of these happens in it. If it is read, the value
of every name that a counter decides is the sum of its place and its offset. -/
theorem counters_exact (doc : DocComment) (hspec : (nodesOf siblings)[i]? = some spec)
    (hname : spec.names[k]? = some name) (hdecides : Decides (nodesOf siblings) i k text)
    (hn : Counter text n) :
    ((iotaOffset? text).outcome = .error .overflow ↔ n = 2 ^ 63) ∧
      (n ≠ 2 ^ 63 → ∃ offset, (iotaOffset? text).outcome = .ok (some offset) ∧ offset.toInt = n ∧
        ((iotaValue i offset).outcome = .error .overflow ↔ 2 ^ 63 ≤ i + n)) ∧
      ((constants (withSharedDoc doc siblings)).outcome = .error .overflow ↔
        Overflows (nodesOf siblings)) ∧
      ∀ block, (constants (withSharedDoc doc siblings)).outcome = .ok block →
        ∃ front own back c, block = front ++ (own ++ back) ∧
          front.length = nameCount ((nodesOf siblings).take i) ∧ own.map (·.name) = spec.names ∧
          own[k]? = some c ∧ c.name = name ∧ c.value = some (toString (i + n)) := by
  obtain ⟨hsign, hkept⟩ := hn.outcome_iotaOffset?
  have hblock : (constants (withSharedDoc doc siblings)).outcome = .error .overflow ↔
      Overflows (nodesOf siblings) := by
    rw [Checked.outcome_eq_error_iff, overflows_constants_iff]
  refine ⟨hsign, fun hsmall => ?_, hblock, fun block hread => ?_⟩
  · obtain ⟨offset, hoffset, hnumber⟩ := hkept hsmall
    refine ⟨offset, hoffset, hnumber, ?_⟩
    rw [outcome_iotaValue_eq_error_iff, hnumber]
  · have hfits : ¬ Overflows (nodesOf siblings) := by
      rw [← hblock, hread]
      simp
    obtain ⟨-, rfl⟩ := Checked.outcome_eq_ok_iff.1 hread
    obtain ⟨front, back, span, own, hsplit, hfront, -⟩ := exists_block doc hspec
    have hplace : k < spec.names.length := (List.getElem?_eq_some_iff.1 hname).1
    have hvalue := hdecides.value_constValue_of_fits hspec hplace hn hfits
    obtain ⟨c, hc, hcname, hcvalue⟩ : ∃ c,
        (specConstants i (inherited ((nodesOf siblings).take (i + 1))) spec span own).value[k]? =
          some c ∧ c.name = name ∧ c.value = some (toString (i + n)) := by
      rw [getElem?_specConstants, hname]
      exact ⟨_, rfl, rfl, hvalue⟩
    exact ⟨front, _, back, c, hsplit, hfront, map_name_specConstants .., hc, hcname, hcvalue⟩

/-- The block `Last = iota + 9223372036854775806` and `Next`. -/
def toTheEnd : List (Sibling ConstSpec) :=
  [.node ⟨["Last"], none, ["iota + 9223372036854775806"]⟩ {}, .node ⟨["Next"], none, []⟩ {}]

/-- The block `Last = iota + 9223372036854775806`, `Next`, `Beyond` and
`Least = iota - -9223372036854775808`. -/
def beyondTheEnd : List (Sibling ConstSpec) :=
  toTheEnd ++
    [.node ⟨["Beyond"], none, []⟩ {}, .node ⟨["Least"], none, ["iota - -9223372036854775808"]⟩ {}]

/-- The offset of the first three names. -/
theorem counter_last : Counter "iota + 9223372036854775806" (2 ^ 63 - 2) := by
  have hdigits : IsDigits "9223372036854775806".toList :=
    ⟨by decide, List.all_eq_true.1 (by decide +kernel)⟩
  have hfit : decimal "9223372036854775806".toList < 2 ^ 63 := by decide +kernel
  have hnumber : (decimal "9223372036854775806".toList : Int) = 2 ^ 63 - 2 := by decide +kernel
  rw [← hnumber]
  exact .plus (.plain hdigits hfit) (by decide +kernel)

/-- The offset of the last name. -/
theorem counter_least : Counter "iota - -9223372036854775808" (2 ^ 63) := by
  have hdigits : IsDigits "9223372036854775808".toList :=
    ⟨by decide, List.all_eq_true.1 (by decide +kernel)⟩
  have hfit : decimal "9223372036854775808".toList ≤ 2 ^ 63 := by decide +kernel
  have hnumber : (2 ^ 63 : Int) = -(-(decimal "9223372036854775808".toList : Int)) := by
    decide +kernel
  rw [hnumber]
  exact .minus (.minus hdigits hfit) (by decide +kernel)

/-- A block is read to its end if its largest value is the largest word. -/
theorem counters_exact_toTheEnd :
    (nodesOf toTheEnd)[1]? = some ⟨["Next"], none, []⟩ ∧
      Decides (nodesOf toTheEnd) 1 0 "iota + 9223372036854775806" ∧
      Counter "iota + 9223372036854775806" (2 ^ 63 - 2) ∧
      ∃ block, (constants (withSharedDoc {} toTheEnd)).outcome = .ok block ∧
        ∃ front own back c, block = front ++ (own ++ back) ∧ own[0]? = some c ∧ c.name = "Next" ∧
          c.value = some "9223372036854775807" := by
  have hplace : (nodesOf toTheEnd)[1]? = some ⟨["Next"], none, []⟩ := rfl
  have hdecides : Decides (nodesOf toTheEnd) 1 0 "iota + 9223372036854775806" :=
    .repeated hplace rfl (.succ (.here rfl rfl) rfl rfl)
  have hread : (constants (withSharedDoc {} toTheEnd)).outcome =
      .ok (constants (withSharedDoc {} toTheEnd)).value := by decide +kernel
  have htext : toString ((1 : Nat) + (2 ^ 63 - 2) : Int) = "9223372036854775807" := by
    decide +kernel
  obtain ⟨-, -, -, hvalues⟩ := counters_exact {} hplace rfl hdecides counter_last
  obtain ⟨front, own, back, c, hblock, -, -, hc, hname, hvalue⟩ := hvalues _ hread
  exact ⟨hplace, hdecides, counter_last, _, hread, front, own, back, c, hblock, hc, hname,
    htext ▸ hvalue⟩

/-- The sum of the third place and its offset leaves the range, and so does the offset of the fourth
when its sign is changed. Either is enough for the block not to be read. -/
theorem overflow_beyondTheEnd :
    Decides (nodesOf beyondTheEnd) 2 0 "iota + 9223372036854775806" ∧
      Counter "iota + 9223372036854775806" (2 ^ 63 - 2) ∧
      toString ((2 : Nat) + (2 ^ 63 - 2) : Int) = "9223372036854775808" ∧
      (evaluate 2 "iota + 9223372036854775806").outcome = .error .overflow ∧
      Decides (nodesOf beyondTheEnd) 3 0 "iota - -9223372036854775808" ∧
      Counter "iota - -9223372036854775808" (2 ^ 63) ∧
      toString ((3 : Nat) + 2 ^ 63 : Int) = "9223372036854775811" ∧
      (iotaOffset? "iota - -9223372036854775808").outcome = .error .overflow ∧
      (constants (withSharedDoc {} beyondTheEnd)).outcome = .error .overflow :=
  ⟨.repeated rfl rfl (.succ (.succ (.here rfl rfl) rfl rfl) rfl rfl), counter_last,
    by decide +kernel, by decide +kernel, .own rfl rfl, counter_least, by decide +kernel,
    by decide +kernel, by decide +kernel⟩

end Source

namespace SourceFile

open Source

/-- Adding a declaration to a file overflows if it is a block that is not read to its end. -/
theorem overflows_add_iff (f : SourceFile) (decl : TopLevel × Span × DocComment) :
    (f.add decl).overflows = true ↔
      f.overflows = true ∨ ∃ specs, decl.1 = .consts specs ∧ Overflows (nodesOf specs) := by
  obtain ⟨content, span, doc⟩ := decl
  cases content with
  | package name =>
    simp only [add]
    split <;> simp
  | method m => cases m <;> simp [add]
  | consts specs => simp [add, overflows_constants_iff]
  | _ => simp [add]

/-- Adding declarations to a file overflows if adding one of them does. -/
theorem overflows_foldl_add_iff (f : SourceFile) (decls : List (TopLevel × Span × DocComment)) :
    (decls.foldl add f).overflows = true ↔
      f.overflows = true ∨
        ∃ decl ∈ decls, ∃ specs, decl.1 = .consts specs ∧ Overflows (nodesOf specs) := by
  induction decls generalizing f with
  | nil => simp
  | cons decl decls ih =>
    rw [List.foldl_cons, ih, overflows_add_iff, List.exists_mem_cons_iff, or_assoc]

/-- A file is not read if and only if a number in one of its blocks of constants does not fit a
word. -/
theorem outcome_read_eq_error_iff (path : PathName) (bytes : ByteArray) :
    (read path bytes).outcome = .error .overflow ↔
      ∃ decl ∈ declarations ⟨bytes⟩ (layout (tokens bytes.toList)), ∃ specs,
        decl.1 = .consts specs ∧ Overflows (nodesOf specs) := by
  rw [outcome, Checked.outcome_eq_error_iff, read, overflows_foldl_add_iff]
  simp

end SourceFile

end RouteAtlas
