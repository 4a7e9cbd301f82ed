import RouteAtlas.Proofs.Checked
import RouteAtlas.Proofs.Text.Search
import RouteAtlas.Source.Constant

/-!
# Counter expressions

An expression is a counter if it is `iota`, alone or with a numeral that fits a word added to it or
taken from it. In a place of its block a counter is worth its offset plus the number of that place,
and any other expression its text (`Denotes`). What is computed for it, `worth`, is that as long as
the sum fits a word; a sum that does not is reduced to one (`denotes_worth_iff`), and where
arithmetic is checked the computation stops there (`overflows_evaluate_iff`).
-/

set_option autoImplicit false

namespace RouteAtlas.Source

/-- The number that decimal digits stand for. -/
def decimal (digits : List Char) : Nat :=
  Nat.ofDigits 10 (digits.reverse.map fun c => c.toNat - '0'.toNat)

/-- One digit or more. -/
def IsDigits (cs : List Char) : Prop := cs ≠ [] ∧ ∀ c ∈ cs, c.isDigit = true

/-- The numerals of the numbers that fit a word, perhaps with a sign. -/
inductive Numeral : List Char → Int → Prop
  | plain {digits : List Char} (h : IsDigits digits) (hfit : decimal digits < 2 ^ 63) :
      Numeral digits (decimal digits)
  | plus {digits : List Char} (h : IsDigits digits) (hfit : decimal digits < 2 ^ 63) :
      Numeral ('+' :: digits) (decimal digits)
  | minus {digits : List Char} (h : IsDigits digits) (hfit : decimal digits ≤ 2 ^ 63) :
      Numeral ('-' :: digits) (-(decimal digits : Int))

/-- The counter expressions, with their offsets. Blanks do not count. -/
inductive Counter (text : String) : Int → Prop
  | alone (h : (Text.squeeze text).toList = "iota".toList) : Counter text 0
  | plus {numeral : List Char} {n : Int} (hn : Numeral numeral n)
      (h : (Text.squeeze text).toList = "iota".toList ++ '+' :: numeral) : Counter text n
  | minus {numeral : List Char} {n : Int} (hn : Numeral numeral n)
      (h : (Text.squeeze text).toList = "iota".toList ++ '-' :: numeral) : Counter text (-n)

/-- What an expression denotes in a place of a block: a counter the sum of the place and its offset,
any other expression its text. -/
inductive Denotes (index : Nat) (text : String) : String → Prop
  | counter {n : Int} (h : Counter text n) : Denotes index text (toString (index + n))
  | literal (h : ∀ n, ¬ Counter text n) : Denotes index text (literalValue text)

/-- Whether a number fits a word. -/
def FitsWord (n : Int) : Prop := -2 ^ 63 ≤ n ∧ n < 2 ^ 63

/-- The value that is computed for an expression in a place of a block, if numbers wrap around. -/
def worth (index : Nat) (text : String) : String := (evaluate index text).value

/-! ## Words -/

/-- A number is reduced to itself if it fits a word. -/
theorem bmod_eq_self_iff (n : Int) : n.bmod (2 ^ 64) = n ↔ FitsWord n := by
  rw [Int.bmod_eq_iff (by decide), FitsWord]
  simp

/-- A number is kept in a word if it fits one. -/
theorem toInt_ofInt_eq_iff (n : Int) : (Int64.ofInt n).toInt = n ↔ FitsWord n := by
  rw [Int64.toInt_ofInt]
  exact bmod_eq_self_iff n

/-- Making a word of a number overflows if the number does not fit one. -/
theorem overflows_word_iff (n : Int) : (Checked.word n).overflows = true ↔ ¬ FitsWord n := by
  rw [← toInt_ofInt_eq_iff, Checked.word, bne_iff_ne]

/-- Making a word of a number that fits one is no arithmetic that could overflow. -/
theorem word_of_fitsWord {n : Int} (h : FitsWord n) : Checked.word n = pure (Int64.ofInt n) := by
  refine Checked.ext rfl ?_
  rw [Checked.overflows_pure, ← Bool.not_eq_true, overflows_word_iff, not_not]
  exact h

/-! ## Numerals -/

/-- Reading digits from the left, each shifting what was read before, gives their number. -/
theorem foldl_digits (digits : List Char) :
    digits.foldl (fun n c => 10 * n + (c.toNat - '0'.toNat)) 0 = decimal digits := by
  rw [List.foldl_eq_foldr_reverse, decimal, Nat.ofDigits_eq_foldr, List.foldr_map]
  congr 1
  funext c n
  rw [Nat.cast_id, Nat.add_comm]

/-- The test that turns a numeral away turns away what is empty or holds something but digits. -/
theorem not_isDigits_iff (cs : List Char) :
    (cs.isEmpty || !cs.all Char.isDigit) = true ↔ ¬ IsDigits cs := by
  rw [IsDigits, ← Bool.not_eq_false, not_iff_not]
  simp

/-- The sign at the front of a numeral, whether it is a minus, and what stands behind it. -/
def signed : List Char → Bool × List Char
  | '-' :: digits => (true, digits)
  | '+' :: digits => (false, digits)
  | digits => (false, digits)

/-- The word that digits stand for, behind a minus or not. -/
def wordOf? (minus : Bool) (digits : List Char) : Option Int64 :=
  if minus then
    if decimal digits ≤ 2 ^ 63 then some (Int64.ofInt (-(decimal digits : Int))) else none
  else if decimal digits < 2 ^ 63 then some (Int64.ofInt (decimal digits)) else none

/-- Digits without a minus are a word below `2 ^ 63`. -/
theorem wordOf?_plus_eq_some_iff {digits : List Char} {w : Int64} :
    wordOf? false digits = some w ↔ decimal digits < 2 ^ 63 ∧ w = Int64.ofInt (decimal digits) := by
  simp [wordOf?, eq_comm]

/-- Digits behind a minus are a word up to `2 ^ 63`. -/
theorem wordOf?_minus_eq_some_iff {digits : List Char} {w : Int64} :
    wordOf? true digits = some w ↔
      decimal digits ≤ 2 ^ 63 ∧ w = Int64.ofInt (-(decimal digits : Int)) := by
  simp [wordOf?, eq_comm]

/-- A number is read if what stands behind its sign is digits. -/
theorem signedWord?_eq_some_iff {cs : List Char} {w : Int64} :
    signedWord? (String.ofList cs) = some w ↔
      IsDigits (signed cs).2 ∧ wordOf? (signed cs).1 (signed cs).2 = some w := by
  have hread : signedWord? (String.ofList cs) =
      if (signed cs).2.isEmpty || !(signed cs).2.all Char.isDigit then none
      else wordOf? (signed cs).1 (signed cs).2 := by
    unfold signedWord?
    rw [String.toList_ofList]
    simp only [foldl_digits]
    rfl
  rw [hread]
  split
  · rename_i h
    rw [not_isDigits_iff] at h
    simp [h]
  · rename_i h
    rw [not_isDigits_iff, not_not] at h
    simp [h]

/-- A numeral begins with a minus, with a plus, or with neither. -/
theorem signed_cases (cs : List Char) :
    (∃ digits, cs = '-' :: digits ∧ signed cs = (true, digits)) ∨
      (∃ digits, cs = '+' :: digits ∧ signed cs = (false, digits)) ∨ signed cs = (false, cs) := by
  unfold signed
  split
  · exact .inl ⟨_, rfl, rfl⟩
  · exact .inr (.inl ⟨_, rfl, rfl⟩)
  · exact .inr (.inr rfl)

/-- Digits alone have no sign in front. -/
theorem IsDigits.signed_eq {cs : List Char} (h : IsDigits cs) : signed cs = (false, cs) := by
  rcases signed_cases cs with ⟨digits, rfl, -⟩ | ⟨digits, rfl, -⟩ | h'
  · exact absurd (h.2 '-' (List.mem_cons_self ..)) (by decide)
  · exact absurd (h.2 '+' (List.mem_cons_self ..)) (by decide)
  · exact h'

/-- A numeral is read as the number that it stands for. -/
theorem signedWord?_of_numeral {cs : List Char} {n : Int} (h : Numeral cs n) :
    signedWord? (String.ofList cs) = some (Int64.ofInt n) := by
  rw [signedWord?_eq_some_iff]
  cases h with
  | plain h hfit =>
    rw [h.signed_eq]
    exact ⟨h, wordOf?_plus_eq_some_iff.2 ⟨hfit, rfl⟩⟩
  | plus h hfit => exact ⟨h, wordOf?_plus_eq_some_iff.2 ⟨hfit, rfl⟩⟩
  | minus h hfit => exact ⟨h, wordOf?_minus_eq_some_iff.2 ⟨hfit, rfl⟩⟩

/-- Whatever is read as a number is a numeral for it. -/
theorem exists_numeral {cs : List Char} {w : Int64}
    (h : signedWord? (String.ofList cs) = some w) : ∃ n, Numeral cs n ∧ w = Int64.ofInt n := by
  obtain ⟨hdigits, hword⟩ := signedWord?_eq_some_iff.1 h
  rcases signed_cases cs with ⟨digits, rfl, hs⟩ | ⟨digits, rfl, hs⟩ | hs
  · rw [hs] at hdigits hword
    obtain ⟨hfit, rfl⟩ := wordOf?_minus_eq_some_iff.1 hword
    exact ⟨_, .minus hdigits hfit, rfl⟩
  · rw [hs] at hdigits hword
    obtain ⟨hfit, rfl⟩ := wordOf?_plus_eq_some_iff.1 hword
    exact ⟨_, .plus hdigits hfit, rfl⟩
  · rw [hs] at hdigits hword
    obtain ⟨hfit, rfl⟩ := wordOf?_plus_eq_some_iff.1 hword
    exact ⟨_, .plain hdigits hfit, rfl⟩

/-- A numeral stands for one number. -/
theorem Numeral.unique {cs : List Char} {m n : Int} (hm : Numeral cs m) (hn : Numeral cs n) :
    m = n := by
  cases hm with
  | plain h _ =>
    cases hn with
    | plain _ _ => rfl
    | plus _ _ => exact absurd (h.2 '+' (List.mem_cons_self ..)) (by decide)
    | minus _ _ => exact absurd (h.2 '-' (List.mem_cons_self ..)) (by decide)
  | plus _ _ =>
    cases hn with
    | plain h _ => exact absurd (h.2 '+' (List.mem_cons_self ..)) (by decide)
    | plus _ _ => rfl
  | minus _ _ =>
    cases hn with
    | plain h _ => exact absurd (h.2 '-' (List.mem_cons_self ..)) (by decide)
    | minus _ _ => rfl

/-! ## Counters -/

variable {text : String}

/-- A counter has one offset. -/
theorem Counter.unique {m n : Int} (hm : Counter text m) (hn : Counter text n) : m = n := by
  cases hm with
  | alone h =>
    cases hn with
    | alone _ => rfl
    | plus _ h' => exact absurd (h.symm.trans h') (by simp)
    | minus _ h' => exact absurd (h.symm.trans h') (by simp)
  | plus hm h =>
    cases hn with
    | alone h' => exact absurd (h.symm.trans h') (by simp)
    | plus hn h' =>
      obtain ⟨-, rfl⟩ := List.cons.inj (List.append_cancel_left (h.symm.trans h'))
      exact hm.unique hn
    | minus _ h' => exact absurd (h.symm.trans h') (by simp)
  | minus hm h =>
    cases hn with
    | alone h' => exact absurd (h.symm.trans h') (by simp)
    | plus _ h' => exact absurd (h.symm.trans h') (by simp)
    | minus hn h' =>
      obtain ⟨-, rfl⟩ := List.cons.inj (List.append_cancel_left (h.symm.trans h'))
      rw [hm.unique hn]

/-- A counter begins with the first letter of `iota`. -/
theorem Counter.head? {n : Int} (h : Counter text n) :
    (Text.squeeze text).toList.head? = some 'i' := by
  cases h with
  | alone h => rw [h]; rfl
  | plus _ h => rw [h]; rfl
  | minus _ h => rw [h]; rfl

/-- What begins with another character is no counter. -/
theorem not_counter_of_head {c : Char} {cs : List Char} (htext : text.toList = c :: cs)
    (hblank : Text.isBlank c = false) (hc : c ≠ 'i') (n : Int) : ¬ Counter text n := by
  intro hcounter
  have hhead := hcounter.head?
  rw [Text.squeeze, String.toList_ofList, htext, List.filter_cons_of_pos (by simp [hblank]),
    List.head?_cons, Option.some.injEq] at hhead
  exact hc hhead

/-- A numeral stands for a number that fits a word. -/
theorem Numeral.fitsWord {cs : List Char} {n : Int} (h : Numeral cs n) : FitsWord n := by
  rw [FitsWord]
  cases h with
  | plain _ hfit => omega
  | plus _ hfit => omega
  | minus _ hfit => omega

/-- An offset is a word, or the least word with its sign changed. -/
theorem Counter.bounds {n : Int} (h : Counter text n) : -2 ^ 63 ≤ n ∧ n ≤ 2 ^ 63 := by
  cases h with
  | alone _ => decide
  | plus hn _ =>
    obtain ⟨hleast, hgreatest⟩ := hn.fitsWord
    exact ⟨hleast, hgreatest.le⟩
  | minus hn _ =>
    obtain ⟨hleast, hgreatest⟩ := hn.fitsWord
    omega

/-- The offset that is computed for a counter is its own, made a word. -/
theorem iotaOffset?_of_counter {n : Int} (h : Counter text n) :
    iotaOffset? text = some <$> Checked.word n := by
  unfold iotaOffset? Text.stripLead?
  cases h with
  | alone h =>
    rw [h]
    rfl
  | plus hn h =>
    have hrest := Text.afterLead?_eq_some_iff.2 h
    rw [hrest, word_of_fitsWord hn.fitsWord, map_pure]
    simp [signedWord?_of_numeral hn]
  | minus hn h =>
    have hrest := Text.afterLead?_eq_some_iff.2 h
    rw [hrest]
    simp [signedWord?_of_numeral hn, (toInt_ofInt_eq_iff _).2 hn.fitsWord]

/-- An expression is a counter, or no offset is computed for it. -/
theorem exists_counter_or (text : String) :
    (∃ n, Counter text n) ∨ iotaOffset? text = pure none := by
  unfold iotaOffset? Text.stripLead?
  cases hrest : Text.afterLead? "iota".toList (Text.squeeze text).toList with
  | none => exact .inr rfl
  | some rest =>
    rw [Option.map_some]
    rw [Text.afterLead?_eq_some_iff] at hrest
    split
    · exact .inr rfl
    · rename_i hnil
      obtain rfl : rest = [] := by simpa using hnil
      exact .inl ⟨0, .alone (by simpa using hrest)⟩
    · rename_i r _ hr
      obtain rfl : String.ofList rest = r := Option.some.inj hr
      rw [String.toList_ofList]
      split
      · rename_i digits _
        cases hword : signedWord? (String.ofList digits) with
        | none => exact .inr rfl
        | some w =>
          obtain ⟨n, hn, -⟩ := exists_numeral hword
          exact .inl ⟨n, .plus hn hrest⟩
      · rename_i digits _
        cases hword : signedWord? (String.ofList digits) with
        | none => exact .inr rfl
        | some w =>
          obtain ⟨n, hn, -⟩ := exists_numeral hword
          exact .inl ⟨-n, .minus hn hrest⟩
      · exact .inr rfl

/-- No offset is computed for what is no counter, and nothing can overflow. -/
theorem iotaOffset?_of_literal (h : ∀ n, ¬ Counter text n) : iotaOffset? text = pure none :=
  (exists_counter_or text).resolve_left (not_exists.2 h)

/-! ## Values -/

/-- The sum of a place and an offset is computed in words. -/
theorem value_iotaValue (index : Nat) (n : Int) :
    (iotaValue index (Int64.ofInt n)).value = toString ((index + n).bmod (2 ^ 64)) := by
  rw [iotaValue, Checked.value_bind, Checked.value_pure, Checked.word, Int64.toInt_ofInt,
    Int64.toInt_ofInt]
  exact congrArg toString (Int.add_bmod_bmod ..)

/-- The sum of a place and an offset overflows if it does not fit a word. -/
theorem overflows_iotaValue_iff (index : Nat) (offset : Int64) :
    (iotaValue index offset).overflows = true ↔ ¬ FitsWord (index + offset.toInt) := by
  rw [iotaValue, Checked.overflows_bind, Checked.overflows_pure, Bool.or_false, overflows_word_iff]

/-- An offset is a word unless it is the least word with its sign changed. -/
theorem Counter.fitsWord_iff {n : Int} (h : Counter text n) : FitsWord n ↔ n ≠ 2 ^ 63 := by
  obtain ⟨hleast, hgreatest⟩ := h.bounds
  rw [FitsWord]
  omega

/-- The sum of a place and an offset that is a word overflows if it is `2 ^ 63` or more. -/
theorem FitsWord.overflows_iotaValue_iff {n : Int} (h : FitsWord n) (index : Nat) :
    (iotaValue index (Int64.ofInt n)).overflows = true ↔ 2 ^ 63 ≤ index + n := by
  rw [Source.overflows_iotaValue_iff, (toInt_ofInt_eq_iff n).2 h]
  rw [FitsWord] at h ⊢
  omega

/-- A counter is computed in two steps: its offset is made a word, and its place is added. -/
theorem evaluate_of_counter {n : Int} (h : Counter text n) (index : Nat) :
    evaluate index text = Checked.word n >>= iotaValue index := by
  rw [evaluate, iotaOffset?_of_counter h, bind_map_left]

/-- An expression that is no counter needs no arithmetic. -/
theorem evaluate_of_literal (h : ∀ n, ¬ Counter text n) (index : Nat) :
    evaluate index text = pure (literalValue text) := by
  rw [evaluate, iotaOffset?_of_literal h, pure_bind]

/-- A counter is worth the sum of its place and its offset, reduced to a word. -/
theorem worth_of_counter {n : Int} (h : Counter text n) (index : Nat) :
    worth index text = toString ((index + n).bmod (2 ^ 64)) := by
  rw [worth, evaluate_of_counter h, Checked.value_bind]
  exact value_iotaValue index n

/-- What is no counter is worth its text, whatever its place. -/
theorem worth_of_literal (h : ∀ n, ¬ Counter text n) (index : Nat) :
    worth index text = literalValue text := by
  rw [worth, evaluate_of_literal h, Checked.value_pure]

/-- An expression overflows if it is a counter and its sum with the place is `2 ^ 63` or more. -/
theorem overflows_evaluate_iff (index : Nat) (text : String) :
    (evaluate index text).overflows = true ↔ ∃ n, Counter text n ∧ 2 ^ 63 ≤ index + n := by
  by_cases hcounter : ∃ n, Counter text n
  · obtain ⟨n, hn⟩ := hcounter
    have hsum : (∃ m, Counter text m ∧ 2 ^ 63 ≤ index + m) ↔ 2 ^ 63 ≤ index + n :=
      ⟨fun ⟨m, hm, hlarge⟩ => hn.unique hm ▸ hlarge, fun hlarge => ⟨n, hn, hlarge⟩⟩
    rw [hsum, evaluate_of_counter hn, Checked.overflows_bind, Bool.or_eq_true, overflows_word_iff]
    by_cases hfits : FitsWord n
    · exact (or_iff_right (not_not.2 hfits)).trans (hfits.overflows_iotaValue_iff index)
    · refine iff_of_true (.inl hfits) ?_
      rw [hn.fitsWord_iff, not_not] at hfits
      omega
  · rw [not_exists] at hcounter
    rw [evaluate_of_literal hcounter, Checked.overflows_pure]
    exact iff_of_false Bool.false_ne_true fun ⟨n, hn, _⟩ => hcounter n hn

/-- The value of a name that has an expression of its own is what is computed for that. -/
theorem constValue_of_value {spec : ConstSpec} {k : Nat} (h : spec.values[k]? = some text)
    (index : Nat) (i : Inherited) :
    constValue index i spec k = some <$> evaluate index text := by
  rw [constValue, h]

/-- An expression is worth what it denotes if it is no counter, or the sum fits a word. -/
theorem denotes_worth_iff (index : Nat) (text : String) :
    Denotes index text (worth index text) ↔ ∀ n, Counter text n → FitsWord (index + n) := by
  by_cases hcounter : ∃ n, Counter text n
  · obtain ⟨n, hn⟩ := hcounter
    rw [worth_of_counter hn]
    constructor
    · intro h m hm
      obtain rfl := hm.unique hn
      generalize htext : toString ((index + m : Int).bmod (2 ^ 64)) = value at h
      cases h with
      | counter h =>
        obtain rfl := h.unique hm
        rw [← bmod_eq_self_iff]
        exact Int.repr_injective htext
      | literal h => exact absurd hm (h m)
    · intro h
      rw [(bmod_eq_self_iff _).2 (h n hn)]
      exact .counter hn
  · rw [not_exists] at hcounter
    rw [worth_of_literal hcounter]
    exact iff_of_true (.literal hcounter) fun n hn => absurd hn (hcounter n)

end RouteAtlas.Source
