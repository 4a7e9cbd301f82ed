import RouteAtlas.Proofs.Json.ReadBack

/-!
# Words and numbers in the text

What a word and a number leave of the text they are read from: a word takes its letters
(`rest_of_readWord`), and a number takes digits, signs, points and exponent marks and nothing else
(`passes_readNumber`), however its digits fit into the value that is read.
-/

set_option autoImplicit false

namespace RouteAtlas.Json

/-- A reading that fails at a cursor gives nothing. -/
@[simp] theorem Cursor.fail_ne_ok {α : Type} (cur : Cursor) (fault : Fault) (a : α) :
    cur.fail fault ≠ .ok a := nofun

/-- A reading that fails behind a cursor gives nothing. -/
@[simp] theorem Cursor.failNext_ne_ok {α : Type} (cur : Cursor) (fault : Fault) (a : α) :
    cur.failNext fault ≠ .ok a := by
  unfold Cursor.failNext
  split
  · exact nofun
  · split_ifs <;> exact nofun

/-- The next character, if it is not the mark of the end. -/
theorem Cursor.rest_of_peek {cur : Cursor} {c : Char} (hc : c ≠ '\x00') (h : cur.peek = c) :
    ∃ rest, cur.rest = c :: rest := by
  unfold Cursor.peek at h
  cases hcur : cur.rest with
  | nil =>
    rw [hcur] at h
    exact absurd h.symm hc
  | cons d rest =>
    rw [hcur] at h
    exact ⟨rest, by rw [← h]; rfl⟩

/-- A word takes its letters and nothing else. -/
theorem rest_of_readWord {value j : Json} {word : List Char} {cur cur' : Cursor}
    (h : readWord value word cur = .ok (j, cur')) : cur.rest = word ++ cur'.rest := by
  induction word generalizing cur with
  | nil =>
    cases h
    rfl
  | cons expected word ih =>
    rw [readWord] at h
    cases hcur : cur.rest with
    | nil => simp [hcur] at h
    | cons c rest =>
      simp only [hcur] at h
      split_ifs at h with hc
      · rw [hc, ← Cursor.rest_skip hcur, ih h, List.cons_append]
      · simp at h

/-! ## Numbers -/

/-- A character that can be part of a number. -/
def isNumeric (c : Char) : Bool :=
  c.isDigit || c = '+' || c = '-' || c = '.' || c = 'e' || c = 'E'

/-- A digit is a character of numbers. -/
theorem isNumeric_of_isDigit {c : Char} (h : c.isDigit = true) : isNumeric c = true := by
  simp [isNumeric, h]

/-- Only characters of numbers lie between two cursors. -/
def Passes (cur cur' : Cursor) : Prop :=
  ∃ numeral, (∀ c ∈ numeral, isNumeric c = true) ∧ cur.rest = numeral ++ cur'.rest

/-- Nothing lies between a cursor and itself. -/
theorem Passes.refl (cur : Cursor) : Passes cur cur := ⟨[], by simp, rfl⟩

/-- What lies between two cursors lies on both sides of one between them. -/
theorem Passes.trans {cur cur' cur'' : Cursor} (h : Passes cur cur') (h' : Passes cur' cur'') :
    Passes cur cur'' := by
  obtain ⟨numeral, hnumeral, hcur⟩ := h
  obtain ⟨numeral', hnumeral', hcur'⟩ := h'
  refine ⟨numeral ++ numeral', ?_, by rw [hcur, hcur', List.append_assoc]⟩
  intro c hc
  exact (List.mem_append.1 hc).elim (hnumeral c) (hnumeral' c)

/-- A character of numbers may be passed. -/
theorem passes_after {cur : Cursor} {c : Char} {rest : List Char} (hcur : cur.rest = c :: rest)
    (hc : isNumeric c = true) : Passes cur (cur.after c rest) := by
  refine ⟨[c], by simpa using hc, ?_⟩
  rw [Cursor.rest_after, hcur]
  rfl

/-- Skipping a character of numbers passes that. -/
theorem passes_skip {cur : Cursor} {c : Char} {rest : List Char} (hcur : cur.rest = c :: rest)
    (hc : isNumeric c = true) : Passes cur cur.skip := by
  have hafter : cur.skip = cur.after c rest := by rw [Cursor.skip, hcur]
  rw [hafter]
  exact passes_after hcur hc

/-- Skipping what was seen to be a character of numbers passes that. -/
theorem passes_skip_of_peek {cur : Cursor} {c : Char} (h : cur.peek = c)
    (hc : isNumeric c = true) : Passes cur cur.skip := by
  have hend : c ≠ '\x00' := by
    rintro rfl
    exact absurd hc (by decide)
  obtain ⟨rest, hcur⟩ := Cursor.rest_of_peek hend h
  exact passes_skip hcur hc

/-- Skipping digits passes them. -/
theorem passes_skipDigits (cur : Cursor) : Passes cur (skipDigits cur).2 := by
  refine ⟨cur.rest.takeWhile Char.isDigit,
    fun c hc => isNumeric_of_isDigit (List.mem_takeWhile_imp hc), ?_⟩
  show cur.rest = _ ++ cur.rest.drop (cur.rest.takeWhile Char.isDigit).length
  exact (List.prefix_iff_eq_append.1 (List.takeWhile_prefix _)).symm

/-- Gathering the digits of a significand passes them, kept or not. -/
theorem passes_gatherDigits (cur : Cursor) (significand : Nat) :
    Passes cur (gatherDigits cur significand).2.2 := by
  have hgo : ∀ (cs : List Char) (significand count : Nat) (cur : Cursor), cur.rest = cs →
      Passes cur (gatherDigits.go cs significand count cur).2.2 := by
    intro cs
    induction cs with
    | nil => exact fun _ _ cur _ => Passes.refl cur
    | cons c cs ih =>
      intro significand count cur hcur
      rw [gatherDigits.go]
      split_ifs with hc
      · have hdigit : c.isDigit = true := (Bool.and_eq_true_iff.1 hc).1
        exact (passes_after hcur (isNumeric_of_isDigit hdigit)).trans
          (ih _ _ _ (Cursor.rest_after ..))
      · exact Passes.refl cur
  exact hgo cur.rest significand 0 cur rfl

/-- Gathering the digits of an exponent passes them. -/
theorem passes_gatherExponent (cur : Cursor) (power : Nat) :
    Passes cur (gatherExponent cur power).2.2 := by
  have hgo : ∀ (cs : List Char) (power : Nat) (cur : Cursor), cur.rest = cs →
      Passes cur (gatherExponent.go cs power cur).2.2 := by
    intro cs
    induction cs with
    | nil => exact fun _ cur _ => Passes.refl cur
    | cons c cs ih =>
      intro power cur hcur
      rw [gatherExponent.go]
      split_ifs with hdigit hfits
      · exact (passes_after hcur (isNumeric_of_isDigit hdigit)).trans
          (ih _ _ (Cursor.rest_after ..))
      · exact passes_after hcur (isNumeric_of_isDigit hdigit)
      · exact Passes.refl cur
  exact hgo cur.rest power cur rfl

/-- Putting a decimal number together passes what digits are left. -/
theorem passes_finishDecimal {minus : Bool} {significand : Nat} {exponent : Int} {j : Json}
    {cur cur' : Cursor} (h : finishDecimal minus significand exponent cur = .ok (j, cur')) :
    Passes cur cur' := by
  unfold finishDecimal at h
  split at h
  · cases h
    exact Passes.refl cur
  · cases h

/-- Reading an exponent passes its mark, its sign and its digits. -/
theorem passes_readExponent {minus : Bool} {significand : Nat} {scale : Int} {j : Json}
    {cur cur' : Cursor} {c : Char} {rest : List Char} (hcur : cur.rest = c :: rest)
    (hc : isNumeric c = true) (h : readExponent minus significand scale cur = .ok (j, cur')) :
    Passes cur cur' := by
  have hsign : Passes cur.skip
      (if cur.skip.peek = '+' || cur.skip.peek = '-' then cur.skip.skip else cur.skip) := by
    split_ifs with hmark
    · rcases Bool.or_eq_true_iff.1 hmark with hplus | hminus
      · exact passes_skip_of_peek (of_decide_eq_true hplus) (by decide)
      · exact passes_skip_of_peek (of_decide_eq_true hminus) (by decide)
    · exact Passes.refl _
  refine (passes_skip hcur hc).trans (hsign.trans ?_)
  unfold readExponent at h
  dsimp only at h
  generalize (if cur.skip.peek = '+' || cur.skip.peek = '-' then cur.skip.skip
    else cur.skip) = behind at h ⊢
  cases hbehind : behind.rest with
  | nil => simp [hbehind] at h
  | cons d digits =>
    have hdigits : ¬ (!d.isDigit) = true →
        Passes behind (gatherExponent behind.skip (digitOf d)).2.2 := by
      intro hdigit
      exact (passes_skip hbehind (isNumeric_of_isDigit (by simpa using hdigit))).trans
        (passes_gatherExponent behind.skip (digitOf d))
    simp only [hbehind] at h
    split_ifs at h with hdigit
    · simp at h
    · exact (hdigits hdigit).trans (passes_finishDecimal h)
    · exact (hdigits hdigit).trans (passes_finishDecimal h)
    · simp at h
    -- The exponent does not fit, and the value is zero.
    all_goals
      cases h
      exact (hdigits hdigit).trans (passes_skipDigits _)

/-- Reading what can follow a fraction passes an exponent or nothing. -/
theorem passes_readScale {minus : Bool} {significand : Nat} {scale : Int} {j : Json}
    {cur cur' : Cursor} (h : readScale minus significand scale cur = .ok (j, cur')) :
    Passes cur cur' := by
  unfold readScale at h
  split_ifs at h with hmark
  · obtain ⟨c, hc, rest, hcur⟩ : ∃ c, isNumeric c = true ∧ ∃ rest, cur.rest = c :: rest := by
      rcases Bool.or_eq_true_iff.1 hmark with hlower | hupper
      · exact ⟨'e', by decide, Cursor.rest_of_peek (by decide) (of_decide_eq_true hlower)⟩
      · exact ⟨'E', by decide, Cursor.rest_of_peek (by decide) (of_decide_eq_true hupper)⟩
    exact passes_readExponent hcur hc h
  · exact passes_finishDecimal h

/-- Reading a fraction passes its point, its digits and its exponent. -/
theorem passes_readFraction {minus : Bool} {significand : Nat} {scale : Int} {j : Json}
    {cur cur' : Cursor} (hpoint : cur.peek = '.')
    (h : readFraction minus significand scale cur = .ok (j, cur')) : Passes cur cur' := by
  have hdigits : Passes cur (gatherDigits cur.skip significand).2.2 :=
    (passes_skip_of_peek hpoint (by decide)).trans (passes_gatherDigits cur.skip significand)
  simp only [readFraction] at h
  split_ifs at h
  · exact hdigits.trans ((passes_skipDigits _).trans (passes_readScale h))
  · simp at h
  · simp at h
  · exact hdigits.trans (passes_readScale h)

/-- Reading what can follow the digits of a number passes a fraction, an exponent or nothing. -/
theorem passes_readNumberTail {minus : Bool} {significand : Nat} {j : Json} {cur cur' : Cursor}
    (h : readNumberTail minus significand cur = .ok (j, cur')) : Passes cur cur' := by
  unfold readNumberTail at h
  split_ifs at h with hpoint hmark
  · exact passes_readFraction hpoint h
  · have hscale : readScale minus significand 0 cur = .ok (j, cur') := by
      rw [readScale, if_pos hmark]
      exact h
    exact passes_readScale hscale
  all_goals
    cases h
    exact Passes.refl cur

/-- Reading a number passes characters of numbers only. -/
theorem passes_readNumber {minus : Bool} {j : Json} {cur cur' : Cursor}
    (h : readNumber minus cur = .ok (j, cur')) : Passes cur cur' := by
  unfold readNumber at h
  cases hcur : cur.rest with
  | nil => simp [hcur] at h
  | cons c rest =>
    have hdigits : c.isDigit = true → Passes cur (gatherDigits cur.skip (digitOf c)).2.2 :=
      fun hdigit => (passes_skip hcur (isNumeric_of_isDigit hdigit)).trans (passes_gatherDigits _ _)
    simp only [hcur] at h
    split_ifs at h with hzero _ hdigit _ hpoint
    · simp at h
    · exact (passes_skip hcur (by rw [hzero]; decide)).trans (passes_readNumberTail h)
    · exact (hdigits hdigit).trans ((passes_skipDigits _).trans (passes_readFraction hpoint h))
    · exact (hdigits hdigit).trans ((passes_skipDigits _).trans (passes_readScale h))
    · exact (hdigits hdigit).trans (passes_readNumberTail h)
    · simp at h

end RouteAtlas.Json
