import RouteAtlas.Proofs.Json.WellQuoted

/-!
# Options that are JSON already

Bare keys are quoted wherever they seem to stand, inside of string literals too. So what becomes of
an options object that is JSON as it stands depends on its literals alone: if none of them holds
what looks like a bare key, the object is read as it is, and otherwise the quotes put into a literal
end it too early and the object is refused (`readOptions_json`). Never is another object read in its
place. The argument needs no second look at the reader: a text that it accepts is well quoted, and
quoting inside of a literal makes the text ill quoted.
-/

set_option autoImplicit false

namespace RouteAtlas.Directive

open Json (isKeyMark Meets WellQuoted)

/-! ## Keys in literals -/

/-- A brace or a comma inside of a string literal stands in front of what looks like a bare key,
where the scan of the literals begins in a state. -/
def KeyInLiteral (q : Quoting) (cs : List Char) : Prop :=
  ∃ before c behind, cs = before ++ c :: behind ∧ before.foldl Quoting.step q = .inside ∧
    isKeyMark c = true ∧ (bareKey? behind).isSome = true

/-- No key stands in the empty text. -/
theorem keyInLiteral_nil (q : Quoting) : ¬ KeyInLiteral q [] := by
  rintro ⟨before, c, behind, heq, -⟩
  simp at heq

/-- A key stands in a literal at the first character or later. -/
theorem keyInLiteral_cons {q : Quoting} {c : Char} {cs : List Char} :
    KeyInLiteral q (c :: cs) ↔
      (q = .inside ∧ isKeyMark c = true ∧ (bareKey? cs).isSome = true) ∨
        KeyInLiteral (q.step c) cs := by
  constructor
  · rintro ⟨before, d, behind, heq, hinside, hmark, hkey⟩
    cases before with
    | nil =>
      cases heq
      exact .inl ⟨hinside, hmark, hkey⟩
    | cons b before =>
      cases heq
      exact .inr ⟨before, d, behind, rfl, hinside, hmark, hkey⟩
  · rintro (⟨hinside, hmark, hkey⟩ | ⟨before, d, behind, rfl, hinside, hmark, hkey⟩)
    · exact ⟨[], c, cs, rfl, hinside, hmark, hkey⟩
    · exact ⟨c :: before, d, behind, rfl, hinside, hmark, hkey⟩

instance decidableKeyInLiteral : (q : Quoting) → (cs : List Char) → Decidable (KeyInLiteral q cs)
  | q, [] => .isFalse (keyInLiteral_nil q)
  | q, c :: cs =>
    have := decidableKeyInLiteral (q.step c) cs
    decidable_of_iff _ keyInLiteral_cons.symm

/-! ## Quoting -/

/-- A bare key begins, behind blanks, with the first character of a word. -/
theorem bareKey?_eq_some {cs blanks key behind : List Char}
    (h : bareKey? cs = some (blanks, key, behind)) :
    (∀ b ∈ blanks, Text.isBlank b = true) ∧
      ∃ c word rest, key = c :: word ∧ isKeyStart c = true ∧ cs = blanks ++ c :: rest := by
  unfold bareKey? at h
  dsimp only at h
  split at h
  · cases h
  · rename_i c rest hcs
    split_ifs at h with hstart
    split at h
    · cases h
      refine ⟨fun b hb => List.mem_takeWhile_imp hb, c, _, rest, rfl, hstart, ?_⟩
      rw [← hcs, List.takeWhile_append_dropWhile]
    · cases h

/-- A character that no bare key follows stays. -/
theorem quoteKeysFrom_cons_of_none {c : Char} {cs : List Char}
    (h : isKeyMark c = true → bareKey? cs = none) (fuel : Nat) :
    quoteKeysFrom (fuel + 1) (c :: cs) = c :: quoteKeysFrom fuel cs := by
  rw [quoteKeysFrom]
  split_ifs with hc
  · rw [h (by simpa [isKeyMark] using hc)]
  · rfl

/-- A bare key is put in quotes behind its mark. -/
theorem quoteKeysFrom_cons_of_some {c : Char} {cs blanks key behind : List Char}
    (hc : isKeyMark c = true) (h : bareKey? cs = some (blanks, key, behind)) (fuel : Nat) :
    quoteKeysFrom (fuel + 1) (c :: cs) =
      c :: (blanks ++ '"' :: (key ++ '"' :: ':' :: quoteKeysFrom fuel behind)) := by
  rw [quoteKeysFrom, if_pos (by simpa [isKeyMark] using hc), h]
  simp

/-! ## Quoting inside of literals -/

/-- Characters without quotes and escapes can be passed within a literal. -/
theorem wellQuoted_of_append_inside {cs rest : List Char}
    (hcs : ∀ c ∈ cs, c ≠ '"' ∧ c ≠ '\\') (h : WellQuoted .inside (cs ++ rest)) :
    WellQuoted .inside rest := by
  induction cs with
  | nil => exact h
  | cons c cs ih =>
    obtain ⟨hquote, hslash⟩ := hcs c (List.mem_cons_self ..)
    have htail := h.2
    rw [Quoting.step, if_neg hslash, if_neg hquote] at htail
    exact ih (fun x hx => hcs x (List.mem_cons_of_mem c hx)) htail

/-- A quote that ends a literal is not followed by a word. -/
theorem not_wellQuoted_of_word {cs rest : List Char} {c : Char}
    (hcs : ∀ x ∈ cs, x ≠ '"' ∧ x ≠ '\\') (hc : isKeyStart c = true) :
    ¬ WellQuoted .inside (cs ++ '"' :: c :: rest) := by
  intro h
  have hmeets : Meets [',', ':', '}', ']'] (c :: rest) :=
    (wellQuoted_of_append_inside hcs h).1 rfl
  have hblank : Json.isBlank c = false := by
    by_contra hblank
    have hcases : c = ' ' ∨ c = '\n' ∨ c = '\t' ∨ c = '\r' := by
      simpa [Json.isBlank, or_iff_not_imp_left] using hblank
    rcases hcases with rfl | rfl | rfl | rfl <;> exact absurd hc (by decide)
  have hmark := hmeets c (by rw [List.dropWhile_cons_of_neg (by simp [hblank])]; rfl)
  fin_cases hmark <;> exact absurd hc (by decide)

/-- A blank is neither a quote nor an escape. -/
theorem ne_of_isBlank {c : Char} (h : Text.isBlank c = true) : c ≠ '"' ∧ c ≠ '\\' := by
  constructor <;> rintro rfl <;> exact absurd h (by decide)

/-- The keys of a well quoted text all have their quotes; what else is quoted in it stands in
literals, and spoils it. -/
theorem quoteKeysFrom_cases {q : Quoting} {cs : List Char} (hquoted : WellQuoted q cs) {fuel : Nat}
    (hfuel : cs.length ≤ fuel) :
    (¬ KeyInLiteral q cs ∧ quoteKeysFrom fuel cs = cs) ∨
      (KeyInLiteral q cs ∧ ¬ WellQuoted q (quoteKeysFrom fuel cs)) := by
  induction cs generalizing q fuel with
  | nil => exact .inl ⟨keyInLiteral_nil q, by cases fuel <;> rfl⟩
  | cons c cs ih =>
    obtain ⟨fuel, rfl⟩ : ∃ n, fuel = n + 1 := ⟨fuel - 1, by simp at hfuel; omega⟩
    rw [keyInLiteral_cons]
    by_cases hkey : isKeyMark c = true ∧ (bareKey? cs).isSome = true
    · -- The first key that is quoted is the one that matters: it can only stand in a literal.
      obtain ⟨hmark, hsome⟩ := hkey
      obtain ⟨⟨blanks, key, behind⟩, hfound⟩ := Option.isSome_iff_exists.1 hsome
      have hinside : q = .inside := by
        cases q with
        | outside => simp [hquoted.1 hmark] at hsome
        | escaped => exact absurd hmark (by simp [show isKeyMark c = false from hquoted.1])
        | inside => rfl
      subst hinside
      refine .inr ⟨.inl ⟨rfl, hmark, hsome⟩, ?_⟩
      obtain ⟨hblanks, d, word, rest, rfl, hstart, -⟩ := bareKey?_eq_some hfound
      rw [quoteKeysFrom_cons_of_some hmark hfound, List.cons_append, ← List.cons_append]
      apply not_wellQuoted_of_word _ hstart
      intro x hx
      rcases List.mem_cons.1 hx with rfl | hx
      · constructor <;> rintro rfl <;> exact absurd hmark (by decide)
      · exact ne_of_isBlank (hblanks x hx)
    · have hnone : isKeyMark c = true → bareKey? cs = none := by simpa using hkey
      rw [quoteKeysFrom_cons_of_none hnone]
      rcases ih hquoted.2 (Nat.le_of_succ_le_succ hfuel) with ⟨hno, heq⟩ | ⟨hyes, hill⟩
      · refine .inl ⟨?_, by rw [heq]⟩
        rintro (⟨-, hhere⟩ | hlater)
        · exact hkey hhere
        · exact hno hlater
      · exact .inr ⟨.inr hyes, fun h => hill h.2⟩

/-- An options object that is JSON as it stands is read as it is if no literal of it holds what
looks like a bare key, and is refused otherwise. -/
theorem readOptions_json {cs : List Char} {j : Json} {members : Options}
    (hread : Json.read (String.ofList cs) = .ok j) (hobject : j.canonical = .object members) :
    (readOptions cs = .ok members ↔ ¬ KeyInLiteral .outside cs) ∧
      (KeyInLiteral .outside cs → ∃ e, readOptions cs = .error (.unreadable e)) := by
  have hquoted := Json.wellQuoted_of_read hread
  rw [String.toList_ofList] at hquoted
  rcases quoteKeysFrom_cases hquoted (le_refl cs.length) with ⟨hno, heq⟩ | ⟨hyes, hill⟩
  · have hsame : readOptions cs = .ok members := by
      rw [readOptions, quoteKeys, heq, hread]
      simp only [hobject]
    exact ⟨iff_of_true hsame hno, fun hkey => absurd hkey hno⟩
  · obtain ⟨e, hfault⟩ : ∃ e, readOptions cs = .error (.unreadable e) := by
      rw [readOptions]
      cases hagain : Json.read (String.ofList (quoteKeys cs)) with
      | error e => exact ⟨e, rfl⟩
      | ok j' =>
        have hquoted' := Json.wellQuoted_of_read hagain
        rw [String.toList_ofList] at hquoted'
        exact absurd hquoted' hill
    refine ⟨iff_of_false ?_ (not_not.2 hyes), fun _ => ⟨e, hfault⟩⟩
    rw [hfault]
    exact nofun

/-- An options object with a comma and braces in a string value. -/
def listed : String := "\x7b\"name\": \"q\", \"validate\": \"required, \x7buuid\x7d\"\x7d"

/-- Options with a comma and braces in a value are read as the record they are. -/
theorem readOptions_json_listed :
    Json.read (String.ofList listed.toList) =
        .ok (.object [("name", .string "q"), ("validate", .string "required, \x7buuid\x7d")]) ∧
      readOptions listed.toList =
        .ok [("name", .string "q"), ("validate", .string "required, \x7buuid\x7d")] := by
  have hread : Json.read (String.ofList listed.toList) =
      .ok (.object [("name", .string "q"), ("validate", .string "required, \x7buuid\x7d")]) := by
    decide +kernel
  exact ⟨hread, (readOptions_json hread (by decide +kernel)).1.2 (by decide +kernel)⟩

/-- An options object with a comma and a colon in a string value. -/
def listedWithColon : String := "\x7b\"name\": \"q\", \"validate\": \"oneof=a, b:c\"\x7d"

/-- A word behind a comma in a literal is taken for a key when a colon follows it, and the object
is refused. -/
theorem readOptions_refused :
    Json.read (String.ofList listedWithColon.toList) =
        .ok (.object [("name", .string "q"), ("validate", .string "oneof=a, b:c")]) ∧
      readOptions listedWithColon.toList =
        .error (.unreadable ⟨.objectCommaExpected, 1, 38⟩) := by
  constructor <;> decide +kernel

end RouteAtlas.Directive
