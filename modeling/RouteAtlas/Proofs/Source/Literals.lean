import RouteAtlas.Proofs.Source.Counters
import RouteAtlas.Proofs.Source.Tags

/-!
# String literals

A text can be written between back quotes, as it is, or between double quotes, with a backslash
before every quote in it. A literal between back quotes is read back as it was. Of a literal between
double quotes all quotes at its ends are dropped, so the quote that a text ends with is lost, and
the backslash that was written before it stays (`unquote_quotedLiteral`). Therefore the two forms
differ for the texts that end with a quote, and as tags for those that end with the quote behind a
value, as tags do (`literals_readBack`).
-/

set_option autoImplicit false

namespace RouteAtlas.Source

/-- A character as it is written between double quotes. -/
def escapeQuote (c : Char) : List Char := if c = '"' then ['\\', '"'] else [c]

/-- The literal for a text between double quotes, with a backslash before every quote. -/
def quotedLiteral (s : String) : String :=
  String.ofList ('"' :: (s.toList.flatMap escapeQuote ++ ['"']))

/-- The literal for a text between back quotes. -/
def rawLiteral (s : String) : String := String.ofList ('\x60' :: (s.toList ++ ['\x60']))

/-- The last character is a double quote. -/
def EndsWithQuote (s : String) : Prop := s.toList.getLast? = some '"'

instance (s : String) : Decidable (EndsWithQuote s) :=
  inferInstanceAs (Decidable (s.toList.getLast? = some '"'))

/-- The text with a backslash in the place of the quote that it ends with, if it ends with one. -/
def cropped (s : String) : String :=
  if EndsWithQuote s then String.ofList (s.toList.dropLast ++ ['\\']) else s

/-- Whether a tag ends with the quote behind a value: a colon and a quote stand in it, and behind
them comes only one quote, at the end. -/
def EndsInValue (s : String) : Prop :=
  ∃ front value : List Char, '"' ∉ value ∧ s.toList = front ++ ':' :: '"' :: (value ++ ['"'])

variable {s : String} {cs : List Char}

/-! ## Reading literals -/

/-- A literal between back quotes is read back as it was. -/
theorem unquote_rawLiteral (s : String) : unquote (rawLiteral s) = s := by
  have hinner : betweenBackQuotes? ('\x60' :: (s.toList ++ ['\x60'])) = some s.toList := by
    simp [betweenBackQuotes?]
  rw [unquote, rawLiteral, String.toList_ofList, hinner]
  exact String.ofList_toList

/-- Replacing the escaped quotes takes the escaping back, and goes on behind it. -/
theorem replaceChars_escaped (h : '\\' ∉ cs) (fuel : Nat) (rest : List Char) :
    Text.replaceChars ['\\', '"'] ['"'] (cs.length + fuel) (cs.flatMap escapeQuote ++ rest) =
      cs ++ Text.replaceChars ['\\', '"'] ['"'] fuel rest := by
  induction cs with
  | nil => simp
  | cons c cs ih =>
    obtain ⟨hc, hcs⟩ : '\\' ≠ c ∧ '\\' ∉ cs := by simpa using h
    have hfuel : (c :: cs).length + fuel = (cs.length + fuel) + 1 := by
      rw [List.length_cons]
      omega
    rw [hfuel, List.flatMap_cons, escapeQuote]
    split
    · rename_i hquote
      subst hquote
      simp [Text.replaceChars, Text.afterLead?, ih hcs]
    · simp [Text.replaceChars, Text.afterLead?, hc, ih hcs]

/-- Escaping makes no text shorter, so the length of the escaped one is fuel enough. -/
theorem length_le_length_escaped (cs : List Char) :
    cs.length ≤ (cs.flatMap escapeQuote).length := by
  induction cs with
  | nil => exact Nat.le_refl 0
  | cons c cs ih =>
    have hone : 1 ≤ (escapeQuote c).length := by
      rw [escapeQuote]
      split <;> simp
    rw [List.flatMap_cons, List.length_append, List.length_cons]
    omega

/-- Nothing is replaced in less than an escaped quote. -/
theorem replaceChars_of_mem {rest : List Char} (h : rest = [] ∨ rest = ['\\']) (fuel : Nat) :
    Text.replaceChars ['\\', '"'] ['"'] fuel rest = rest := by
  rcases h with rfl | rfl <;> rcases fuel with _ | _ | fuel <;> rfl

/-- Replacing the escaped quotes of a whole text takes the escaping back. -/
theorem replace_escaped (h : '\\' ∉ cs) {rest : List Char} (hrest : rest = [] ∨ rest = ['\\']) :
    Text.replace "\\\"" "\"" (String.ofList (cs.flatMap escapeQuote ++ rest)) =
      String.ofList (cs ++ rest) := by
  have hlen := length_le_length_escaped cs
  obtain ⟨fuel, hfuel⟩ :
      ∃ fuel, (cs.flatMap escapeQuote ++ rest).length + 1 = cs.length + fuel := by
    refine ⟨(cs.flatMap escapeQuote ++ rest).length + 1 - cs.length, ?_⟩
    rw [List.length_append]
    omega
  have hchars : Text.replaceChars ['\\', '"'] ['"'] (cs.length + fuel)
      (cs.flatMap escapeQuote ++ rest) = cs ++ rest := by
    rw [replaceChars_escaped h, replaceChars_of_mem hrest]
  simp only [Text.replace, String.toList_ofList, hfuel]
  exact congrArg String.ofList hchars

/-- Dropping quotes at the front of a literal drops its opening quote only, unless it is empty. -/
theorem dropLeading_escaped (hne : cs ≠ []) (rest : List Char) :
    Text.dropLeading (· == '"') ('"' :: (cs.flatMap escapeQuote ++ rest)) =
      cs.flatMap escapeQuote ++ rest := by
  rw [Text.dropLeading, List.dropWhile_cons_of_pos (by decide)]
  cases cs with
  | nil => exact absurd rfl hne
  | cons c cs =>
    rw [List.flatMap_cons, escapeQuote]
    split
    · rfl
    · rename_i hc
      exact List.dropWhile_cons_of_neg (by simpa using hc)

/-- Dropping quotes at the end of a literal drops the quote of the text that stands there too. -/
theorem dropTrailing_escaped (init : List Char) (c : Char) :
    Text.dropTrailing (· == '"') ((init ++ [c]).flatMap escapeQuote ++ ['"']) =
      init.flatMap escapeQuote ++ if c = '"' then ['\\'] else escapeQuote c := by
  have hclose : ∀ front : List Char,
      Text.dropTrailing (· == '"') (front ++ ['"']) = Text.dropTrailing (· == '"') front :=
    fun front => List.rdropWhile_concat_pos _ _ _ (by decide)
  have hkeep : ∀ (front : List Char) {d : Char}, d ≠ '"' →
      Text.dropTrailing (· == '"') (front ++ [d]) = front ++ [d] :=
    fun front d hd => List.rdropWhile_concat_neg _ _ _ (by simpa using hd)
  rw [hclose, List.flatMap_append, List.flatMap_singleton, escapeQuote]
  split
  · have hsplit : init.flatMap escapeQuote ++ ['\\', '"'] =
        (init.flatMap escapeQuote ++ ['\\']) ++ ['"'] := by simp
    rw [hsplit, hclose, hkeep _ (by decide)]
  · rename_i hc
    rw [hkeep _ hc]

/-- A literal between double quotes is read back with a backslash for the quote at its end. -/
theorem unquote_quotedLiteral (h : '\\' ∉ s.toList) : unquote (quotedLiteral s) = cropped s := by
  have hinner : betweenBackQuotes? (quotedLiteral s).toList = none := by
    rw [quotedLiteral, String.toList_ofList]
    rfl
  rw [unquote, hinner]
  dsimp only
  rw [Text.trimMatching, quotedLiteral, String.toList_ofList]
  rcases List.eq_nil_or_concat s.toList with hnil | ⟨init, c, hs⟩
  · obtain rfl := String.toList_eq_nil_iff.1 hnil
    decide
  · rw [List.concat_eq_append] at hs
    rw [hs] at h
    have hinit : '\\' ∉ init := fun hmem => h (List.mem_append_left _ hmem)
    have hends : EndsWithQuote s ↔ c = '"' := by
      rw [EndsWithQuote, hs, List.getLast?_concat, Option.some.injEq]
    rw [hs, dropLeading_escaped (by simp), dropTrailing_escaped, cropped]
    by_cases hc : c = '"'
    · rw [if_pos hc, if_pos (hends.2 hc), replace_escaped hinit (.inr rfl), hs,
        List.dropLast_concat]
    · have hlast : init.flatMap escapeQuote ++ escapeQuote c =
          (init ++ [c]).flatMap escapeQuote ++ [] := by simp
      rw [if_neg hc, if_neg (mt hends.1 hc), hlast, replace_escaped h (.inl rfl), List.append_nil,
        ← hs, String.ofList_toList]

/-- Cropping changes the texts that end with a quote. -/
theorem cropped_eq_self_iff (s : String) : cropped s = s ↔ ¬ EndsWithQuote s := by
  rw [cropped]
  split
  · rename_i hquote
    refine iff_of_false (fun h => ?_) (not_not.2 hquote)
    rw [EndsWithQuote, ← h, String.toList_ofList, List.getLast?_concat] at hquote
    exact absurd hquote (by decide)
  · rename_i hquote
    exact iff_of_true rfl hquote

/-! ## Tags -/

/-- What stands before the first quote does not depend on what stands behind it. -/
theorem untilQuote?_concat_of_mem (h : '"' ∈ cs) (c : Char) :
    untilQuote? (cs ++ [c]) = untilQuote? cs := by
  obtain ⟨value, more, rfl, hvalue⟩ := List.eq_append_cons_of_mem h
  rw [List.append_assoc, List.cons_append, untilQuote?_append hvalue, untilQuote?_append hvalue]

/-- Without a quote there is nothing before one. -/
theorem untilQuote?_of_notMem (h : '"' ∉ cs) : untilQuote? cs = none :=
  if_neg (by simpa using h)

/-- A key is looked up in a tag with one more character where it is found without that. -/
theorem tagValue?_concat (key : String) (cs : List Char) (c : Char) :
    tagValue? (some (String.ofList (cs ++ [c]))) key =
      (Text.afterFirst? (tagNeedle key) cs).bind fun rest => untilQuote? (rest ++ [c]) := by
  rw [tagValue?_eq, String.toList_ofList]
  cases hfound : Text.afterFirst? (tagNeedle key) cs with
  | some rest =>
    rw [Text.afterFirst?_append_right (tagNeedle_ne_nil key) hfound]
    rfl
  | none =>
    cases hmore : Text.afterFirst? (tagNeedle key) (cs ++ [c]) with
    | none => rfl
    | some rest =>
      obtain rfl := Text.afterFirst?_concat (tagNeedle_ne_nil key) hfound hmore
      rfl

/-- The quote at the end of a tag can be anything else, unless it is the one behind a value. -/
theorem tagValue?_lastQuote_iff (cs : List Char) {c : Char} (hc : c ≠ '"') :
    (∀ key, tagValue? (some (String.ofList (cs ++ [c]))) key =
        tagValue? (some (String.ofList (cs ++ ['"']))) key) ↔
      ¬ EndsInValue (String.ofList (cs ++ ['"'])) := by
  constructor
  · rintro hsame ⟨front, value, hvalue, hcs⟩
    rw [String.toList_ofList] at hcs
    have htag : cs ++ ['"'] = (front ++ ':' :: '"' :: value) ++ ['"'] := by simpa using hcs
    obtain rfl := List.append_cancel_right htag
    have hfound : Text.afterFirst? (tagNeedle (String.ofList front))
        (front ++ ':' :: '"' :: value) = some value := by
      have hneedle : front ++ ':' :: '"' :: value = tagNeedle (String.ofList front) ++ value := by
        simp [tagNeedle]
      rw [hneedle, Text.afterFirst?_needle (tagNeedle_ne_nil _)]
    have hopen : '"' ∉ value ++ [c] := by simp [hvalue, hc.symm]
    have hdiffer := hsame (String.ofList front)
    rw [tagValue?_concat, tagValue?_concat, hfound, Option.bind_some, Option.bind_some,
      untilQuote?_of_notMem hopen, untilQuote?_append hvalue] at hdiffer
    cases hdiffer
  · intro hends key
    rw [tagValue?_concat, tagValue?_concat]
    cases hfound : Text.afterFirst? (tagNeedle key) cs with
    | none => rfl
    | some rest =>
      have hquote : '"' ∈ rest := by
        by_contra hnot
        obtain ⟨front, rfl, -⟩ :=
          Text.exists_of_afterFirst?_eq_some (tagNeedle_ne_nil key) hfound
        exact hends ⟨front ++ key.toList, rest, hnot, by simp [tagNeedle]⟩
      rw [Option.bind_some, Option.bind_some, untilQuote?_concat_of_mem hquote,
        untilQuote?_concat_of_mem hquote]

/-- A tag that ends with the quote behind a value ends with a quote. -/
theorem EndsInValue.endsWithQuote (h : EndsInValue s) : EndsWithQuote s := by
  obtain ⟨front, value, -, hs⟩ := h
  have hlast : front ++ ':' :: '"' :: (value ++ ['"']) =
      (front ++ ':' :: '"' :: value) ++ ['"'] := by simp
  rw [EndsWithQuote, hs, hlast, List.getLast?_concat]

/-- Cropping a tag changes none of its values unless it ends with the quote behind one. -/
theorem tagValue?_cropped_iff (s : String) :
    (∀ key, tagValue? (some (cropped s)) key = tagValue? (some s) key) ↔ ¬ EndsInValue s := by
  by_cases hquote : EndsWithQuote s
  · obtain ⟨init, hs⟩ := List.getLast?_eq_some_iff.1 hquote
    obtain rfl : s = String.ofList (init ++ ['"']) := by rw [← hs, String.ofList_toList]
    rw [cropped, if_pos hquote, String.toList_ofList, List.dropLast_concat]
    exact tagValue?_lastQuote_iff init (by decide)
  · rw [(cropped_eq_self_iff s).2 hquote]
    exact iff_of_true (fun _ => rfl) fun hends => hquote hends.endsWithQuote

/-! ## Constants -/

/-- A literal is no counter, and is worth the text that it is read as. -/
theorem evaluate_literal {mark : Char} (hmark : mark = '"' ∨ mark = '\x60') (inner : List Char)
    (index : Nat) :
    evaluate index (String.ofList (mark :: (inner ++ [mark]))) =
      pure (unquote (String.ofList (mark :: (inner ++ [mark])))) := by
  have hblank : Text.isBlank mark = false := by rcases hmark with rfl | rfl <;> decide
  have hletter : mark ≠ 'i' := by rcases hmark with rfl | rfl <;> decide
  have htrim : Text.trim (String.ofList (mark :: (inner ++ [mark]))) =
      String.ofList (mark :: (inner ++ [mark])) := by
    rw [Text.trim, String.toList_ofList, (Text.trimChars_eq_self_iff _).2]
    refine ⟨fun c hc => ?_, fun c hc => ?_⟩
    · rw [List.head?_cons, Option.some.injEq] at hc
      rw [← hc, hblank]
    · rw [← List.cons_append, List.getLast?_concat, Option.some.injEq] at hc
      rw [← hc, hblank]
  rw [evaluate_of_literal (not_counter_of_head String.toList_ofList hblank hletter), literalValue,
    htrim, String.toList_ofList]
  rcases hmark with rfl | rfl <;> rfl

/-- The value of a constant with a literal is the text that the literal is read as. -/
theorem constValue_literal {spec : ConstSpec} {k : Nat} {mark : Char}
    (hmark : mark = '"' ∨ mark = '\x60') {inner : List Char}
    (h : spec.values[k]? = some (String.ofList (mark :: (inner ++ [mark])))) (index : Nat)
    (i : Inherited) :
    constValue index i spec k =
      pure (some (unquote (String.ofList (mark :: (inner ++ [mark]))))) := by
  rw [constValue_of_value h, evaluate_literal hmark, map_pure]

/-- A literal between back quotes is read back as it was. Without backslashes in the text, one
between double quotes is read back as the text with a backslash in the place of a quote at its end.
So that form is read back, and as a constant gives what the other form gives, for the texts that do
not end with a quote; and as a tag it has what the other form has for every key unless the text ends
with the quote behind a value. -/
theorem literals_readBack (s : String) :
    unquote (rawLiteral s) = s ∧
      ('\\' ∉ s.toList →
        unquote (quotedLiteral s) = cropped s ∧
          (unquote (quotedLiteral s) = s ↔ ¬ EndsWithQuote s) ∧
          ((∀ key, tagValue? (some (unquote (quotedLiteral s))) key =
              tagValue? (some (unquote (rawLiteral s))) key) ↔ ¬ EndsInValue s) ∧
          ∀ (index : Nat) (i : Inherited) (quoted raw : ConstSpec) (k : Nat),
            quoted.values[k]? = some (quotedLiteral s) → raw.values[k]? = some (rawLiteral s) →
              (constValue index i quoted k = constValue index i raw k ↔ ¬ EndsWithQuote s)) := by
  have hraw := unquote_rawLiteral s
  refine ⟨hraw, fun hplain => ?_⟩
  have hquoted := unquote_quotedLiteral hplain
  rw [hquoted, hraw]
  refine ⟨rfl, cropped_eq_self_iff s, tagValue?_cropped_iff s, fun index i quoted raw k hq hr => ?_⟩
  rw [constValue_literal (.inl rfl) hq, constValue_literal (.inr rfl) hr, ← quotedLiteral,
    ← rawLiteral, hquoted, hraw, Checked.pure_inj, Option.some.injEq, cropped_eq_self_iff]

/-- A text with quotes inside. -/
theorem literals_readBack_inside :
    '\\' ∉ "see \"a\" there".toList ∧ ¬ EndsWithQuote "see \"a\" there" ∧
      unquote (quotedLiteral "see \"a\" there") = "see \"a\" there" := by
  have hplain : '\\' ∉ "see \"a\" there".toList := by decide
  have hquote : ¬ EndsWithQuote "see \"a\" there" := by decide
  exact ⟨hplain, hquote, ((literals_readBack _).2 hplain).2.1.2 hquote⟩

/-- The tag `json:"id"` loses its last quote between double quotes, and with it the key. -/
theorem quotedTag_cropped :
    '\\' ∉ "json:\"id\"".toList ∧ '\n' ∉ "json:\"id\"".toList ∧
      quotedLiteral "json:\"id\"" = "\"json:\\\"id\\\"\"" ∧
      unquote (quotedLiteral "json:\"id\"") = "json:\"id\\" ∧
      tagValue? (some (unquote (quotedLiteral "json:\"id\""))) "json" = none ∧
      tagValue? (some (unquote (rawLiteral "json:\"id\""))) "json" = some "id" := by
  decide +kernel

end RouteAtlas.Source
