import RouteAtlas.Directive.Options
import RouteAtlas.Directive.Arguments
import RouteAtlas.Proofs.Json.Numerals
import RouteAtlas.Proofs.Outcome

/-!
# What the reader's texts look like

A text that the JSON reader accepts is well quoted (`wellQuoted_of_read`): outside of string
literals no brace and no comma stands in front of a bare key, behind a literal comes punctuation,
and a backslash inside a literal escapes neither a brace nor a comma. Each part of the reader is
described backwards, from the text it leaves to the text it was given: what it leaves tells what
may stand behind the value it has read, and only this shows that a word such as `true` is no key.
-/

set_option autoImplicit false

namespace RouteAtlas.Json

open Directive (Quoting bareKey? isKeyStart isKeyChar)

/-! ## Well quoted texts -/

/-- Whether a bare key may stand behind a character. -/
def isKeyMark (c : Char) : Bool := c = '{' || c = ','

/-- The first character that is not blank, if there is one, is among `marks`. -/
def Meets (marks cs : List Char) : Prop := ∀ c ∈ (cs.dropWhile isBlank).head?, c ∈ marks

/-- What is demanded of a character in front of `cs`, by where it stands. -/
def Fits : Quoting → Char → List Char → Prop
  | .outside, c, cs => isKeyMark c = true → bareKey? cs = none
  | .inside, c, cs => c = '"' → Meets [',', ':', '}', ']'] cs
  | .escaped, c, _ => isKeyMark c = false

/-- Every character of a text is as demanded, the scan of its literals beginning in a state. -/
def WellQuoted : Quoting → List Char → Prop
  | _, [] => True
  | q, c :: cs => Fits q c cs ∧ WellQuoted (q.step c) cs

/-- A character that outside of literals stands for nothing but itself. -/
structure IsPlain (c : Char) : Prop where
  noQuote : c ≠ '"'
  noKeyMark : isKeyMark c = false

/-- A plain character in front of a text demands nothing. -/
theorem wellQuoted_cons_of_isPlain {c : Char} {cs : List Char} (hc : IsPlain c)
    (h : WellQuoted .outside cs) : WellQuoted .outside (c :: cs) := by
  refine ⟨fun hmark => absurd hmark (by simp [hc.noKeyMark]), ?_⟩
  rw [Quoting.step, if_neg hc.noQuote]
  exact h

/-- Plain characters in front of a text demand nothing. -/
theorem wellQuoted_append_of_isPlain {plain rest : List Char} (hplain : ∀ c ∈ plain, IsPlain c)
    (h : WellQuoted .outside rest) : WellQuoted .outside (plain ++ rest) := by
  induction plain with
  | nil => exact h
  | cons c plain ih =>
    exact wellQuoted_cons_of_isPlain (hplain c (List.mem_cons_self ..))
      (ih fun x hx => hplain x (List.mem_cons_of_mem c hx))

/-- The characters that are not plain are the quote and those that a bare key may stand behind. -/
theorem isPlain_iff {c : Char} : IsPlain c ↔ c ≠ '"' ∧ c ≠ '{' ∧ c ≠ ',' := by
  constructor
  · rintro ⟨hquote, hmark⟩
    exact ⟨hquote, by simpa [isKeyMark] using hmark⟩
  · rintro ⟨hquote, hbrace, hcomma⟩
    exact ⟨hquote, by simp [isKeyMark, hbrace, hcomma]⟩

instance (c : Char) : Decidable (IsPlain c) := decidable_of_iff _ isPlain_iff.symm

/-- A blank is plain. -/
theorem isPlain_of_isBlank {c : Char} (h : isBlank c = true) : IsPlain c := by
  rw [isPlain_iff]
  refine ⟨?_, ?_, ?_⟩ <;> rintro rfl <;> exact absurd h (by decide)

/-- A character of keys is plain. -/
theorem isPlain_of_isKeyChar {c : Char} (h : isKeyChar c = true) : IsPlain c := by
  rw [isPlain_iff]
  refine ⟨?_, ?_, ?_⟩ <;> rintro rfl <;> exact absurd h (by decide)

/-- A character of numbers is plain. -/
theorem isPlain_of_isNumeric {c : Char} (h : isNumeric c = true) : IsPlain c := by
  rw [isPlain_iff]
  refine ⟨?_, ?_, ?_⟩ <;> rintro rfl <;> exact absurd h (by decide)

/-- A number in front of a text demands nothing. -/
theorem Passes.wellQuoted {cur cur' : Cursor} (h : Passes cur cur')
    (hcur' : WellQuoted .outside cur'.rest) : WellQuoted .outside cur.rest := by
  obtain ⟨numeral, hnumeral, hcur⟩ := h
  rw [hcur]
  exact wellQuoted_append_of_isPlain (fun c hc => isPlain_of_isNumeric (hnumeral c hc)) hcur'

/-- Blanks in front of a text make no difference. -/
theorem wellQuoted_of_dropWhile {cs : List Char}
    (h : WellQuoted .outside (cs.dropWhile isBlank)) : WellQuoted .outside cs := by
  rw [← List.takeWhile_append_dropWhile (p := isBlank) (l := cs)]
  exact wellQuoted_append_of_isPlain
    (fun c hc => isPlain_of_isBlank (List.mem_takeWhile_imp hc)) h

/-! ## Where no bare key stands -/

/-- No bare key stands at the front of a text if a word there has no colon behind it. -/
theorem bareKey?_eq_none_iff {cs : List Char} :
    bareKey? cs = none ↔ ∀ c rest, cs.dropWhile Text.isBlank = c :: rest → isKeyStart c = true →
      ((rest.dropWhile isKeyChar).dropWhile Text.isBlank).head? ≠ some ':' := by
  have hcons : ∀ c rest, cs.dropWhile Text.isBlank = c :: rest →
      (bareKey? cs = none ↔ (isKeyStart c = true →
        ((rest.dropWhile isKeyChar).dropWhile Text.isBlank).head? ≠ some ':')) := by
    intro c rest hcs
    simp only [bareKey?, hcs]
    by_cases hstart : isKeyStart c = true
    · rw [if_pos hstart]
      cases (rest.dropWhile isKeyChar).dropWhile Text.isBlank with
      | nil => simp
      | cons d behind =>
        by_cases hcolon : d = ':'
        · simp [hcolon, hstart]
        · simp [hcolon]
    · simp [hstart]
  constructor
  · intro h c rest hcs
    exact (hcons c rest hcs).1 h
  · intro h
    cases hcs : cs.dropWhile Text.isBlank with
    | nil => simp [bareKey?, hcs]
    | cons c rest => exact (hcons c rest hcs).2 (h c rest hcs)

/-- What is blank between values is blank in a text. -/
theorem textBlank_of_isBlank {c : Char} (h : isBlank c = true) : Text.isBlank c = true := by
  have hcases : c = ' ' ∨ c = '\n' ∨ c = '\t' ∨ c = '\r' := by
    simpa [isBlank, or_assoc] using h
  rcases hcases with rfl | rfl | rfl | rfl <;> rfl

/-- Every blank of JSON may stand before a bare key. -/
theorem dropWhile_dropWhile_isBlank (cs : List Char) :
    (cs.dropWhile isBlank).dropWhile Text.isBlank = cs.dropWhile Text.isBlank := by
  conv_rhs => rw [← List.takeWhile_append_dropWhile (p := isBlank) (l := cs)]
  exact (List.dropWhile_append_of_pos
    fun c hc => textBlank_of_isBlank (List.mem_takeWhile_imp hc)).symm

/-- Blanks before a text do not make a bare key of its front. -/
theorem bareKey?_eq_none_of_dropWhile {cs : List Char}
    (h : bareKey? (cs.dropWhile isBlank) = none) : bareKey? cs = none := by
  rw [bareKey?_eq_none_iff] at h ⊢
  rwa [dropWhile_dropWhile_isBlank] at h

/-- A text whose first character is neither blank nor the first of a word begins with no key. -/
theorem bareKey?_cons_eq_none {c : Char} (hblank : Text.isBlank c = false)
    (hstart : isKeyStart c = false) (rest : List Char) : bareKey? (c :: rest) = none := by
  rw [bareKey?_eq_none_iff, List.dropWhile_cons_of_neg (by simp [hblank])]
  rintro _ _ ⟨rfl, rfl⟩ h
  simp [hstart] at h

/-- No key is among marks that are neither blank nor the first of a word. -/
theorem Meets.bareKey?_eq_none {marks cs : List Char} (h : Meets marks cs)
    (hmarks : marks.all (fun c => !Text.isBlank c && !isKeyStart c) = true) :
    bareKey? cs = none := by
  apply bareKey?_eq_none_of_dropWhile
  cases hcs : cs.dropWhile isBlank with
  | nil => rfl
  | cons c rest =>
    have hc := List.all_eq_true.1 hmarks c (h c (by rw [hcs]; rfl))
    obtain ⟨hblank, hstart⟩ := Bool.and_eq_true_iff.1 hc
    exact bareKey?_cons_eq_none (by simpa using hblank) (by simpa using hstart) rest

/-! ## Strings -/

/-- A hexadecimal digit is neither a quote nor a backslash. -/
theorem ne_of_hexValue? {c : Char} {n : Nat} (h : hexValue? c = some n) :
    c ≠ '"' ∧ c ≠ '\\' := by
  constructor <;> rintro rfl <;> cases h

/-- Inside of a literal only its quote and a backslash matter. -/
theorem wellQuoted_inside_cons {c : Char} {cs : List Char} (hc : c ≠ '"' ∧ c ≠ '\\')
    (h : WellQuoted .inside cs) : WellQuoted .inside (c :: cs) := by
  refine ⟨fun hquote => absurd hquote hc.1, ?_⟩
  rw [Quoting.step, if_neg hc.2, if_neg hc.1]
  exact h

/-- Four hexadecimal digits in a literal demand nothing. -/
theorem wellQuoted_of_readUnit {n : Nat} {cur cur' : Cursor} (h : readUnit cur = .ok (n, cur'))
    (hcur' : WellQuoted .inside cur'.rest) : WellQuoted .inside cur.rest := by
  unfold readUnit at h
  split_ifs at h
  · simp at h
  · dsimp only at h
    split at h
    · rename_i a b c d rest hcur
      split at h
      · rename_i ha hb hc hd
        cases h
        rw [hcur]
        exact wellQuoted_inside_cons (ne_of_hexValue? ha)
          (wellQuoted_inside_cons (ne_of_hexValue? hb)
            (wellQuoted_inside_cons (ne_of_hexValue? hc)
              (wellQuoted_inside_cons (ne_of_hexValue? hd) hcur')))
      · cases h
    · cases h

/-- An escaped character that is no mark of keys demands nothing. -/
theorem wellQuoted_inside_backslash {mark : Char} {cs : List Char} (hmark : isKeyMark mark = false)
    (h : WellQuoted .inside cs) : WellQuoted .inside ('\\' :: mark :: cs) :=
  ⟨fun hquote => absurd hquote (by decide), hmark, h⟩

/-- An escape by number demands nothing, a pair of surrogates neither. -/
theorem wellQuoted_of_readUnicode {c : Char} {cur cur' : Cursor}
    (h : readUnicode cur = .ok (c, cur')) (hcur' : WellQuoted .inside cur'.rest) :
    WellQuoted .inside cur.rest := by
  obtain ⟨⟨n, behind⟩, hunit, h⟩ := bind_eq_ok h
  apply wellQuoted_of_readUnit hunit
  dsimp only at h
  split_ifs at h with _ _ _ hslash _ hmark
  · simp at h
  · cases h
    exact hcur'
  · simp at h
  · simp at h
  · simp at h
  · simp at h
  · obtain ⟨⟨low, last⟩, hlow, h⟩ := bind_eq_ok h
    dsimp only at h
    split_ifs at h
    · simp at h
    · have hlast : last = cur' := congrArg Prod.snd (Except.ok.inj h)
      subst hlast
      obtain ⟨rest, hbehind⟩ := Cursor.rest_of_peek (by decide) (not_not.1 hslash)
      obtain ⟨rest', hskip⟩ := Cursor.rest_of_peek (by decide) (not_not.1 hmark)
      have hrest : behind.rest = '\\' :: 'u' :: behind.skip.skip.rest := by
        rw [hbehind, ← Cursor.rest_skip hbehind, hskip, Cursor.rest_skip hskip]
      rw [hrest]
      exact wellQuoted_inside_backslash rfl (wellQuoted_of_readUnit hlow hcur')

/-- An escape that can be read demands nothing. -/
theorem wellQuoted_of_readEscape {c : Char} {cur cur' : Cursor}
    (h : readEscape cur = .ok (c, cur')) (hcur' : WellQuoted .inside cur'.rest) :
    WellQuoted .escaped cur.rest := by
  have hmarked : ∀ {mark : Char} {rest : List Char}, cur.rest = mark :: rest →
      isKeyMark mark = false → WellQuoted .inside cur.skip.rest →
      WellQuoted .escaped cur.rest := by
    intro mark rest hcur hmark hskip
    rw [Cursor.rest_skip hcur] at hskip
    rw [hcur]
    exact ⟨hmark, hskip⟩
  unfold readEscape at h
  split at h
  case h_1 => simp at h
  case h_10 hcur => exact hmarked hcur rfl (wellQuoted_of_readUnicode h hcur')
  case h_11 => simp at h
  all_goals
    rename_i hcur
    cases h
    exact hmarked hcur rfl hcur'

/-- A literal is read up to its quote, behind which comes punctuation. -/
theorem wellQuoted_of_readChars {fuel : Nat} {read : List Char} {s : String} {cur cur' : Cursor}
    (h : readChars fuel read cur = .ok (s, cur')) (hmeets : Meets [',', ':', '}', ']'] cur'.rest)
    (hcur' : WellQuoted .outside cur'.rest) : WellQuoted .inside cur.rest := by
  induction fuel generalizing read cur with
  | zero => simp [readChars] at h
  | succ fuel ih =>
    rw [readChars] at h
    cases hcur : cur.rest with
    | nil => trivial
    | cons c rest =>
      have hskip := Cursor.rest_skip hcur
      simp only [hcur] at h
      split_ifs at h with hquote hslash hcontrol
      · cases h
        rw [hskip] at hmeets hcur'
        rw [hquote]
        exact ⟨fun _ => hmeets, hcur'⟩
      · split at h
        · rename_i escaped behind hescape
          have hbehind := wellQuoted_of_readEscape hescape (ih h)
          rw [hskip] at hbehind
          rw [hslash]
          exact ⟨fun hquote => absurd hquote (by decide), hbehind⟩
        · cases h
      · simp at h
      · rw [← hskip]
        exact wellQuoted_inside_cons ⟨hquote, hslash⟩ (ih h)

/-- A string in front of punctuation, its opening quote included. -/
theorem wellQuoted_of_readString {s : String} {cur cur' : Cursor} {rest : List Char}
    (hcur : cur.rest = '"' :: rest) (h : readString cur.skip = .ok (s, cur'))
    (hmeets : Meets [',', ':', '}', ']'] cur'.rest) (hcur' : WellQuoted .outside cur'.rest) :
    WellQuoted .outside cur.rest := by
  have hinside := wellQuoted_of_readChars h hmeets hcur'
  rw [Cursor.rest_skip hcur] at hinside
  rw [hcur]
  exact ⟨fun hmark => absurd hmark (by decide), hinside⟩

/-! ## Arrays and objects -/

/-- A text that may stand behind a value. -/
structure Behind (cs : List Char) : Prop where
  meets : Meets [',', '}', ']'] cs
  quoted : WellQuoted .outside cs

/-- A text that begins with a value. -/
structure AtValue (cs : List Char) : Prop where
  noKey : bareKey? cs = none
  quoted : WellQuoted .outside cs

/-- What meets some marks meets more marks. -/
theorem Meets.mono {marks marks' cs : List Char} (h : Meets marks cs) (hsub : marks ⊆ marks') :
    Meets marks' cs :=
  fun c hc => hsub (h c hc)

/-- Blanks may stand before a value. -/
theorem AtValue.of_skipBlanks {cur : Cursor} (h : AtValue cur.skipBlanks.rest) :
    AtValue cur.rest := by
  rw [Cursor.rest_skipBlanks] at h
  exact ⟨bareKey?_eq_none_of_dropWhile h.noKey, wellQuoted_of_dropWhile h.quoted⟩

/-- A mark behind blanks. -/
theorem wellQuoted_of_mark {cur : Cursor} {c : Char} {rest : List Char}
    (hcur : cur.skipBlanks.rest = c :: rest) (hc : c ≠ '"')
    (hkey : isKeyMark c = true → bareKey? rest = none) (h : WellQuoted .outside rest) :
    WellQuoted .outside cur.rest := by
  rw [Cursor.rest_skipBlanks] at hcur
  apply wellQuoted_of_dropWhile
  rw [hcur]
  refine ⟨hkey, ?_⟩
  rw [Quoting.step, if_neg hc]
  exact h

/-- Blanks and a plain character demand nothing. -/
theorem wellQuoted_of_plainMark {cur : Cursor} {c : Char} {rest : List Char}
    (hcur : cur.skipBlanks.rest = c :: rest) (hc : IsPlain c) (h : WellQuoted .outside rest) :
    WellQuoted .outside cur.rest :=
  wellQuoted_of_mark hcur hc.noQuote (fun hmark => absurd hmark (by simp [hc.noKeyMark])) h

/-- The character behind the blanks is the one that is met. -/
theorem meets_of_skipBlanks {cur : Cursor} {marks : List Char} {c : Char} {rest : List Char}
    (hcur : cur.skipBlanks.rest = c :: rest) (hc : c ∈ marks) : Meets marks cur.rest := by
  rw [Cursor.rest_skipBlanks] at hcur
  intro d hd
  rw [hcur] at hd
  cases hd
  exact hc

/-- `item` reads values, and only where one stands. -/
def ReadsValues (item : Cursor → Reads Json) : Prop :=
  ∀ {cur cur' : Cursor} {j : Json}, item cur = .ok (j, cur') → Behind cur'.rest → AtValue cur.rest

/-- The first item of an array, or the comma or bracket behind an earlier one, comes next. -/
theorem wellQuoted_of_readItems {item : Cursor → Reads Json} (hitem : ReadsValues item) {fuel : Nat}
    {read : List Json} {j : Json} {cur cur' : Cursor}
    (h : readItems item fuel read cur = .ok (j, cur')) (hcur' : WellQuoted .outside cur'.rest) :
    WellQuoted .outside cur.rest ∧ (read ≠ [] → Meets [',', '}', ']'] cur.rest) := by
  induction fuel generalizing read cur with
  | zero => simp [readItems] at h
  | succ fuel ih =>
    simp only [readItems] at h
    cases hcur : cur.skipBlanks.rest with
    | nil => simp [hcur] at h
    | cons c rest =>
      simp only [hcur] at h
      split_ifs at h with hclose hfirst hcomma hend htrailing
      · cases h
        subst hclose
        rw [Cursor.rest_skip hcur] at hcur'
        exact ⟨wellQuoted_of_plainMark hcur (by decide) hcur',
          fun _ => meets_of_skipBlanks hcur (by decide)⟩
      · split at h
        · rename_i first behind hread
          obtain ⟨hquoted, hmeets⟩ := ih h
          have hvalue := hitem hread ⟨hmeets (by simp), hquoted⟩
          exact ⟨hvalue.of_skipBlanks.quoted, fun hne => absurd (List.isEmpty_iff.1 hfirst) hne⟩
        · cases h
      · simp at h
      · simp at h
      · split at h
        · rename_i next behind hread
          obtain ⟨hquoted, hmeets⟩ := ih h
          have hvalue := (hitem hread ⟨hmeets (by simp), hquoted⟩).of_skipBlanks
          rw [Cursor.rest_skip hcur] at hvalue
          subst hcomma
          exact ⟨wellQuoted_of_mark hcur (by decide) (fun _ => hvalue.noKey) hvalue.quoted,
            fun _ => meets_of_skipBlanks hcur (by decide)⟩
        · cases h
      · simp at h

/-- A member that can be read has its key between quotes. -/
theorem wellQuoted_of_readMember {item : Cursor → Reads Json} (hitem : ReadsValues item)
    {m : String × Json} {cur cur' : Cursor} {rest : List Char} (hcur : cur.rest = '"' :: rest)
    (h : readMember item cur = .ok (m, cur')) (hcur' : Behind cur'.rest) :
    WellQuoted .outside cur.rest := by
  obtain ⟨⟨key, behind⟩, hkey, h⟩ := bind_eq_ok h
  dsimp only at h
  split_ifs at h with _ hcolon
  · simp at h
  · simp at h
  · obtain ⟨⟨value, last⟩, hvalue, h⟩ := bind_eq_ok h
    cases h
    obtain ⟨rest', hrest'⟩ := Cursor.rest_of_peek (by decide) (not_not.1 hcolon)
    have hquoted := (hitem hvalue hcur').quoted
    rw [Cursor.rest_skip hrest'] at hquoted
    exact wellQuoted_of_readString hcur hkey (meets_of_skipBlanks hrest' (by decide))
      (wellQuoted_of_plainMark hrest' (by decide) hquoted)

/-- The first member of an object, or the comma or brace behind an earlier one, comes next. -/
theorem wellQuoted_of_readMembers {item : Cursor → Reads Json} (hitem : ReadsValues item)
    {fuel : Nat} {read : List (String × Json)} {j : Json} {cur cur' : Cursor}
    (h : readMembers item fuel read cur = .ok (j, cur')) (hcur' : WellQuoted .outside cur'.rest) :
    WellQuoted .outside cur.rest ∧ (read ≠ [] → Meets [',', '}', ']'] cur.rest) ∧
      (read = [] → Meets ['}', '"'] cur.rest) := by
  induction fuel generalizing read cur with
  | zero => simp [readMembers] at h
  | succ fuel ih =>
    simp only [readMembers] at h
    cases hcur : cur.skipBlanks.rest with
    | nil => simp [hcur] at h
    | cons c rest =>
      simp only [hcur] at h
      split_ifs at h with hclose hfirst hkey hcomma hend htrailing hkey
      · cases h
        subst hclose
        rw [Cursor.rest_skip hcur] at hcur'
        exact ⟨wellQuoted_of_plainMark hcur (by decide) hcur',
          fun _ => meets_of_skipBlanks hcur (by decide),
          fun _ => meets_of_skipBlanks hcur (by decide)⟩
      · simp at h
      · split at h
        · rename_i first behind hread
          obtain ⟨hquoted, hmeets, -⟩ := ih h
          have hc : c = '"' := not_not.1 hkey
          subst hc
          have hmember := wellQuoted_of_readMember hitem hcur hread ⟨hmeets (by simp), hquoted⟩
          rw [Cursor.rest_skipBlanks] at hmember
          exact ⟨wellQuoted_of_dropWhile hmember, fun hne => absurd (List.isEmpty_iff.1 hfirst) hne,
            fun _ => meets_of_skipBlanks hcur (by decide)⟩
        · cases h
      · simp at h
      · simp at h
      · simp at h
      · split at h
        · rename_i next behind hread
          obtain ⟨hquoted, hmeets, -⟩ := ih h
          obtain ⟨rest', hrest'⟩ := Cursor.rest_of_peek (by decide) (not_not.1 hkey)
          have hmember := wellQuoted_of_readMember hitem hrest' hread ⟨hmeets (by simp), hquoted⟩
          have hnoKey : bareKey? rest = none := by
            apply bareKey?_eq_none_of_dropWhile
            rw [← Cursor.rest_skip hcur, ← Cursor.rest_skipBlanks, hrest']
            exact bareKey?_cons_eq_none (by decide) (by decide) _
          rw [Cursor.rest_skipBlanks, Cursor.rest_skip hcur] at hmember
          subst hcomma
          exact ⟨wellQuoted_of_mark hcur (by decide) (fun _ => hnoKey)
              (wellQuoted_of_dropWhile hmember),
            fun _ => meets_of_skipBlanks hcur (by decide),
            fun hnil => absurd (List.isEmpty_iff.2 hnil) hfirst⟩
        · cases h
      · simp at h

/-! ## Values -/

/-- A word in front of what may stand behind a value is a value and no key. -/
theorem bareKey?_word_eq_none {c : Char} {word rest : List Char} (hc : Text.isBlank c = false)
    (hword : ∀ x ∈ word, isKeyChar x = true) (hrest : Meets [',', '}', ']'] rest) :
    bareKey? (c :: (word ++ rest)) = none := by
  have hkept : rest.dropWhile isKeyChar = rest := by
    cases rest with
    | nil => rfl
    | cons d rest =>
      apply List.dropWhile_cons_of_neg
      intro hd
      by_cases hblank : isBlank d = true
      · have hcases : d = ' ' ∨ d = '\n' ∨ d = '\t' ∨ d = '\r' := by
          simpa [isBlank, or_assoc] using hblank
        rcases hcases with rfl | rfl | rfl | rfl <;> exact absurd hd (by decide)
      · have hmark := hrest d (by rw [List.dropWhile_cons_of_neg hblank]; rfl)
        fin_cases hmark <;> exact absurd hd (by decide)
  rw [bareKey?_eq_none_iff, List.dropWhile_cons_of_neg (by simp [hc])]
  rintro _ _ ⟨rfl, rfl⟩ - hcolon
  rw [List.dropWhile_append_of_pos hword, hkept, ← dropWhile_dropWhile_isBlank] at hcolon
  cases hnext : rest.dropWhile isBlank with
  | nil => simp [hnext] at hcolon
  | cons d next =>
    have hmark := hrest d (by rw [hnext]; rfl)
    rw [hnext] at hcolon
    fin_cases hmark <;> cases hcolon

/-- A word that can be read is a value and no bare key. -/
theorem atValue_of_readWord {value j : Json} {c : Char} {word : List Char} {cur cur' : Cursor}
    {rest : List Char} (hcur : cur.rest = c :: rest) (hc : Text.isBlank c = false)
    (hword : (c :: word).all isKeyChar = true) (h : readWord value word cur.skip = .ok (j, cur'))
    (hcur' : Behind cur'.rest) : AtValue cur.rest := by
  rw [List.all_eq_true] at hword
  have hread := rest_of_readWord h
  rw [Cursor.rest_skip hcur] at hread
  rw [hcur, hread]
  refine ⟨bareKey?_word_eq_none hc (fun x hx => hword x (List.mem_cons_of_mem c hx)) hcur'.meets, ?_⟩
  rw [← List.cons_append]
  exact wellQuoted_append_of_isPlain (fun x hx => isPlain_of_isKeyChar (hword x hx)) hcur'.quoted

/-- A text whose first character can neither be blank nor begin a word. -/
theorem atValue_of_cons {cur : Cursor} {c : Char} {rest : List Char} (hcur : cur.rest = c :: rest)
    (hc : Text.isBlank c = false ∧ isKeyStart c = false) (h : WellQuoted .outside cur.rest) :
    AtValue cur.rest := by
  refine ⟨?_, h⟩
  rw [hcur]
  exact bareKey?_cons_eq_none hc.1 hc.2 rest

/-- A digit is no blank and begins no key. -/
theorem solid_of_isDigit {c : Char} (h : c.isDigit = true) :
    Text.isBlank c = false ∧ isKeyStart c = false := by
  have hcode : 48 ≤ c.toNat ∧ c.toNat ≤ 57 := by
    simpa [Char.isDigit, UInt32.le_iff_toNat_le] using h
  constructor
  · rw [Text.isBlank]
    simp only [Bool.or_eq_false_iff, Bool.and_eq_false_iff, decide_eq_false_iff_not,
      beq_eq_false_iff_ne]
    omega
  · have hunder : c ≠ '_' := by
      rintro rfl
      exact absurd h (by decide)
    simp only [isKeyStart, Char.isAlpha, Char.isUpper, Char.isLower, Bool.or_eq_false_iff,
      Bool.and_eq_false_iff, decide_eq_false_iff_not, UInt32.le_iff_toNat_le, ge_iff_le]
    simp only [Char.toNat] at hcode
    have hupper : 'A'.val.toNat = 65 := rfl
    have hlower : 'a'.val.toNat = 97 := rfl
    exact ⟨⟨by omega, by omega⟩, hunder⟩

/-- A literal that can be read is a value. -/
theorem atValue_of_string {s : String} {cur cur' : Cursor} {rest : List Char}
    (hcur : cur.rest = '"' :: rest) (h : readString cur.skip = .ok (s, cur'))
    (hcur' : Behind cur'.rest) : AtValue cur.rest :=
  atValue_of_cons hcur (by decide)
    (wellQuoted_of_readString hcur h (hcur'.meets.mono (by decide)) hcur'.quoted)

/-- Whatever is read as a value has its keys between quotes and stands where a value does. -/
theorem readsValues_readValue (depth : Nat) : ReadsValues (readValue depth) := by
  induction depth using Nat.strongRecOn with
  | _ depth ih =>
    intro cur cur' j h hcur'
    apply AtValue.of_skipBlanks
    unfold readValue at h
    dsimp only at h
    generalize cur.skipBlanks = cur at h ⊢
    cases hcur : cur.rest with
    | nil => simp [hcur] at h
    | cons c rest =>
      rw [← hcur]
      simp only [hcur] at h
      split_ifs at h with hn ht hf hminus hdigit hquote harray hobject
      · subst hn
        exact atValue_of_readWord hcur (by decide) (by decide) h hcur'
      · subst ht
        exact atValue_of_readWord hcur (by decide) (by decide) h hcur'
      · subst hf
        exact atValue_of_readWord hcur (by decide) (by decide) h hcur'
      · subst hminus
        exact atValue_of_cons hcur (by decide)
          (((passes_skip hcur (by decide)).trans (passes_readNumber h)).wellQuoted hcur'.quoted)
      · exact atValue_of_cons hcur (solid_of_isDigit hdigit)
          ((passes_readNumber h).wellQuoted hcur'.quoted)
      · subst hquote
        cases hread : readString cur.skip with
        | error e => rw [hread] at h; cases h
        | ok found =>
          rw [hread] at h
          cases h
          exact atValue_of_string hcur hread hcur'
      · subst harray
        cases depth with
        | zero => simp at h
        | succ depth =>
          have hitems := (wellQuoted_of_readItems (ih depth (by omega)) h hcur'.quoted).1
          rw [Cursor.rest_skip hcur] at hitems
          apply atValue_of_cons hcur (by decide)
          rw [hcur]
          exact wellQuoted_cons_of_isPlain (by decide) hitems
      · subst hobject
        cases depth with
        | zero => simp at h
        | succ depth =>
          obtain ⟨hmembers, -, hmeets⟩ :=
            wellQuoted_of_readMembers (ih depth (by omega)) h hcur'.quoted
          rw [Cursor.rest_skip hcur] at hmembers hmeets
          apply atValue_of_cons hcur (by decide)
          rw [hcur]
          exact ⟨fun _ => (hmeets rfl).bareKey?_eq_none (by decide), hmembers⟩
      · simp at h

/-- A text that is one value and blanks around it is well quoted. -/
theorem wellQuoted_of_read {s : String} {j : Json} (h : read s = .ok j) :
    WellQuoted .outside s.toList := by
  obtain ⟨⟨value, cur⟩, hvalue, h⟩ := bind_eq_ok h
  dsimp only at h
  split_ifs at h with hend
  · have hrest : cur.rest.dropWhile isBlank = [] := by
      rw [← Cursor.rest_skipBlanks]
      exact List.isEmpty_iff.1 hend
    refine (readsValues_readValue maxDepth hvalue ⟨?_, ?_⟩).quoted
    · intro c hc
      simp [hrest] at hc
    · apply wellQuoted_of_dropWhile
      rw [hrest]
      trivial
  · simp at h

end RouteAtlas.Json
