import RouteAtlas.Json.Reader
import RouteAtlas.Json.Writer
import RouteAtlas.Proofs.Text.Pieces

/-!
# What is written can be read

A value whose numbers are natural numbers of one word is read back from its text, provided that its
arrays and objects are not nested too deep for the reader (`read_pretty`). The reader moves a cursor
over the text; for the value it reads, only the text that is left matters and not the place the
cursor has come to, so every part of the reader is described by what it leaves (`Gives`). The
nesting is the reader's own recursion: reading at one depth is reading arrays and objects whose
items are read at the depth below.
-/

set_option autoImplicit false

namespace RouteAtlas.Json

/-! ## Values that survive -/

/-- All numbers in the value are natural numbers below `2 ^ 64`. -/
inductive Whole : Json → Prop where
  | null : Whole .null
  | bool (b : Bool) : Whole (.bool b)
  | nat {n : Nat} (h : n < UInt64.size) : Whole (.nat n)
  | string (s : String) : Whole (.string s)
  | array {items : List Json} (h : ∀ j ∈ items, Whole j) : Whole (.array items)
  | object {members : List (String × Json)} (h : ∀ m ∈ members, Whole m.2) :
    Whole (.object members)

attribute [simp] Whole.null Whole.bool Whole.string

/-- A natural number is whole if it is a word. -/
@[simp] theorem whole_nat_iff {n : Nat} : (nat n).Whole ↔ n < UInt64.size := by
  constructor
  · intro h
    cases h with
    | nat hn => exact hn
  · exact .nat

/-- A list is whole if its members are. -/
@[simp] theorem whole_array_iff {items : List Json} :
    (array items).Whole ↔ ∀ j ∈ items, j.Whole := by
  constructor
  · intro h
    cases h with
    | array hitems => exact hitems
  · exact .array

/-- A record is whole if the values of its members are. -/
@[simp] theorem whole_object_iff {members : List (String × Json)} :
    (object members).Whole ↔ ∀ m ∈ members, m.2.Whole := by
  constructor
  · intro h
    cases h with
    | object hmembers => exact hmembers
  · exact .object

mutual

/-- How many arrays and objects stand around the innermost value, this one included. -/
def nesting : Json → Nat
  | .null | .bool _ | .number _ | .string _ => 0
  | .array items => nestingList items + 1
  | .object members => nestingMembers members + 1

/-- The greatest nesting in a list of values. -/
def nestingList : List Json → Nat
  | [] => 0
  | j :: rest => max (nesting j) (nestingList rest)

/-- How deep the values of some members are nested. -/
def nestingMembers : List (String × Json) → Nat
  | [] => 0
  | (_, j) :: rest => max (nesting j) (nestingMembers rest)

end

/-- A member of a list is nested no deeper than the list. -/
theorem nesting_le_of_mem {j : Json} {items : List Json} (h : j ∈ items) :
    j.nesting ≤ nestingList items := by
  induction items with
  | nil => simp at h
  | cons first rest ih =>
    rw [nestingList]
    rcases List.mem_cons.1 h with rfl | h
    · exact le_max_left _ _
    · exact (ih h).trans (le_max_right _ _)

/-- The value of a member is nested no deeper than the record. -/
theorem nesting_le_of_mem_members {m : String × Json} {members : List (String × Json)}
    (h : m ∈ members) : m.2.nesting ≤ nestingMembers members := by
  induction members with
  | nil => simp at h
  | cons first rest ih =>
    rw [nestingMembers]
    rcases List.mem_cons.1 h with rfl | h
    · exact le_max_left _ _
    · exact (ih h).trans (le_max_right _ _)

/-! ## The cursor -/

/-- The blanks between the parts of a text. -/
def isBlank (c : Char) : Bool := c = ' ' || c = '\n' || c = '\t' || c = '\r'

/-- Reading gives a value and leaves some text. -/
def Gives {α : Type} (r : Reads α) (a : α) (rest : List Char) : Prop :=
  ∃ cur, r = .ok (a, cur) ∧ cur.rest = rest

namespace Cursor

/-- Behind a character stands the rest. -/
theorem rest_after (cur : Cursor) (c : Char) (rest : List Char) :
    (cur.after c rest).rest = rest := by
  unfold after
  split <;> rfl

/-- Skipping a character leaves the rest. -/
theorem rest_skip {cur : Cursor} {c : Char} {rest : List Char} (h : cur.rest = c :: rest) :
    cur.skip.rest = rest := by
  rw [skip, h]
  exact rest_after cur c rest

/-- What is seen ahead is the first character. -/
theorem peek_eq {cur : Cursor} {c : Char} {rest : List Char} (h : cur.rest = c :: rest) :
    cur.peek = c := by
  rw [peek, h]
  rfl

/-- Skipping blanks leaves the text from the first character that is none. -/
theorem rest_skipBlanks (cur : Cursor) : cur.skipBlanks.rest = cur.rest.dropWhile isBlank := by
  have hgo : ∀ (cs : List Char) (cur : Cursor), cur.rest = cs →
      (skipBlanks.go cs cur).rest = cs.dropWhile isBlank := by
    intro cs
    induction cs with
    | nil =>
      intro cur hcur
      exact hcur
    | cons c cs ih =>
      intro cur hcur
      rw [skipBlanks.go, List.dropWhile_cons]
      show (if isBlank c = true then skipBlanks.go cs (cur.after c cs) else cur).rest = _
      by_cases hblank : isBlank c = true
      · rw [if_pos hblank, if_pos hblank]
        exact ih _ (rest_after cur c cs)
      · rw [if_neg hblank, if_neg hblank]
        exact hcur
  exact hgo cur.rest cur rfl

end Cursor

/-- A text that begins with something else than a blank. -/
structure Begins (cs : List Char) (c : Char) : Prop where
  head : cs.head? = some c
  solid : isBlank c = false

/-- What follows a text does not change how it begins. -/
theorem Begins.append {cs : List Char} {c : Char} (h : Begins cs c) (rest : List Char) :
    Begins (cs ++ rest) c := by
  refine ⟨?_, h.solid⟩
  rw [List.head?_append, h.head]
  rfl

/-- A text that begins with a character is that and a rest. -/
theorem Begins.exists_cons {cs : List Char} {c : Char} (h : Begins cs c) :
    ∃ tail, cs = c :: tail := by
  cases cs with
  | nil => simpa using h.head
  | cons first tail =>
    have hfirst : first = c := by simpa using h.head
    exact ⟨tail, by rw [hfirst]⟩

/-- Blanks in front of a text are skipped, and nothing else. -/
theorem Begins.dropWhile {cs : List Char} {c : Char} (h : Begins cs c) {blanks : List Char}
    (hblanks : ∀ b ∈ blanks, isBlank b = true) :
    (blanks ++ cs).dropWhile isBlank = cs := by
  obtain ⟨tail, rfl⟩ := h.exists_cons
  rw [List.dropWhile_append_of_pos hblanks, List.dropWhile_cons_of_neg (by simp [h.solid])]

/-- A text that begins with something else than a blank has no blanks to skip. -/
theorem Begins.dropWhile_self {cs : List Char} {c : Char} (h : Begins cs c) :
    cs.dropWhile isBlank = cs := by
  have hnone : ∀ b ∈ ([] : List Char), isBlank b = true := by simp
  simpa using h.dropWhile hnone

/-! ## Words and numbers -/

/-- A word is read from its letters. -/
theorem gives_readWord (value : Json) (word : List Char) {cur : Cursor} {rest : List Char}
    (h : cur.rest = word ++ rest) : Gives (readWord value word cur) value rest := by
  induction word generalizing cur with
  | nil => exact ⟨cur, rfl, h⟩
  | cons c word ih =>
    rw [List.cons_append] at h
    rw [readWord, h]
    simp only [if_true]
    exact ih (Cursor.rest_skip h)

/-- A text that can follow a value: it begins with a comma or with a new line, or is empty. -/
def Ends (rest : List Char) : Prop := ∀ c ∈ rest.head?, c = ',' ∨ c = '\n'

/-- Reading more digits makes no number smaller. -/
theorem le_ofDigitChars (cs : List Char) (start : Nat) : start ≤ Nat.ofDigitChars 10 cs start := by
  induction cs generalizing start with
  | nil => simp
  | cons c cs ih =>
    rw [Nat.ofDigitChars_cons]
    have hrest := ih (10 * start + (c.toNat - '0'.toNat))
    omega

/-- Ahead of what can follow a value is a comma, a new line or the end. -/
theorem Ends.peek {cur : Cursor} (h : Ends cur.rest) :
    cur.peek = ',' ∨ cur.peek = '\n' ∨ cur.peek = '\x00' := by
  unfold Cursor.peek
  cases hrest : cur.rest with
  | nil => exact .inr (.inr rfl)
  | cons c rest =>
    rcases h c (by rw [hrest]; rfl) with rfl | rfl
    · exact .inl rfl
    · exact .inr (.inl rfl)

/-- Digits are gathered up to the end of the number, as long as it fits into a word. -/
theorem gatherDigits_eq {digits rest : List Char} (hdigits : ∀ c ∈ digits, c.isDigit = true)
    (hrest : Ends rest) {start : Nat} (hfits : Nat.ofDigitChars 10 digits start ≤ maxWord)
    {cur : Cursor} (hcur : cur.rest = digits ++ rest) :
    ∃ count cur', gatherDigits cur start = (Nat.ofDigitChars 10 digits start, count, cur') ∧
      cur'.rest = rest := by
  have hgo : ∀ (digits : List Char) (start count : Nat) (cur : Cursor),
      (∀ c ∈ digits, c.isDigit = true) → Nat.ofDigitChars 10 digits start ≤ maxWord →
      cur.rest = digits ++ rest →
      ∃ count' cur', gatherDigits.go (digits ++ rest) start count cur =
        (Nat.ofDigitChars 10 digits start, count', cur') ∧ cur'.rest = rest := by
    intro digits
    induction digits with
    | nil =>
      intro start count cur _ _ hcur
      refine ⟨count, cur, ?_, hcur⟩
      cases rest with
      | nil => rfl
      | cons c rest =>
        have hc : c.isDigit = false := by
          rcases hrest c rfl with rfl | rfl <;> rfl
        simp [gatherDigits.go, hc]
    | cons c digits ih =>
      intro start count cur hdigits hfits hcur
      rw [Nat.ofDigitChars_cons] at hfits ⊢
      have hc : c.isDigit = true := hdigits c (List.mem_cons_self ..)
      have hsmall : 10 * start + digitOf c ≤ maxWord := (le_ofDigitChars digits _).trans hfits
      rw [List.cons_append, gatherDigits.go]
      simp only [hc, hsmall, Bool.true_and, decide_true, if_true]
      exact ih _ _ _ (fun x hx => hdigits x (List.mem_cons_of_mem c hx)) hfits
        (Cursor.rest_after _ _ _)
  rw [gatherDigits, hcur]
  exact hgo digits start 0 cur hdigits hfits hcur

/-- A number without a fraction or an exponent ends where its digits do. -/
theorem gives_readNumberTail {cur : Cursor} {rest : List Char} (hcur : cur.rest = rest)
    (hrest : Ends rest) (n : Nat) : Gives (readNumberTail false n cur) (.nat n) rest := by
  have hpeek : cur.peek ≠ '.' ∧ cur.peek ≠ 'e' ∧ cur.peek ≠ 'E' := by
    rcases (hcur ▸ hrest : Ends cur.rest).peek with h | h | h <;> rw [h] <;> decide
  refine ⟨cur, ?_, hcur⟩
  simp [readNumberTail, hpeek, nat]

/-- The digits of a number begin with one. -/
theorem toDigits_eq_cons (n : Nat) :
    ∃ c digits, Nat.toDigits 10 n = c :: digits ∧ c.isDigit = true := by
  cases hdigits : Nat.toDigits 10 n with
  | nil => exact absurd hdigits Nat.toDigits_ne_nil
  | cons c digits =>
    refine ⟨c, digits, rfl, ?_⟩
    apply Nat.isDigit_of_mem_toDigits (b := 10) (n := n) (by decide) (by decide)
    rw [hdigits]
    exact List.mem_cons_self ..

/-- The digits of a positive number do not begin with zero. -/
theorem head?_toDigits_ne_zero {n : Nat} (h : 0 < n) : (Nat.toDigits 10 n).head? ≠ some '0' := by
  induction n using Nat.strongRecOn with
  | _ n ih =>
    rw [Nat.toDigits_eq_if (by decide)]
    split
    · rename_i hsmall
      interval_cases n <;> decide
    · rw [List.head?_append_of_ne_nil _ Nat.toDigits_ne_nil]
      exact ih (n / 10) (by omega) (by omega)

/-- A natural number that is a word is read from its digits. -/
theorem gives_readNumber {n : Nat} (hn : n < UInt64.size) {cur : Cursor} {rest : List Char}
    (hcur : cur.rest = (toString n).toList ++ rest) (hrest : Ends rest) :
    Gives (readNumber false cur) (.nat n) rest := by
  rw [Nat.toString_eq_ofList_toDigits, String.toList_ofList] at hcur
  have hdigits : ∀ c ∈ Nat.toDigits 10 n, c.isDigit = true := by
    intro c hc
    exact Nat.isDigit_of_mem_toDigits (by decide) (by decide) hc
  have hvalue : Nat.ofDigitChars 10 (Nat.toDigits 10 n) 0 = n := Nat.ofDigitChars_ten_toDigits
  cases hsplit : Nat.toDigits 10 n with
  | nil => exact absurd hsplit Nat.toDigits_ne_nil
  | cons c digits =>
    rw [hsplit, List.cons_append] at hcur
    rw [hsplit] at hdigits hvalue
    have hskip : cur.skip.rest = digits ++ rest := Cursor.rest_skip hcur
    rw [readNumber, hcur]
    by_cases hzero : n = 0
    · subst hzero
      obtain ⟨rfl, rfl⟩ : '0' = c ∧ [] = digits := by simpa using hsplit
      have hpeek : cur.skip.peek.isDigit = false := by
        rcases (hskip ▸ hrest : Ends cur.skip.rest).peek with h | h | h <;> rw [h] <;> rfl
      simp only [if_true, hpeek, Bool.false_eq_true, if_false]
      exact gives_readNumberTail hskip hrest 0
    · have hc : c ≠ '0' := by
        rintro rfl
        exact head?_toDigits_ne_zero (Nat.pos_of_ne_zero hzero) (by rw [hsplit]; rfl)
      rw [Nat.ofDigitChars_cons] at hvalue
      have hfits : Nat.ofDigitChars 10 digits (digitOf c) ≤ maxWord := by
        have hsame : 10 * 0 + (c.toNat - '0'.toNat) = digitOf c := by simp [digitOf]
        rw [← hsame, hvalue, maxWord]
        omega
      obtain ⟨count, cur', hgather, hcur'⟩ := gatherDigits_eq
        (fun x hx => hdigits x (List.mem_cons_of_mem c hx)) hrest hfits hskip
      have hpeek : cur'.peek.isDigit = false := by
        rcases (hcur' ▸ hrest : Ends cur'.rest).peek with h | h | h <;> rw [h] <;> rfl
      have hn : Nat.ofDigitChars 10 digits (digitOf c) = n := by
        simpa [digitOf] using hvalue
      simp only [hc, if_false, hdigits c (List.mem_cons_self ..), if_true, hgather, hpeek,
        Bool.false_eq_true, hn]
      exact gives_readNumberTail hcur' hrest n

/-! ## Strings -/

/-- A hexadecimal digit is worth what it was written for. -/
theorem hexValue?_hexDigit (n : Nat) : hexValue? (hexDigit n) = some (n % 16) := by
  have hall : ∀ m < 16, hexValue? ((Nat.toDigits 16 m).headD '0') = some m := by decide
  exact hall (n % 16) (Nat.mod_lt n (by decide))

/-- Four characters take four bytes at least. -/
theorem four_le_byteCount (a b c d : Char) (rest : List Char) :
    4 ≤ Text.byteCount (a :: b :: c :: d :: rest) := by
  have ha := a.utf8Size_pos
  have hb := b.utf8Size_pos
  have hc := c.utf8Size_pos
  have hd := d.utf8Size_pos
  simp only [Text.byteCount, List.foldr_cons]
  omega

/-- A control character is read back from its code. -/
theorem gives_readUnicode {c : Char} (hc : c.toNat < 0x20) {cur : Cursor} {rest : List Char}
    (hcur : cur.rest = '0' :: '0' :: hexDigit (c.toNat / 16) :: hexDigit c.toNat :: rest) :
    Gives (readUnicode cur) c rest := by
  have hlong := four_le_byteCount '0' '0' (hexDigit (c.toNat / 16)) (hexDigit c.toNat) rest
  have hzero : hexValue? '0' = some 0 := rfl
  have hcode : 4096 * 0 + 256 * 0 + 16 * (c.toNat / 16 % 16) + c.toNat % 16 = c.toNat := by omega
  have hunit : readUnit cur = .ok (c.toNat, ⟨rest, cur.fourBytesOn.1, cur.fourBytesOn.2⟩) := by
    rw [readUnit, hcur, if_neg (by omega)]
    simp only [hzero, hexValue?_hexDigit, hcode]
  refine ⟨⟨rest, cur.fourBytesOn.1, cur.fourBytesOn.2⟩, ?_, rfl⟩
  have hlow : ¬ (0xDC00 ≤ c.toNat ∧ c.toNat ≤ 0xDFFF) := by omega
  have hsmall : c.toNat < 0xD800 := by omega
  simp [readUnicode, hunit, bind, Except.bind, hlow, hsmall]

/-- A character is written as a mark behind a backslash that stands for it, or by its code, or as
it is. -/
theorem escapeChar_cases (c : Char) :
    (∃ mark, escapeChar c = ['\\', mark] ∧
      ∀ (cur : Cursor) (rest : List Char), cur.rest = mark :: rest →
        readEscape cur = .ok (c, cur.skip)) ∨
    (c.toNat < 0x20 ∧
      escapeChar c = ['\\', 'u', '0', '0', hexDigit (c.toNat / 16), hexDigit c.toNat]) ∨
    (c ≠ '"' ∧ c ≠ '\\' ∧ ¬ c.toNat < 0x20 ∧ escapeChar c = [c]) := by
  unfold escapeChar
  by_cases hquote : c = '"'
  · subst hquote
    exact .inl ⟨'"', rfl, fun cur rest h => by simp [readEscape, h]⟩
  by_cases hslash : c = '\\'
  · subst hslash
    exact .inl ⟨'\\', rfl, fun cur rest h => by simp [readEscape, h]⟩
  by_cases hline : c = '\n'
  · subst hline
    exact .inl ⟨'n', rfl, fun cur rest h => by simp [readEscape, h]⟩
  by_cases hreturn : c = '\r'
  · subst hreturn
    exact .inl ⟨'r', rfl, fun cur rest h => by simp [readEscape, h]⟩
  by_cases htab : c = '\t'
  · subst htab
    exact .inl ⟨'t', rfl, fun cur rest h => by simp [readEscape, h]⟩
  simp only [if_neg hquote, if_neg hslash, if_neg hline, if_neg hreturn, if_neg htab]
  by_cases hback : c.toNat = 8
  · have hc : Char.ofNat 8 = c := by rw [← hback, Char.ofNat_toNat]
    exact .inl ⟨'b', if_pos hback, fun cur rest h => by simpa [readEscape, h] using hc⟩
  by_cases hfeed : c.toNat = 12
  · have hc : Char.ofNat 12 = c := by rw [← hfeed, Char.ofNat_toNat]
    exact .inl ⟨'f', by rw [if_neg hback, if_pos hfeed],
      fun cur rest h => by simpa [readEscape, h] using hc⟩
  simp only [if_neg hback, if_neg hfeed]
  by_cases hcontrol : c.toNat < 0x20
  · exact .inr (.inl ⟨hcontrol, if_pos hcontrol⟩)
  · exact .inr (.inr ⟨hquote, hslash, hcontrol, if_neg hcontrol⟩)

/-- One character is read from what it is written as, escaped or not. -/
theorem readChars_escapeChar (c : Char) (fuel : Nat) (read : List Char) {cur : Cursor}
    {rest : List Char} (hcur : cur.rest = escapeChar c ++ rest) :
    ∃ cur', cur'.rest = rest ∧
      readChars (fuel + 1) read cur = readChars fuel (c :: read) cur' := by
  have hescape : ∀ tail, cur.rest = '\\' :: tail → Gives (readEscape cur.skip) c rest →
      ∃ cur', cur'.rest = rest ∧
        readChars (fuel + 1) read cur = readChars fuel (c :: read) cur' := by
    rintro tail htail ⟨cur', heq, hrest⟩
    refine ⟨cur', hrest, ?_⟩
    rw [readChars, htail]
    simp [heq]
  rcases escapeChar_cases c with ⟨mark, hwritten, hread⟩ | ⟨hcontrol, hwritten⟩ |
    ⟨hquote, hslash, hcontrol, hwritten⟩
  · rw [hwritten] at hcur
    have hskip : cur.skip.rest = mark :: rest := Cursor.rest_skip hcur
    exact hescape _ hcur ⟨cur.skip.skip, hread _ rest hskip, Cursor.rest_skip hskip⟩
  · rw [hwritten] at hcur
    have hskip := Cursor.rest_skip hcur
    apply hescape _ hcur
    rw [readEscape, hskip]
    exact gives_readUnicode hcontrol (Cursor.rest_skip hskip)
  · rw [hwritten] at hcur
    refine ⟨cur.skip, Cursor.rest_skip hcur, ?_⟩
    rw [readChars, hcur]
    simp [hquote, hslash, hcontrol]

/-- The characters of a literal are read up to its closing quote. -/
theorem gives_readChars (cs : List Char) (fuel : Nat) (hfuel : cs.length < fuel)
    (read : List Char) {cur : Cursor} {rest : List Char}
    (hcur : cur.rest = cs.flatMap escapeChar ++ '"' :: rest) :
    Gives (readChars fuel read cur) (String.ofList (read.reverse ++ cs)) rest := by
  induction cs generalizing fuel read cur with
  | nil =>
    obtain ⟨fuel, rfl⟩ := Nat.exists_eq_add_one.2 hfuel
    have hquote : cur.rest = '"' :: rest := hcur
    refine ⟨cur.skip, ?_, Cursor.rest_skip hquote⟩
    rw [readChars, hquote]
    simp
  | cons c cs ih =>
    rw [List.length_cons] at hfuel
    obtain ⟨fuel, rfl⟩ : ∃ n, fuel = n + 1 := ⟨fuel - 1, by omega⟩
    rw [List.flatMap_cons, List.append_assoc] at hcur
    obtain ⟨cur', hcur', heq⟩ := readChars_escapeChar c fuel read hcur
    have hgives := ih fuel (by omega) (c :: read) hcur'
    rw [heq]
    simpa using hgives

/-- Escaping makes no text shorter, so its length is fuel enough. -/
theorem length_le_flatMap_escapeChar (cs : List Char) :
    cs.length ≤ (cs.flatMap escapeChar).length := by
  have hpos : ∀ c, 1 ≤ (escapeChar c).length := by
    intro c
    unfold escapeChar
    split_ifs <;> simp
  induction cs with
  | nil => simp
  | cons c cs ih =>
    have hc := hpos c
    simp only [List.flatMap_cons, List.length_append, List.length_cons]
    omega

/-- A text is read from its literal behind the opening quote. -/
theorem gives_readString (s : String) {cur : Cursor} {rest : List Char}
    (hcur : cur.rest = s.toList.flatMap escapeChar ++ '"' :: rest) :
    Gives (readString cur) s rest := by
  have hlength := length_le_flatMap_escapeChar s.toList
  have hfuel : s.toList.length < cur.rest.length + 1 := by
    rw [hcur, List.length_append]
    omega
  have hgives := gives_readChars s.toList (cur.rest.length + 1) hfuel [] hcur
  simpa [readString] using hgives

/-- A literal is the escaped characters of the text between quotes. -/
theorem toList_renderString (s : String) :
    (renderString s).toList = '"' :: (s.toList.flatMap escapeChar ++ ['"']) := by
  simp [renderString]

/-! ## Arrays and objects -/

/-- The value is read from its text wherever the text stands, blanks before it aside. -/
def ReadBy (item : Cursor → Reads Json) (text : List Char) (j : Json) : Prop :=
  ∀ (cur : Cursor) (rest : List Char), Ends rest → cur.rest.dropWhile isBlank = text ++ rest →
    Gives (item cur) j rest

/-- An indentation holds blanks only. -/
theorem isBlank_of_mem_indentation {level : Nat} {c : Char}
    (h : c ∈ (indentation level).toList) : isBlank c = true := by
  rw [indentation, String.toList_ofList] at h
  rcases List.mem_cons.1 h with rfl | h
  · rfl
  · rw [List.eq_of_mem_replicate h]
    rfl

/-- A value can be followed by an indentation. -/
theorem ends_indentation (level : Nat) (rest : List Char) :
    Ends ((indentation level).toList ++ rest) := by
  intro c hc
  rw [indentation, String.toList_ofList] at hc
  right
  simpa [eq_comm] using hc

/-- A text begins with its first character, if that is no blank. -/
theorem begins_cons {c : Char} (h : isBlank c = false) (rest : List Char) :
    Begins (c :: rest) c := ⟨rfl, h⟩

/-- The texts behind the first one of an array or an object, and the end of it. -/
def following (level : Nat) (texts : List (List Char)) (close : Char) (rest : List Char) :
    List Char :=
  texts.flatMap (fun text => ',' :: ((indentation (level + 1)).toList ++ text)) ++
    ((indentation level).toList ++ close :: rest)

/-- A value can be followed by the members behind it. -/
theorem ends_following (level : Nat) (texts : List (List Char)) (close : Char)
    (rest : List Char) : Ends (following level texts close rest) := by
  cases texts with
  | nil => exact ends_indentation level _
  | cons text texts =>
    intro c hc
    left
    simpa [following, eq_comm] using hc

/-- Behind the last member comes the closing bracket. -/
theorem dropWhile_following_nil (level : Nat) {close : Char} (hclose : isBlank close = false)
    (rest : List Char) : (following level [] close rest).dropWhile isBlank = close :: rest :=
  (begins_cons hclose rest).dropWhile fun _ hb => isBlank_of_mem_indentation hb

/-- Behind a member come a comma, an indentation and the next member. -/
theorem following_cons (level : Nat) (text : List Char) (texts : List (List Char)) (close : Char)
    (rest : List Char) :
    following level (text :: texts) close rest =
      ',' :: ((indentation (level + 1)).toList ++ (text ++ following level texts close rest)) := by
  simp [following]

/-- No blank stands before the comma behind a member. -/
theorem dropWhile_following_cons (level : Nat) (text : List Char) (texts : List (List Char))
    (close : Char) (rest : List Char) :
    (following level (text :: texts) close rest).dropWhile isBlank =
      ',' :: ((indentation (level + 1)).toList ++ (text ++ following level texts close rest)) := by
  rw [following_cons]
  exact (begins_cons rfl _).dropWhile_self

/-- The members of a list are read from their texts, if each one is read from its own. -/
theorem gives_readItems {item : Cursor → Reads Json} {text : Json → List Char} {level : Nat}
    (items : List Json) (hitems : ∀ j ∈ items, ReadBy item (text j) j)
    (hbegins : ∀ j ∈ items, ∃ c, Begins (text j) c ∧ c ≠ ']') {fuel : Nat}
    (hfuel : items.length < fuel) {read : List Json} (hread : read ≠ []) {cur : Cursor}
    {rest : List Char} (hcur : cur.rest = following level (items.map text) ']' rest) :
    Gives (readItems item fuel read cur) (.array (read.reverse ++ items)) rest := by
  induction items generalizing fuel read cur with
  | nil =>
    obtain ⟨fuel, rfl⟩ := Nat.exists_eq_add_one.2 hfuel
    have hskip : cur.skipBlanks.rest = ']' :: rest := by
      rw [Cursor.rest_skipBlanks, hcur]
      exact dropWhile_following_nil level rfl rest
    refine ⟨cur.skipBlanks.skip, ?_, Cursor.rest_skip hskip⟩
    simp [readItems, hskip]
  | cons j items ih =>
    rw [List.length_cons] at hfuel
    obtain ⟨fuel, rfl⟩ : ∃ n, fuel = n + 1 := ⟨fuel - 1, by omega⟩
    obtain ⟨c, hc, hclose⟩ := hbegins j (List.mem_cons_self ..)
    have hskip : cur.skipBlanks.rest = ',' :: ((indentation (level + 1)).toList ++
        (text j ++ following level (items.map text) ']' rest)) := by
      rw [Cursor.rest_skipBlanks, hcur, List.map_cons]
      exact dropWhile_following_cons ..
    have hat : cur.skipBlanks.skip.skipBlanks.rest =
        text j ++ following level (items.map text) ']' rest := by
      rw [Cursor.rest_skipBlanks, Cursor.rest_skip hskip]
      exact (hc.append _).dropWhile fun _ hb => isBlank_of_mem_indentation hb
    obtain ⟨tail, htail⟩ := (hc.append (following level (items.map text) ']' rest)).exists_cons
    have hdrop : cur.skipBlanks.skip.skipBlanks.rest.dropWhile isBlank =
        text j ++ following level (items.map text) ']' rest := by
      rw [hat]
      exact (hc.append _).dropWhile_self
    obtain ⟨cur', hgives, hcur'⟩ :=
      hitems j (List.mem_cons_self ..) _ _ (ends_following level _ _ _) hdrop
    have hpeek : cur.skipBlanks.skip.skipBlanks.peek = c := Cursor.peek_eq (hat.trans htail)
    have hmore : Gives (readItems item fuel (j :: read) cur')
        (.array ((j :: read).reverse ++ items)) rest :=
      ih (fun j' h => hitems j' (List.mem_cons_of_mem j h))
        (fun j' h => hbegins j' (List.mem_cons_of_mem j h)) (by omega) (by simp) hcur'
    have hstep : readItems item (fuel + 1) read cur = readItems item fuel (j :: read) cur' := by
      simp [readItems, hskip, hread, hat.trans htail, hpeek, hclose, hgives]
    rw [hstep]
    simpa using hmore

/-- A list is read from the texts of its members behind the opening bracket. -/
theorem gives_readArray {item : Cursor → Reads Json} {text : Json → List Char} {level : Nat}
    {j : Json} {items : List Json} (hitems : ∀ j' ∈ j :: items, ReadBy item (text j') j')
    (hbegins : ∀ j' ∈ j :: items, ∃ c, Begins (text j') c ∧ c ≠ ']') {fuel : Nat}
    (hfuel : items.length + 1 < fuel) {cur : Cursor} {rest : List Char}
    (hcur : cur.rest = (indentation (level + 1)).toList ++
      (text j ++ following level (items.map text) ']' rest)) :
    Gives (readItems item fuel [] cur) (.array (j :: items)) rest := by
  obtain ⟨fuel, rfl⟩ : ∃ n, fuel = n + 1 := ⟨fuel - 1, by omega⟩
  obtain ⟨c, hc, hclose⟩ := hbegins j (List.mem_cons_self ..)
  have hat : cur.skipBlanks.rest = text j ++ following level (items.map text) ']' rest := by
    rw [Cursor.rest_skipBlanks, hcur]
    exact (hc.append _).dropWhile fun _ hb => isBlank_of_mem_indentation hb
  obtain ⟨tail, htail⟩ := (hc.append (following level (items.map text) ']' rest)).exists_cons
  have hdrop : cur.skipBlanks.rest.dropWhile isBlank =
      text j ++ following level (items.map text) ']' rest := by
    rw [hat]
    exact (hc.append _).dropWhile_self
  obtain ⟨cur', hgives, hcur'⟩ :=
    hitems j (List.mem_cons_self ..) _ _ (ends_following level _ _ _) hdrop
  have hstep : readItems item (fuel + 1) [] cur = readItems item fuel [j] cur' := by
    simp [readItems, hat.trans htail, hclose, hgives]
  rw [hstep]
  exact gives_readItems items (fun j' h => hitems j' (List.mem_cons_of_mem j h))
    (fun j' h => hbegins j' (List.mem_cons_of_mem j h)) (by omega) (by simp) hcur'

/-- A member of an object as it is written, its value being written as `text`. -/
def memberText (text : Json → List Char) (m : String × Json) : List Char :=
  (renderString m.1).toList ++ (':' :: ' ' :: text m.2)

/-- The text of a member begins with a quote. -/
theorem begins_memberText (text : Json → List Char) (m : String × Json) :
    Begins (memberText text m) '"' := by
  rw [memberText, toList_renderString]
  exact begins_cons rfl _

/-- A member is read from its text, if its value is read from its own. -/
theorem gives_readMember {item : Cursor → Reads Json} {text : Json → List Char}
    {m : String × Json} (hitem : ReadBy item (text m.2) m.2)
    (hbegins : ∃ c, Begins (text m.2) c) {cur : Cursor} {rest : List Char} (hrest : Ends rest)
    (hcur : cur.rest = memberText text m ++ rest) : Gives (readMember item cur) m rest := by
  obtain ⟨c, hc⟩ := hbegins
  have hquote : cur.rest = '"' :: (m.1.toList.flatMap escapeChar ++
      '"' :: (':' :: ' ' :: (text m.2 ++ rest))) := by
    rw [hcur, memberText, toList_renderString]
    simp
  obtain ⟨behind, hkey, hbehind⟩ := gives_readString m.1 (Cursor.rest_skip hquote)
  have hcolon : behind.skipBlanks.rest = ':' :: ' ' :: (text m.2 ++ rest) := by
    rw [Cursor.rest_skipBlanks, hbehind]
    exact (begins_cons rfl _).dropWhile_self
  have hvalue : behind.skipBlanks.skip.rest.dropWhile isBlank = text m.2 ++ rest := by
    rw [Cursor.rest_skip hcolon, List.dropWhile_cons_of_pos rfl]
    exact (hc.append _).dropWhile_self
  obtain ⟨cur', hgives, hcur'⟩ := hitem _ _ hrest hvalue
  refine ⟨cur', ?_, hcur'⟩
  simp [readMember, hkey, bind, Except.bind, hcolon, Cursor.peek_eq hcolon, hgives]

/-- The members of a record are read from their texts, if their values are read from their own. -/
theorem gives_readMembers {item : Cursor → Reads Json} {text : Json → List Char} {level : Nat}
    (members : List (String × Json)) (hitems : ∀ m ∈ members, ReadBy item (text m.2) m.2)
    (hbegins : ∀ m ∈ members, ∃ c, Begins (text m.2) c) {fuel : Nat}
    (hfuel : members.length < fuel) {read : List (String × Json)} (hread : read ≠ [])
    {cur : Cursor} {rest : List Char}
    (hcur : cur.rest = following level (members.map (memberText text)) '}' rest) :
    Gives (readMembers item fuel read cur) (.object (read.reverse ++ members)) rest := by
  induction members generalizing fuel read cur with
  | nil =>
    obtain ⟨fuel, rfl⟩ := Nat.exists_eq_add_one.2 hfuel
    have hskip : cur.skipBlanks.rest = '}' :: rest := by
      rw [Cursor.rest_skipBlanks, hcur]
      exact dropWhile_following_nil level rfl rest
    refine ⟨cur.skipBlanks.skip, ?_, Cursor.rest_skip hskip⟩
    simp [readMembers, hskip]
  | cons m members ih =>
    rw [List.length_cons] at hfuel
    obtain ⟨fuel, rfl⟩ : ∃ n, fuel = n + 1 := ⟨fuel - 1, by omega⟩
    have hc := begins_memberText text m
    have hskip : cur.skipBlanks.rest = ',' :: ((indentation (level + 1)).toList ++
        (memberText text m ++ following level (members.map (memberText text)) '}' rest)) := by
      rw [Cursor.rest_skipBlanks, hcur, List.map_cons]
      exact dropWhile_following_cons ..
    have hat : cur.skipBlanks.skip.skipBlanks.rest =
        memberText text m ++ following level (members.map (memberText text)) '}' rest := by
      rw [Cursor.rest_skipBlanks, Cursor.rest_skip hskip]
      exact (hc.append _).dropWhile fun _ hb => isBlank_of_mem_indentation hb
    obtain ⟨tail, htail⟩ :=
      (hc.append (following level (members.map (memberText text)) '}' rest)).exists_cons
    obtain ⟨cur', hgives, hcur'⟩ := gives_readMember (hitems m (List.mem_cons_self ..))
      (hbegins m (List.mem_cons_self ..)) (ends_following level _ _ _) hat
    have hpeek : cur.skipBlanks.skip.skipBlanks.peek = '"' := Cursor.peek_eq (hat.trans htail)
    have hmore : Gives (readMembers item fuel (m :: read) cur')
        (.object ((m :: read).reverse ++ members)) rest :=
      ih (fun m' h => hitems m' (List.mem_cons_of_mem m h))
        (fun m' h => hbegins m' (List.mem_cons_of_mem m h)) (by omega) (by simp) hcur'
    have hstep : readMembers item (fuel + 1) read cur = readMembers item fuel (m :: read) cur' := by
      simp [readMembers, hskip, hread, hat.trans htail, hpeek, hgives]
    rw [hstep]
    simpa using hmore

/-- A record is read from the texts of its members behind the opening brace. -/
theorem gives_readObject {item : Cursor → Reads Json} {text : Json → List Char} {level : Nat}
    {m : String × Json} {members : List (String × Json)}
    (hitems : ∀ m' ∈ m :: members, ReadBy item (text m'.2) m'.2)
    (hbegins : ∀ m' ∈ m :: members, ∃ c, Begins (text m'.2) c) {fuel : Nat}
    (hfuel : members.length + 1 < fuel) {cur : Cursor} {rest : List Char}
    (hcur : cur.rest = (indentation (level + 1)).toList ++
      (memberText text m ++ following level (members.map (memberText text)) '}' rest)) :
    Gives (readMembers item fuel [] cur) (.object (m :: members)) rest := by
  obtain ⟨fuel, rfl⟩ : ∃ n, fuel = n + 1 := ⟨fuel - 1, by omega⟩
  have hc := begins_memberText text m
  have hat : cur.skipBlanks.rest =
      memberText text m ++ following level (members.map (memberText text)) '}' rest := by
    rw [Cursor.rest_skipBlanks, hcur]
    exact (hc.append _).dropWhile fun _ hb => isBlank_of_mem_indentation hb
  obtain ⟨tail, htail⟩ :=
    (hc.append (following level (members.map (memberText text)) '}' rest)).exists_cons
  obtain ⟨cur', hgives, hcur'⟩ := gives_readMember (hitems m (List.mem_cons_self ..))
    (hbegins m (List.mem_cons_self ..)) (ends_following level _ _ _) hat
  have hstep : readMembers item (fuel + 1) [] cur = readMembers item fuel [m] cur' := by
    simp [readMembers, hat.trans htail, hgives]
  rw [hstep]
  exact gives_readMembers members (fun m' h => hitems m' (List.mem_cons_of_mem m h))
    (fun m' h => hbegins m' (List.mem_cons_of_mem m h)) (by omega) (by simp) hcur'

/-! ## Values -/

/-- The text of a value at a level of nesting. -/
def written (level : Nat) (j : Json) : List Char := (prettyAt level j).toList

/-- The members of a list are written one level deeper, each as its text. -/
theorem toList_prettyItems (level : Nat) (items : List Json) :
    (prettyItems level items).map String.toList = items.map (written level) := by
  induction items with
  | nil => rfl
  | cons j items ih =>
    rw [prettyItems, List.map_cons, ih, List.map_cons]
    rfl

/-- The members of a record are written one level deeper, each as its text. -/
theorem toList_prettyMembers (level : Nat) (members : List (String × Json)) :
    (prettyMembers level members).map String.toList = members.map (memberText (written level)) := by
  induction members with
  | nil => rfl
  | cons m members ih =>
    rw [prettyMembers, List.map_cons, ih, List.map_cons]
    simp [memberText, written]

/-- Brackets without members are written next to each other. -/
theorem toList_spread_nil (level : Nat) (opening closing : String) {parts : List String}
    (hparts : parts.map String.toList = []) :
    (spread level opening closing parts).toList = opening.toList ++ closing.toList := by
  have hnil : parts = [] := List.map_eq_nil_iff.1 hparts
  rw [spread, hnil, List.isEmpty_nil, if_pos rfl, String.toList_append]

/-- Texts that are spread over lines: the first one, and those that follow it. -/
theorem toList_spread_cons (level : Nat) (opening closing : String) (close : Char)
    (hclose : closing.toList = [close]) {parts : List String} {text : List Char}
    {texts : List (List Char)} (hparts : parts.map String.toList = text :: texts)
    (rest : List Char) :
    (spread level opening closing parts).toList ++ rest =
      opening.toList ++ ((indentation (level + 1)).toList ++
        (text ++ following level texts close rest)) := by
  have hsome : parts.isEmpty = false := by
    cases parts with
    | nil => simp at hparts
    | cons part parts => rfl
  have hlines : (String.intercalate ("," ++ indentation (level + 1)) parts).toList =
      text ++ texts.flatMap (fun text => ',' :: ((indentation (level + 1)).toList ++ text)) := by
    rw [String.toList_intercalate, hparts, Text.intercalate_cons_eq]
    simp
  simp only [spread, hsome, Bool.false_eq_true, if_false, String.toList_append, hlines, hclose,
    following, List.append_assoc, List.cons_append, List.nil_append]

/-- The text behind a member is longer than the number of members in it, so its length is fuel
enough. -/
theorem length_lt_following (level : Nat) (texts : List (List Char)) (close : Char)
    (rest : List Char) : texts.length < (following level texts close rest).length := by
  induction texts with
  | nil => simp [following]
  | cons text texts ih =>
    rw [following_cons]
    simp only [List.length_cons, List.length_append]
    omega

/-- Brackets with their members begin with the opening bracket. -/
theorem begins_spread (level : Nat) (closing : String) (parts : List String) {opening : String}
    {c : Char} (hopening : opening.toList = [c]) (hc : isBlank c = false) :
    Begins (spread level opening closing parts).toList c := by
  unfold spread
  split_ifs
  · rw [String.toList_append, hopening]
    exact begins_cons hc _
  · simp only [String.toList_append, hopening, List.append_assoc]
    exact begins_cons hc _

/-- A digit is no blank. -/
theorem isBlank_eq_false_of_isDigit {c : Char} (h : c.isDigit = true) : isBlank c = false := by
  by_contra hblank
  have hcases : c = ' ' ∨ c = '\n' ∨ c = '\t' ∨ c = '\r' := by
    simpa [isBlank, or_iff_not_imp_left] using hblank
  rcases hcases with rfl | rfl | rfl | rfl <;> revert h <;> decide

/-- A value never begins with a blank or with the end of an array. -/
theorem begins_written {j : Json} (hwhole : j.Whole) (level : Nat) :
    ∃ c, Begins (written level j) c ∧ c ≠ ']' := by
  unfold written
  cases hwhole with
  | null =>
    rw [prettyAt]
    exact ⟨'n', begins_cons rfl ['u', 'l', 'l'], by decide⟩
  | bool b =>
    cases b with
    | true =>
      rw [prettyAt]
      exact ⟨'t', begins_cons rfl ['r', 'u', 'e'], by decide⟩
    | false =>
      rw [prettyAt]
      exact ⟨'f', begins_cons rfl ['a', 'l', 's', 'e'], by decide⟩
  | @nat n _ =>
    rw [nat, prettyAt, renderNumber, Nat.toString_eq_ofList_toDigits, String.toList_ofList]
    obtain ⟨c, digits, hdigits, hc⟩ := toDigits_eq_cons n
    rw [hdigits]
    refine ⟨c, begins_cons (isBlank_eq_false_of_isDigit hc) digits, ?_⟩
    rintro rfl
    revert hc
    decide
  | string s =>
    rw [prettyAt, toList_renderString]
    exact ⟨'"', begins_cons rfl _, by decide⟩
  | array h =>
    rw [prettyAt]
    exact ⟨'[', begins_spread level _ _ rfl rfl, by decide⟩
  | object h =>
    rw [prettyAt]
    exact ⟨'{', begins_spread level _ _ rfl rfl, by decide⟩

/-- An array is read if its items are read one level further in. -/
theorem gives_readValue_array {depth level : Nat} {items : List Json}
    (hwhole : ∀ j ∈ items, j.Whole)
    (hitems : ∀ j ∈ items, ReadBy (readValue depth) (written (level + 1) j) j)
    {cur : Cursor} {rest : List Char}
    (hcur : cur.skipBlanks.rest = written level (.array items) ++ rest) :
    Gives (readValue (depth + 1) cur) (.array items) rest := by
  have hparts := toList_prettyItems (level + 1) items
  rw [written, prettyAt] at hcur
  cases items with
  | nil =>
    rw [toList_spread_nil level "[" "]" hparts] at hcur
    have hclose : cur.skipBlanks.skip.rest = ']' :: rest := Cursor.rest_skip hcur
    have hblanks : cur.skipBlanks.skip.skipBlanks.rest = ']' :: rest := by
      rw [Cursor.rest_skipBlanks, hclose]
      exact (begins_cons rfl _).dropWhile_self
    refine ⟨cur.skipBlanks.skip.skipBlanks.skip, ?_, Cursor.rest_skip hblanks⟩
    simp [readValue, hcur, readItems, hblanks]
  | cons j items =>
    rw [toList_spread_cons level "[" "]" ']' rfl hparts rest] at hcur
    have hfuel : items.length + 1 < cur.skipBlanks.rest.length + 1 := by
      have hlength := length_lt_following level (items.map (written (level + 1))) ']' rest
      rw [List.length_map] at hlength
      rw [hcur]
      simp only [List.length_append]
      omega
    have hvalue : readValue (depth + 1) cur =
        readItems (readValue depth) (cur.skipBlanks.rest.length + 1) [] cur.skipBlanks.skip := by
      simp [readValue, hcur]
    rw [hvalue]
    exact gives_readArray hitems (fun j' hj' => begins_written (hwhole j' hj') _) hfuel
      (Cursor.rest_skip hcur)

/-- An object is read if the values of its members are read one level further in. -/
theorem gives_readValue_object {depth level : Nat} {members : List (String × Json)}
    (hwhole : ∀ m ∈ members, m.2.Whole)
    (hitems : ∀ m ∈ members, ReadBy (readValue depth) (written (level + 1) m.2) m.2)
    {cur : Cursor} {rest : List Char}
    (hcur : cur.skipBlanks.rest = written level (.object members) ++ rest) :
    Gives (readValue (depth + 1) cur) (.object members) rest := by
  have hparts := toList_prettyMembers (level + 1) members
  rw [written, prettyAt] at hcur
  cases members with
  | nil =>
    rw [toList_spread_nil level "\x7b" "\x7d" hparts] at hcur
    have hclose : cur.skipBlanks.skip.rest = '}' :: rest := Cursor.rest_skip hcur
    have hblanks : cur.skipBlanks.skip.skipBlanks.rest = '}' :: rest := by
      rw [Cursor.rest_skipBlanks, hclose]
      exact (begins_cons rfl _).dropWhile_self
    refine ⟨cur.skipBlanks.skip.skipBlanks.skip, ?_, Cursor.rest_skip hblanks⟩
    simp [readValue, hcur, readMembers, hblanks]
  | cons m members =>
    rw [toList_spread_cons level "\x7b" "\x7d" '}' rfl hparts rest] at hcur
    have hfuel : members.length + 1 < cur.skipBlanks.rest.length + 1 := by
      have hlength := length_lt_following level
        (members.map (memberText (written (level + 1)))) '}' rest
      rw [List.length_map] at hlength
      rw [hcur]
      simp only [List.length_append]
      omega
    have hvalue : readValue (depth + 1) cur =
        readMembers (readValue depth) (cur.skipBlanks.rest.length + 1) [] cur.skipBlanks.skip := by
      simp [readValue, hcur]
    have hbegins : ∀ m' ∈ m :: members, ∃ c, Begins (written (level + 1) m'.2) c := by
      intro m' hm'
      obtain ⟨c, hc, _⟩ := begins_written (hwhole m' hm') (level + 1)
      exact ⟨c, hc⟩
    rw [hvalue]
    exact gives_readObject hitems hbegins hfuel (Cursor.rest_skip hcur)

/-- The null value is read from its text. -/
theorem gives_readValue_null (depth level : Nat) {cur : Cursor} {rest : List Char}
    (hcur : cur.skipBlanks.rest = written level .null ++ rest) :
    Gives (readValue depth cur) .null rest := by
  rw [written, prettyAt] at hcur
  have hvalue : readValue depth cur = readWord .null ['u', 'l', 'l'] cur.skipBlanks.skip := by
    unfold readValue
    simp [hcur]
  rw [hvalue]
  exact gives_readWord .null ['u', 'l', 'l'] (Cursor.rest_skip hcur)

/-- A truth value is read from its text. -/
theorem gives_readValue_bool (b : Bool) (depth level : Nat) {cur : Cursor} {rest : List Char}
    (hcur : cur.skipBlanks.rest = written level (.bool b) ++ rest) :
    Gives (readValue depth cur) (.bool b) rest := by
  cases b with
  | true =>
    rw [written, prettyAt] at hcur
    have hvalue : readValue depth cur =
        readWord (.bool true) ['r', 'u', 'e'] cur.skipBlanks.skip := by
      unfold readValue
      simp [hcur]
    rw [hvalue]
    exact gives_readWord (.bool true) ['r', 'u', 'e'] (Cursor.rest_skip hcur)
  | false =>
    rw [written, prettyAt] at hcur
    have hvalue : readValue depth cur =
        readWord (.bool false) ['a', 'l', 's', 'e'] cur.skipBlanks.skip := by
      unfold readValue
      simp [hcur]
    rw [hvalue]
    exact gives_readWord (.bool false) ['a', 'l', 's', 'e'] (Cursor.rest_skip hcur)

/-- A natural number that is a word is read from its text. -/
theorem gives_readValue_nat {n : Nat} (hn : n < UInt64.size) (depth level : Nat) {cur : Cursor}
    {rest : List Char} (hrest : Ends rest)
    (hcur : cur.skipBlanks.rest = written level (.nat n) ++ rest) :
    Gives (readValue depth cur) (.nat n) rest := by
  rw [written, nat, prettyAt, renderNumber] at hcur
  have hgives := gives_readNumber hn hcur hrest
  rw [Nat.toString_eq_ofList_toDigits, String.toList_ofList] at hcur
  obtain ⟨c, digits, hdigits, hc⟩ := toDigits_eq_cons n
  have hother : c ≠ 'n' ∧ c ≠ 't' ∧ c ≠ 'f' ∧ c ≠ '-' := by
    refine ⟨?_, ?_, ?_, ?_⟩ <;> rintro rfl <;> revert hc <;> decide
  rw [hdigits, List.cons_append] at hcur
  have hvalue : readValue depth cur = readNumber false cur.skipBlanks := by
    unfold readValue
    simp [hcur, hother, hc]
  rw [hvalue]
  exact hgives

/-- A text is read from its literal. -/
theorem gives_readValue_string (s : String) (depth level : Nat) {cur : Cursor} {rest : List Char}
    (hcur : cur.skipBlanks.rest = written level (.string s) ++ rest) :
    Gives (readValue depth cur) (.string s) rest := by
  rw [written, prettyAt, toList_renderString] at hcur
  have hquote : cur.skipBlanks.rest = '"' :: (s.toList.flatMap escapeChar ++ '"' :: rest) := by
    rw [hcur]
    simp
  obtain ⟨behind, hread, hbehind⟩ := gives_readString s (Cursor.rest_skip hquote)
  refine ⟨behind, ?_, hbehind⟩
  unfold readValue
  simp [hquote, hread, Except.map]

/-- A value is read from its text at any level, as long as it is not nested deeper than the reader
goes. -/
theorem readBy_readValue {depth : Nat} {j : Json} (hwhole : j.Whole) (hnesting : j.nesting ≤ depth)
    (level : Nat) : ReadBy (readValue depth) (written level j) j := by
  induction depth generalizing j level with
  | zero =>
    intro cur rest hrest hcur
    rw [← Cursor.rest_skipBlanks] at hcur
    cases hwhole with
    | null => exact gives_readValue_null 0 level hcur
    | bool b => exact gives_readValue_bool b 0 level hcur
    | nat hn => exact gives_readValue_nat hn 0 level hrest hcur
    | string s => exact gives_readValue_string s 0 level hcur
    | array hitems => simp [nesting] at hnesting
    | object hmembers => simp [nesting] at hnesting
  | succ depth ih =>
    intro cur rest hrest hcur
    rw [← Cursor.rest_skipBlanks] at hcur
    cases hwhole with
    | null => exact gives_readValue_null _ level hcur
    | bool b => exact gives_readValue_bool b _ level hcur
    | nat hn => exact gives_readValue_nat hn _ level hrest hcur
    | string s => exact gives_readValue_string s _ level hcur
    | array hitems =>
      rw [nesting] at hnesting
      apply gives_readValue_array hitems _ hcur
      intro j hj
      have hle := nesting_le_of_mem hj
      exact ih (hitems j hj) (by omega) (level + 1)
    | object hmembers =>
      rw [nesting] at hnesting
      apply gives_readValue_object hmembers _ hcur
      intro m hm
      have hle := nesting_le_of_mem_members hm
      exact ih (hmembers m hm) (by omega) (level + 1)

/-- A value that is not nested too deep is read back from its text. -/
theorem read_pretty {j : Json} (hwhole : j.Whole) (hnesting : j.nesting ≤ maxDepth) :
    read j.pretty = .ok j := by
  have hends : Ends [] := by
    intro c hc
    simp at hc
  obtain ⟨c, hbegins, _⟩ := begins_written hwhole 0
  have hstart : (Cursor.start j.pretty).rest.dropWhile isBlank = written 0 j ++ [] := by
    rw [List.append_nil]
    exact hbegins.dropWhile_self
  obtain ⟨cur, hread, hcur⟩ := readBy_readValue hwhole hnesting 0 _ [] hends hstart
  have hblanks : cur.skipBlanks.rest = [] := by
    rw [Cursor.rest_skipBlanks, hcur, List.dropWhile_nil]
  simp [read, hread, bind, Except.bind, hblanks]

end RouteAtlas.Json
