import RouteAtlas.Text.Pieces
import Mathlib

/-!
# Pieces of texts

The pieces of a list joined with the separator give the list back. So the last piece is what a list
ends with, and a list and its last piece end with the same texts that have no separator in them.
-/

set_option autoImplicit false

namespace RouteAtlas.Text

/-- What is left behind a lead is what stands behind it. -/
theorem afterLead?_eq_some_iff {lead cs rest : List Char} :
    afterLead? lead cs = some rest ↔ cs = lead ++ rest := by
  induction lead generalizing cs with
  | nil => simp [afterLead?]
  | cons l lead ih =>
    cases cs with
    | nil => simp [afterLead?]
    | cons c cs =>
      rw [afterLead?, List.cons_append, List.cons.injEq]
      by_cases h : l = c
      · rw [if_pos h, ih]
        simp [h]
      · rw [if_neg h]
        simp [Ne.symm h]

/-- A list begins with another if something follows that one in it. -/
theorem isSome_afterLead? (lead cs : List Char) :
    (afterLead? lead cs).isSome = true ↔ lead <+: cs := by
  rw [Option.isSome_iff_exists]
  exact exists_congr fun rest => afterLead?_eq_some_iff.trans eq_comm

/-- Looking for a tail finds the texts that have it as a suffix. -/
theorem endsIn_iff (tail s : String) : endsIn tail s = true ↔ tail.toList <:+ s.toList := by
  rw [endsIn, isSome_afterLead?, List.reverse_prefix]

/-- The pieces are those that splitting a list at some of its members gives. -/
theorem splitChars_eq_splitOnP (sep : Char → Bool) (cs : List Char) :
    splitChars sep cs = cs.splitOnP sep := by
  induction cs with
  | nil => rfl
  | cons c cs ih =>
    rw [splitChars, ih, List.splitOnP_cons_eq_if_modifyHead]
    split
    · rename_i hnone
      exact absurd hnone (List.splitOnP_ne_nil sep cs)
    · rename_i piece pieces hsome
      rw [hsome, List.modifyHead_cons]

/-- Cutting at a character is what the library calls splitting on it. -/
theorem splitChars_eq_splitOn (sep : Char) (cs : List Char) :
    splitChars (· == sep) cs = cs.splitOn sep := by
  rw [splitChars_eq_splitOnP, List.splitOn_eq_splitOnP]

/-- A text is cut into one piece at least. -/
theorem splitChars_ne_nil (sep : Char → Bool) (cs : List Char) : splitChars sep cs ≠ [] := by
  rw [splitChars_eq_splitOnP]
  exact List.splitOnP_ne_nil sep cs

/-- Joined lists are the first one, and then the others with a separator before each of them. -/
theorem intercalate_cons_eq {α : Type} (separator first : List α) (others : List (List α)) :
    List.intercalate separator (first :: others) =
      first ++ others.flatMap (separator ++ ·) := by
  induction others generalizing first with
  | nil => simp
  | cons second others ih =>
    rw [List.intercalate_cons_cons, ih, List.flatMap_cons]
    simp

/-- The pieces joined with the separator give the list back. -/
theorem intercalate_splitChars (sep : Char) (cs : List Char) :
    [sep].intercalate (splitChars (· == sep) cs) = cs := by
  rw [splitChars_eq_splitOn]
  exact List.intercalate_splitOn sep

/-- A text without the separator is one piece. -/
theorem splitChars_of_notMem {sep : Char} {cs : List Char} (h : sep ∉ cs) :
    splitChars (· == sep) cs = [cs] := by
  rw [splitChars_eq_splitOn]
  exact List.splitOn_eq_singleton h

/-- Pieces without the separator are what splitting what they are joined to gives. -/
theorem splitChars_intercalate {sep : Char} {pieces : List (List Char)} (hne : pieces ≠ [])
    (h : ∀ piece ∈ pieces, sep ∉ piece) :
    splitChars (· == sep) ([sep].intercalate pieces) = pieces := by
  rw [splitChars_eq_splitOn]
  exact List.splitOn_intercalate sep h hne

/-- The separator is in none of the pieces. -/
theorem notMem_of_mem_splitChars {sep : Char} {cs piece : List Char}
    (h : piece ∈ splitChars (· == sep) cs) : sep ∉ piece := by
  induction cs generalizing piece with
  | nil =>
    obtain rfl : piece = [] := by simpa [splitChars] using h
    exact List.not_mem_nil
  | cons c cs ih =>
    rw [splitChars] at h
    split at h
    · obtain rfl : piece = [] := by simpa using h
      exact List.not_mem_nil
    · rename_i first rest hpieces
      have hfirst : sep ∉ first := ih (hpieces ▸ List.mem_cons_self ..)
      have hrest : ∀ p ∈ rest, sep ∉ p := fun p hp =>
        ih (hpieces ▸ List.mem_cons_of_mem first hp)
      split at h
      · rcases List.mem_cons.1 h with rfl | h
        · exact List.not_mem_nil
        · rcases List.mem_cons.1 h with rfl | h
          · exact hfirst
          · exact hrest piece h
      · rename_i hc
        rcases List.mem_cons.1 h with rfl | h
        · rw [List.mem_cons, not_or]
          exact ⟨fun heq => hc (by simp [heq]), hfirst⟩
        · exact hrest piece h

/-- A text without a line feed is one line. -/
theorem lines_of_notMem {s : String} (hs : s ≠ "") (h : '\n' ∉ s.toList) : lines s = [s] := by
  unfold lines lineChars
  rw [splitChars_of_notMem h]
  simp [hs]

/-- The pieces on both sides of a separator are those of the whole. -/
theorem splitChars_append_cons (sep : Char) (front back : List Char) :
    splitChars (· == sep) (front ++ sep :: back) =
      splitChars (· == sep) front ++ splitChars (· == sep) back := by
  rw [splitChars_eq_splitOn, splitChars_eq_splitOn, splitChars_eq_splitOn]
  exact List.splitOn_append_cons_self front back

/-- Joined pieces end with the last one, and a separator stands before it. -/
theorem exists_intercalate_last (sep : Char) (init : List (List Char)) (last : List Char) :
    ∃ before, [sep].intercalate (init ++ [last]) = before ++ last ∧
      (before = [] ∨ ∃ before', before = before' ++ [sep]) := by
  induction init with
  | nil => exact ⟨[], by simp, .inl rfl⟩
  | cons piece init ih =>
    obtain ⟨before, heq, hbefore⟩ := ih
    refine ⟨piece ++ [sep] ++ before, ?_, .inr ?_⟩
    · cases init with
      | nil => simpa [List.intercalate_cons_cons] using heq
      | cons piece' init => simpa [List.intercalate_cons_cons] using heq
    · rcases hbefore with rfl | ⟨before', rfl⟩
      · exact ⟨piece, by simp⟩
      · exact ⟨piece ++ [sep] ++ before', by simp⟩

/-- A list is its last piece behind nothing, or behind something that ends with the separator. -/
theorem exists_append_last (sep : Char) (cs : List Char) :
    ∃ init last before, splitChars (· == sep) cs = init ++ [last] ∧ cs = before ++ last ∧
      (before = [] ∨ ∃ before', before = before' ++ [sep]) := by
  obtain ⟨init, last, hsplit⟩ : ∃ init last, splitChars (· == sep) cs = init ++ [last] :=
    ⟨_, _, (List.dropLast_append_getLast (splitChars_ne_nil (· == sep) cs)).symm⟩
  have hjoin := intercalate_splitChars sep cs
  rw [hsplit] at hjoin
  obtain ⟨before, heq, hbefore⟩ := exists_intercalate_last sep init last
  exact ⟨init, last, before, hsplit, hjoin.symm.trans heq, hbefore⟩

/-- Joined texts end with the last one, and a separator stands before it. -/
theorem exists_join_last {parts : List String} {last : String} (h : parts.getLast? = some last) :
    ∃ before, (join "/" parts).toList = before ++ last.toList ∧
      (before = [] ∨ ∃ before', before = before' ++ ['/']) := by
  obtain ⟨init, rfl⟩ := List.getLast?_eq_some_iff.1 h
  rw [join, String.toList_intercalate, List.map_append, List.map_singleton]
  exact exists_intercalate_last '/' (init.map String.toList) last.toList

/-- A list and its last piece end with the same lists without a separator. -/
theorem suffix_last_iff {sep : Char} {tail before last : List Char} (htail : sep ∉ tail)
    (hbefore : before = [] ∨ ∃ before', before = before' ++ [sep]) :
    tail <:+ last ↔ tail <:+ before ++ last := by
  constructor
  · intro h
    exact h.trans (List.suffix_append _ _)
  · intro h
    rcases List.suffix_or_suffix_of_suffix h (List.suffix_append before last) with h' | h'
    · exact h'
    · -- The last piece would be shorter, and a separator would stand before it.
      obtain ⟨front, rfl⟩ := h'
      rcases hbefore with rfl | ⟨before', rfl⟩
      · obtain ⟨x, hx⟩ := h
        have hempty : x = [] ∧ front = [] := by
          have hlen := congrArg List.length hx
          simp only [List.length_append, List.nil_append] at hlen
          exact ⟨List.eq_nil_of_length_eq_zero (by omega), List.eq_nil_of_length_eq_zero (by omega)⟩
        simp [hempty.2]
      · obtain ⟨x, hx⟩ := h
        rw [← List.append_assoc] at hx
        have hx' := List.append_cancel_right hx
        rcases List.eq_nil_or_concat front with rfl | ⟨front', c, rfl⟩
        · simp
        · rw [List.concat_eq_append, ← List.append_assoc] at hx'
          have hc : c = sep := by
            have := congrArg List.getLast? hx'
            simpa using this
          simp [hc] at htail

/-! ## Trimming -/

/-- A list whose first member stays keeps it when others are dropped from its end. -/
theorem dropLeading_dropTrailing (p : Char → Bool) (cs : List Char) :
    dropLeading p (dropTrailing p (dropLeading p cs)) = dropTrailing p (dropLeading p cs) := by
  have hlead : dropTrailing p (dropLeading p cs) <+: dropLeading p cs :=
    List.rdropWhile_prefix p _
  rw [dropLeading, List.dropWhile_eq_self_iff]
  intro hl
  obtain ⟨rest, hrest⟩ := hlead
  have hhead := List.head?_dropWhile_not p cs
  have hcs : cs.dropWhile p = dropTrailing p (dropLeading p cs) ++ rest := hrest.symm
  rw [hcs, List.head?_append_of_ne_nil _ (List.ne_nil_of_length_pos hl), List.head?_eq_getElem?,
    List.getElem?_eq_getElem hl] at hhead
  simpa using hhead

/-- A text begins after trimming with what stands behind its leading blanks. -/
theorem head?_trimChars (cs : List Char) :
    (trimChars cs).head? = (cs.dropWhile isBlank).head? := by
  have htrim : trimChars cs = (cs.dropWhile isBlank).rdropWhile isBlank := rfl
  rw [htrim]
  cases hcs : cs.dropWhile isBlank with
  | nil => rfl
  | cons c rest =>
    have hc : isBlank c = false := by
      have hhead := List.head?_dropWhile_not isBlank cs
      simpa [hcs] using hhead
    have hne : (c :: rest).rdropWhile isBlank ≠ [] := by
      intro hnil
      have hblank := List.rdropWhile_eq_nil_iff.1 hnil c (by simp)
      simp [hc] at hblank
    obtain ⟨behind, heq⟩ := List.rdropWhile_prefix isBlank (c :: rest)
    rw [← List.head?_append_of_ne_nil _ hne, heq]

/-- Blanks stand before what trimming leaves, and something may stand behind it. -/
theorem exists_append_trimChars (cs : List Char) :
    ∃ back, cs = cs.takeWhile isBlank ++ trimChars cs ++ back := by
  obtain ⟨back, hback⟩ : trimChars cs <+: cs.dropWhile isBlank :=
    List.rdropWhile_prefix isBlank (cs.dropWhile isBlank)
  refine ⟨back, ?_⟩
  rw [List.append_assoc, hback, List.takeWhile_append_dropWhile]

/-- A text that neither begins nor ends with a blank is trimmed. -/
theorem trimChars_eq_self_iff (cs : List Char) :
    trimChars cs = cs ↔ (∀ c, cs.head? = some c → isBlank c = false) ∧
      ∀ c, cs.getLast? = some c → isBlank c = false := by
  have htrim : trimChars cs = (cs.dropWhile isBlank).rdropWhile isBlank := rfl
  constructor
  · intro h
    constructor
    · intro c hc
      have hhead := List.head?_dropWhile_not isBlank cs
      rw [← head?_trimChars, h, hc] at hhead
      simpa using hhead
    · intro c hc
      have hne : trimChars cs ≠ [] := by
        rw [h]
        rintro rfl
        cases hc
      have hlast := List.rdropWhile_last_not isBlank (cs.dropWhile isBlank) hne
      rw [← h, List.getLast?_eq_some_getLast hne, Option.some.injEq] at hc
      rw [← hc]
      exact Bool.eq_false_iff.2 hlast
  · rintro ⟨hhead, hlast⟩
    have hdrop : cs.dropWhile isBlank = cs := by
      cases cs with
      | nil => rfl
      | cons c cs => exact List.dropWhile_cons_of_neg (by simp [hhead c rfl])
    rw [htrim, hdrop, List.rdropWhile_eq_self_iff]
    intro hne
    simp [hlast _ (List.getLast?_eq_some_getLast hne)]

/-- A trimmed text has no blanks left to trim. -/
theorem trim_trim (s : String) : trim (trim s) = trim s := by
  have hchars : ∀ cs, trimChars (trimChars cs) = trimChars cs := by
    intro cs
    rw [trimChars, trimChars, dropLeading_dropTrailing]
    exact List.rdropWhile_idempotent isBlank _
  rw [trim, trim, String.toList_ofList, hchars]

end RouteAtlas.Text
