import RouteAtlas.Proofs.Text.Pieces

/-!
# Searching a text

A search for the first place where one list stands in another passes over everything in front of
that place, and over a whole list in which there is none. Whether it stands at a place is often
decided by a separator alone: two lists that are equal up to their first separators are equal before
them.
-/

set_option autoImplicit false

namespace RouteAtlas.Text

variable {needle front rest cs : List Char}

/-- Nothing is left behind a lead that the text does not begin with. -/
theorem afterLead?_eq_none_iff {lead : List Char} : afterLead? lead cs = none ↔ ¬ lead <+: cs := by
  rw [← isSome_afterLead?, Option.not_isSome_iff_eq_none]

/-- The search passes over what the list it is for begins nowhere in. -/
theorem afterFirst?_append
    (h : ∀ tail, tail ≠ [] → tail <:+ front → ¬ needle <+: tail ++ rest) :
    afterFirst? needle (front ++ rest) = afterFirst? needle rest := by
  induction front with
  | nil => rfl
  | cons c front ih =>
    have hnone : afterLead? needle (c :: (front ++ rest)) = none :=
      afterLead?_eq_none_iff.2 (h (c :: front) (List.cons_ne_nil c front) List.suffix_rfl)
    rw [List.cons_append, afterFirst?, hnone]
    exact ih fun tail hne htail => h tail hne (htail.trans (List.suffix_cons c front))

/-- The search passes over a character that its list does not begin with. -/
theorem afterFirst?_cons {c n : Char} (h : n ≠ c) (cs : List Char) :
    afterFirst? (n :: needle) (c :: cs) = afterFirst? (n :: needle) cs := by
  rw [afterFirst?, afterLead?, if_neg h]

/-- A text that begins with what is searched for is found at once. -/
theorem afterFirst?_needle (hne : needle ≠ []) (rest : List Char) :
    afterFirst? needle (needle ++ rest) = some rest := by
  have hlead : afterLead? needle (needle ++ rest) = some rest := afterLead?_eq_some_iff.2 rfl
  cases needle with
  | nil => exact absurd rfl hne
  | cons n needle =>
    rw [List.cons_append] at hlead ⊢
    rw [afterFirst?, hlead]

/-- The search finds the first place. -/
theorem exists_of_afterFirst?_eq_some (hne : needle ≠ []) (h : afterFirst? needle cs = some rest) :
    ∃ front, cs = front ++ (needle ++ rest) ∧
      ∀ tail, tail ≠ [] → tail <:+ front → ¬ needle <+: tail ++ (needle ++ rest) := by
  induction cs with
  | nil =>
    rw [afterFirst?, if_neg (by simpa using hne)] at h
    cases h
  | cons c cs ih =>
    rw [afterFirst?] at h
    split at h
    · rename_i r hlead
      cases h
      refine ⟨[], by simpa using afterLead?_eq_some_iff.1 hlead, fun tail htail hsuffix => ?_⟩
      exact absurd (List.suffix_nil.1 hsuffix) htail
    · rename_i hnone
      obtain ⟨front, rfl, hfirst⟩ := ih h
      refine ⟨c :: front, rfl, fun tail htail hsuffix => ?_⟩
      rcases List.suffix_cons_iff.1 hsuffix with rfl | hsuffix
      · exact afterLead?_eq_none_iff.1 hnone
      · exact hfirst tail htail hsuffix

/-- Nothing is found in a text that does not hold what is searched for. -/
theorem afterFirst?_eq_none_iff (hne : needle ≠ []) :
    afterFirst? needle cs = none ↔ ¬ needle <:+: cs := by
  induction cs with
  | nil => simp [afterFirst?, hne]
  | cons c cs ih =>
    rw [afterFirst?, List.infix_cons_iff, not_or, ← ih, ← afterLead?_eq_none_iff]
    cases afterLead? needle (c :: cs) <;> simp

/-- What is found in a list is found in a longer one, with what is added behind it. -/
theorem afterFirst?_append_right (hne : needle ≠ []) (h : afterFirst? needle cs = some rest)
    (back : List Char) : afterFirst? needle (cs ++ back) = some (rest ++ back) := by
  obtain ⟨front, rfl, hfirst⟩ := exists_of_afterFirst?_eq_some hne h
  rw [List.append_assoc, List.append_assoc, afterFirst?_append, afterFirst?_needle hne]
  intro tail htail hsuffix hlead
  -- The place would lie in front of the end of the shorter list, and so in that list.
  refine hfirst tail htail hsuffix (List.prefix_of_prefix_length_le hlead ?_ ?_)
  · exact ⟨back, by simp⟩
  · simp only [List.length_append]
    omega

/-- What is not found in a list is found at most at the end of a list with one more member. -/
theorem afterFirst?_concat (hne : needle ≠ []) (h : afterFirst? needle cs = none) {c : Char}
    (hfound : afterFirst? needle (cs ++ [c]) = some rest) : rest = [] := by
  obtain ⟨front, hcs, -⟩ := exists_of_afterFirst?_eq_some hne hfound
  rcases List.eq_nil_or_concat rest with rfl | ⟨init, d, rfl⟩
  · rfl
  · have hlong : cs ++ [c] = (front ++ (needle ++ init)) ++ [d] := by simpa using hcs
    obtain ⟨rfl, -⟩ := List.append_inj' hlong rfl
    refine absurd ?_ ((afterFirst?_eq_none_iff hne).1 h)
    exact ⟨front, init, by simp⟩

/-! ## Separators -/

section Separator

variable {sep : Char} {a b x y lead : List Char}

/-- Of two lists one begins with the other up to a separator only if they are equal up to it. -/
theorem append_cons_prefix_iff (ha : sep ∉ a) (hb : sep ∉ b) :
    a ++ sep :: x <+: b ++ sep :: y ↔ a = b ∧ x <+: y := by
  induction a generalizing b with
  | nil =>
    cases b with
    | nil => simp
    | cons d b =>
      have hd : sep ≠ d := fun h => hb (h ▸ List.mem_cons_self ..)
      simp [List.cons_prefix_cons, hd]
  | cons c a ih =>
    have hc : sep ≠ c := fun h => ha (h ▸ List.mem_cons_self ..)
    cases b with
    | nil => simp [List.cons_prefix_cons, hc.symm]
    | cons d b =>
      rw [List.cons_append, List.cons_append, List.cons_prefix_cons, List.cons.injEq,
        ih (fun h => ha (List.mem_cons_of_mem c h)) (fun h => hb (List.mem_cons_of_mem d h)),
        and_assoc]

/-- The part of a list before the first separator. -/
theorem takeWhile_append_cons (ha : sep ∉ a) (x : List Char) :
    (a ++ sep :: x).takeWhile (· != sep) = a := by
  have hall : ∀ c ∈ a, (c != sep) = true := fun c hc => by
    rw [bne_iff_ne]
    exact fun h => ha (h ▸ hc)
  rw [List.takeWhile_append_of_pos hall, List.takeWhile_cons_of_neg (by simp), List.append_nil]

/-- What has a separator in it is not found in front of the same separator if what it has before
that does not stand there. -/
theorem afterFirst?_of_not_suffix (hlead : sep ∉ lead) (hfront : sep ∉ front)
    (h : ¬ lead <:+ front) (more cs : List Char) :
    afterFirst? (lead ++ sep :: more) (front ++ sep :: cs) =
      afterFirst? (lead ++ sep :: more) (sep :: cs) := by
  refine afterFirst?_append fun tail _ hsuffix hplace => h ?_
  have htail : sep ∉ tail := fun hmem => hfront (hsuffix.mem hmem)
  rw [((append_cons_prefix_iff hlead htail).1 hplace).1]
  exact hsuffix

/-- What has a separator in it is found at the first one if what it has before that stands there. -/
theorem afterFirst?_of_suffix (hfront : sep ∉ front) (h : lead <:+ front) (more cs : List Char) :
    afterFirst? (lead ++ sep :: more) (front ++ sep :: (more ++ cs)) = some cs := by
  obtain ⟨before, rfl⟩ := h
  rw [List.mem_append, not_or] at hfront
  have htext : before ++ lead ++ sep :: (more ++ cs) = before ++ ((lead ++ sep :: more) ++ cs) := by
    simp
  rw [htext, afterFirst?_append, afterFirst?_needle (by simp)]
  intro tail htail hsuffix hplace
  have hsep : sep ∉ tail ++ lead := by
    rw [List.mem_append, not_or]
    exact ⟨fun hmem => hfront.1 (hsuffix.mem hmem), hfront.2⟩
  have hplace' : lead ++ sep :: more <+: (tail ++ lead) ++ sep :: (more ++ cs) := by
    simpa using hplace
  -- The place would have more before the separator than is searched for.
  have hlead := ((append_cons_prefix_iff hfront.2 hsep).1 hplace').1
  exact htail (by simpa using hlead)

end Separator

end RouteAtlas.Text
