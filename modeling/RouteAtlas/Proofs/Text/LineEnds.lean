import RouteAtlas.Proofs.Source.Marks
import RouteAtlas.Proofs.Text.Pieces

/-!
# Line ends

A line of a text ends at a line feed, and a carriage return before the line feed belongs to the end
as well. So the lines of a text say how long it is only together with the number of such carriage
returns (`byteCount_dropReturn`).
-/

set_option autoImplicit false

namespace RouteAtlas.Text

/-- How many line feeds of a text have a carriage return before them. -/
def countReturns : List Char → Nat
  | [] => 0
  | c :: cs => (if c = '\r' ∧ cs.head? = some '\n' then 1 else 0) + countReturns cs

/-- A line of a text behind some others: it begins where the text does or behind a line feed, and it
goes on to a line feed, the carriage return before which is not part of it, or to the end of the
text. -/
structure IsLine (text front line : List Char) : Prop where
  begins : front = [] ∨ front.getLast? = some '\n'
  single : '\n' ∉ line
  ends : ∃ ending rest, text = front ++ line ++ ending ++ rest ∧
    (ending = [] ∧ rest = [] ∨ ending = ['\r', '\n'] ∨
      ending = ['\n'] ∧ line.getLast? ≠ some '\r')

variable {cs piece front : List Char}

/-- What holds of a text without a line feed, and of a text if it holds of what stands behind its
first line feed, holds of every text. -/
@[elab_as_elim]
theorem lines_induction {P : List Char → Prop} (last : ∀ cs, '\n' ∉ cs → P cs)
    (more : ∀ piece rest, '\n' ∉ piece → P rest → P (piece ++ '\n' :: rest)) (cs : List Char) :
    P cs := by
  induction hlength : cs.length using Nat.strong_induction_on generalizing cs with
  | _ n ih =>
    by_cases hfeed : '\n' ∈ cs
    · obtain ⟨piece, rest, rfl, hpiece⟩ := List.eq_append_cons_of_mem hfeed
      refine more piece rest hpiece (ih rest.length ?_ rest rfl)
      rw [← hlength, List.length_append, List.length_cons]
      omega
    · exact last cs hfeed

/-- A text without a line feed is one line, or none if it is empty. -/
theorem lineChars_of_notMem (h : '\n' ∉ cs) :
    lineChars cs = if cs.isEmpty then [] else [cs] := by
  unfold lineChars
  rw [splitChars_of_notMem h]
  rfl

/-- Up to the first line feed stands the first line, and behind it the others. -/
theorem lineChars_append_cons (h : '\n' ∉ piece) (rest : List Char) :
    lineChars (piece ++ '\n' :: rest) = dropReturn piece :: lineChars rest := by
  unfold lineChars
  rw [splitChars_append_cons, splitChars_of_notMem h]
  obtain ⟨init, last, hpieces⟩ : ∃ init last, splitChars (· == '\n') rest = init ++ [last] :=
    ⟨_, _, (List.dropLast_append_getLast (splitChars_ne_nil (· == '\n') rest)).symm⟩
  rw [hpieces]
  simp only [List.reverse_cons, List.reverse_append, List.reverse_nil,
    List.nil_append, List.cons_append, List.reverse_reverse, List.map_cons]
  split
  · rfl
  · rfl

/-- Dropping a carriage return changes what ends with one only. -/
theorem dropReturn_cases (piece : List Char) :
    (piece.getLast? ≠ some '\r' ∧ dropReturn piece = piece) ∨
      piece = dropReturn piece ++ ['\r'] := by
  rcases List.eq_nil_or_concat piece with rfl | ⟨init, c, rfl⟩
  · exact .inl ⟨nofun, rfl⟩
  · by_cases hc : c = '\r'
    · right
      subst hc
      simp [dropReturn]
    · left
      refine ⟨by simpa using hc, ?_⟩
      unfold dropReturn
      rw [List.concat_eq_append, List.reverse_append, List.reverse_singleton, List.singleton_append]
      split
      · rename_i heq
        exact absurd (List.cons.inj heq).1 hc
      · rfl

/-- No line end goes over a cut that is not between a carriage return and a line feed. -/
theorem countReturns_append {back : List Char}
    (h : ¬ (front.getLast? = some '\r' ∧ back.head? = some '\n')) :
    countReturns (front ++ back) = countReturns front + countReturns back := by
  induction front with
  | nil => simp [countReturns]
  | cons c front ih =>
    cases front with
    | nil =>
      have hc : ¬ (c = '\r' ∧ back.head? = some '\n') := by simpa using h
      simp [countReturns, hc]
    | cons d front =>
      have hrest := ih (by simpa [List.getLast?_cons_cons] using h)
      have hstep : ∀ cs, countReturns (c :: d :: cs) =
          (if c = '\r' ∧ some d = some '\n' then 1 else 0) + countReturns (d :: cs) := fun _ => rfl
      rw [List.cons_append, List.cons_append, hstep, hstep, ← List.cons_append, hrest,
        Nat.add_assoc]

/-- No carriage return is counted in a text without one before a line feed. -/
theorem countReturns_eq_zero_iff (cs : List Char) :
    countReturns cs = 0 ↔ ¬ ['\r', '\n'] <:+: cs := by
  induction cs with
  | nil => simp [countReturns]
  | cons c cs ih =>
    have hlead : ['\r', '\n'] <+: c :: cs ↔ c = '\r' ∧ cs.head? = some '\n' := by
      cases cs with
      | nil => simp
      | cons d cs => simp [List.cons_prefix_cons, eq_comm]
    rw [countReturns, List.infix_cons_iff, hlead, not_or, ← ih]
    split_ifs with hend
    · simp [hend]
    · simp [hend]

/-- The bytes of a line and of the carriage return that ends it. -/
theorem byteCount_dropReturn (h : '\n' ∉ piece) :
    byteCount (dropReturn piece) + countReturns (piece ++ ['\n']) = byteCount piece := by
  have hnone : ∀ line : List Char, '\n' ∉ line → countReturns line = 0 := fun line hline =>
    (countReturns_eq_zero_iff line).2 fun hpair => hline (hpair.mem (by simp))
  rcases dropReturn_cases piece with ⟨hlast, heq⟩ | heq
  · rw [countReturns_append (fun hboth => hlast hboth.1), hnone piece h, heq]
    rfl
  · have hline : '\n' ∉ dropReturn piece := fun hmem => by
      rw [heq] at h
      exact h (List.mem_append_left _ hmem)
    have hend : piece ++ ['\n'] = dropReturn piece ++ ['\r', '\n'] := by
      rw [heq]
      simp [dropReturn]
    have hsize : byteCount piece = byteCount (dropReturn piece) + 1 := by
      rw [heq, byteCount_append, ← heq]
      rfl
    rw [hend, countReturns_append (by simp), hnone _ hline, hsize]
    rfl

end RouteAtlas.Text
