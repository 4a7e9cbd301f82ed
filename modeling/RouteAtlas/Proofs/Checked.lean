import RouteAtlas.Checked
import Mathlib

/-!
# Outcomes of checked arithmetic

A computation whose arithmetic is checked stops where one of its steps does (`outcome_bind`), so the
first number that does not fit a word decides its outcome. A number fits if the word for it is the
number again.
-/

set_option autoImplicit false

namespace RouteAtlas.Checked

variable {α β : Type} {c : Checked α} {a : α}

/-- A computation stops if a number in it overflows. -/
theorem outcome_eq_error_iff : c.outcome = .error .overflow ↔ c.overflows = true := by
  rw [outcome]
  split <;> simp_all

/-- What comes out of a computation is its value, unless a number in it overflows. -/
theorem outcome_eq_ok_iff : c.outcome = .ok a ↔ c.overflows = false ∧ c.value = a := by
  rw [outcome]
  split <;> simp_all

/-- The outcome is the value if it is not the overflow. -/
theorem outcome_eq_value_iff : c.outcome = .ok c.value ↔ ¬ c.outcome = .error .overflow := by
  rw [outcome_eq_ok_iff, outcome_eq_error_iff]
  simp

/-- What needs no arithmetic comes out as it is. -/
theorem outcome_pure (a : α) : (pure a : Checked α).outcome = .ok a := rfl

/-- Computations without arithmetic are the same if they have the same value. -/
theorem pure_inj {a b : α} : (pure a : Checked α) = pure b ↔ a = b :=
  ⟨congrArg value, congrArg pure⟩

/-- A computation in two steps stops where one of them does. -/
theorem outcome_bind (c : Checked α) (f : α → Checked β) :
    (c >>= f).outcome = c.outcome >>= fun a => (f a).outcome := by
  rw [outcome, outcome, overflows_bind, value_bind]
  cases c.overflows <;> rfl

instance : LawfulMonad Checked :=
  .mk' Checked (fun _ => Checked.ext rfl (Bool.or_false _)) (fun _ _ => Checked.ext rfl rfl)
    fun _ _ _ => Checked.ext rfl (Bool.or_assoc ..)

/-- The members of a list are computed one by one. -/
theorem value_mapM (f : α → Checked β) (l : List α) :
    (l.mapM f).value = l.map fun a => (f a).value := by
  induction l with
  | nil => rfl
  | cons a l ih => rw [List.mapM_cons, value_bind, value_bind, value_pure, ih, List.map_cons]

/-- A list is not computed if one of its members overflows. -/
theorem overflows_mapM_iff (f : α → Checked β) (l : List α) :
    (l.mapM f).overflows = true ↔ ∃ a ∈ l, (f a).overflows = true := by
  induction l with
  | nil => simp
  | cons a l ih =>
    rw [List.mapM_cons, overflows_bind, overflows_bind, overflows_pure, Bool.or_false,
      Bool.or_eq_true, ih, List.exists_mem_cons_iff]

end RouteAtlas.Checked
