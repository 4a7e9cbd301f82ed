import Mathlib.Data.List.Forall2

/-!
# Lists paired member by member

What a graph or a catalog shows of a declaration is compared with it list by list. Two lists are
paired if they are equally long and the members at each place are related.
-/

set_option autoImplicit false

namespace List.Forall₂

variable {α β γ : Type} {R : α → β → Prop} {l : List α} {l' : List β}

/-- Every member of the first list is paired with one of the second. -/
theorem exists_right_of_mem (h : Forall₂ R l l') {a : α} (ha : a ∈ l) : ∃ b ∈ l', R a b := by
  induction h with
  | nil => simp at ha
  | cons hab _ ih =>
    rcases List.mem_cons.1 ha with rfl | ha
    · exact ⟨_, by simp, hab⟩
    · obtain ⟨b, hb, hrel⟩ := ih ha
      exact ⟨b, by simp [hb], hrel⟩

/-- Every member of the second list is paired with one of the first. -/
theorem exists_left_of_mem (h : Forall₂ R l l') {b : β} (hb : b ∈ l') : ∃ a ∈ l, R a b := by
  obtain ⟨a, ha, hrel⟩ := h.flip.exists_right_of_mem hb
  exact ⟨a, ha, hrel⟩

/-- Lists that are both paired with a third are paired with each other. -/
theorem comp {S : β → γ → Prop} {T : α → γ → Prop} {l'' : List γ} (h : Forall₂ R l l')
    (h' : Forall₂ S l' l'') (ht : ∀ a b c, R a b → S b c → T a c) : Forall₂ T l l'' := by
  induction h generalizing l'' with
  | nil =>
    cases h'
    exact .nil
  | cons hab _ ih =>
    cases h' with
    | cons hbc hrest => exact .cons (ht _ _ _ hab hbc) (ih hrest)

/-- Nothing is left out if every member shows something. -/
theorem filterMap_left {S : γ → β → Prop} (h : Forall₂ R l l') {f : α → Option γ}
    (hf : ∀ a b, R a b → ∃ c, f a = some c ∧ S c b) : Forall₂ S (l.filterMap f) l' := by
  induction h with
  | nil => exact .nil
  | cons hab _ ih =>
    obtain ⟨c, hc, hrel⟩ := hf _ _ hab
    rw [List.filterMap_cons_some hc]
    exact .cons hrel ih

/-- What related members show alike is the same in both lists. -/
theorem filterMap_eq (h : Forall₂ R l l') {f : α → Option γ} {f' : β → Option γ}
    (hf : ∀ a b, R a b → f a = f' b) : l.filterMap f = l'.filterMap f' := by
  induction h with
  | nil => rfl
  | cons hab _ ih => rw [List.filterMap_cons, List.filterMap_cons, hf _ _ hab, ih]

/-- What is read off paired members alike is the same list for both. -/
theorem map_eq (h : Forall₂ R l l') {f : α → γ} {f' : β → γ} (hf : ∀ a b, R a b → f a = f' b) :
    l.map f = l'.map f' := by
  rw [← List.filterMap_eq_map, ← List.filterMap_eq_map]
  exact h.filterMap_eq fun a b hab => congrArg some (hf a b hab)

end List.Forall₂
