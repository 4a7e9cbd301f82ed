import RouteAtlas.Metadata.Identity
import RouteAtlas.Sorting
import Mathlib

/-!
# Sorted lists

A sorted list has the same members as before, and they stand in order if the order is total. Members
that the order tells apart stand in one order only, however they stood before (`filter_sorted`,
`sorted_eq_of_perm`). Identities are told apart by their order.
-/

set_option autoImplicit false

namespace RouteAtlas

namespace Sorting

variable {α : Type} (le : α → α → Bool)

/-- A member is inserted as the library's insertion sort does it. -/
theorem insert_eq_orderedInsert (a : α) (l : List α) :
    insert le a l = l.orderedInsert (fun a b => le a b = true) a := by
  induction l with
  | nil => rfl
  | cons b rest ih => rw [insert, List.orderedInsert_cons, ih]

/-- Sorting is the library's insertion sort, so what is known of that holds of it. -/
theorem sorted_eq_insertionSort (l : List α) :
    sorted le l = l.insertionSort (fun a b => le a b = true) := by
  induction l with
  | nil => rfl
  | cons a rest ih => rw [sorted, List.insertionSort_cons, ih, insert_eq_orderedInsert]

/-- Sorting only changes the order. -/
theorem perm_sorted (l : List α) : (sorted le l).Perm l := by
  rw [sorted_eq_insertionSort]
  exact List.perm_insertionSort _ l

/-- A sorted list has the members that it had before. -/
@[simp] theorem mem_sorted {a : α} {l : List α} : a ∈ sorted le l ↔ a ∈ l :=
  (perm_sorted le l).mem_iff

variable {le}

/-- A sorted list stands in order if the order is transitive and total. -/
theorem pairwise_sorted (htrans : ∀ a b c, le a b = true → le b c = true → le a c = true)
    (htotal : ∀ a b, le a b = true ∨ le b a = true) (l : List α) :
    (sorted le l).Pairwise fun a b => le a b = true := by
  have : IsTrans α fun a b => le a b = true := ⟨htrans⟩
  have : Std.Total fun a b => le a b = true := ⟨htotal⟩
  rw [sorted_eq_insertionSort]
  exact List.pairwise_insertionSort _ l

/-- A list that stands in order stays as it is, also if some of its members tie. -/
theorem sorted_of_pairwise {l : List α} (h : l.Pairwise fun a b => le a b = true) :
    sorted le l = l := by
  rw [sorted_eq_insertionSort]
  exact h.insertionSort_eq

/-- The members of a list that the order tells apart come out in that order, also if others stand
between them. -/
theorem filter_sorted (htrans : ∀ a b c, le a b = true → le b c = true → le a c = true)
    (htotal : ∀ a b, le a b = true ∨ le b a = true) (keep : α → Bool) {l l' : List α}
    (hperm : l.Perm l')
    (hstrict : (l'.filter keep).Pairwise fun a b => le a b = true ∧ le b a = false) :
    (sorted le l).filter keep = l'.filter keep := by
  have hsorted : ((sorted le l).filter keep).Pairwise fun a b => le a b = true :=
    (pairwise_sorted htrans htotal l).filter keep
  have hsame : ((sorted le l).filter keep).Perm (l'.filter keep) :=
    ((perm_sorted le l).trans hperm).filter keep
  -- Two members that come before each other are one.
  have htold : ∀ a ∈ l'.filter keep, ∀ b ∈ l'.filter keep,
      le a b = true → le b a = true → a = b := by
    intro a ha b hb
    have hone := hstrict.imp fun {a b} h (_ : le a b = true) (h' : le b a = true) =>
      (by simp [h.2] at h' : a = b)
    have hother := hstrict.imp fun {a b} h (h' : le b a = true) (_ : le a b = true) =>
      (by simp [h.2] at h' : b = a)
    exact hone.forall_of_forall_of_flip (fun _ _ _ _ => rfl) hother ha hb
  apply List.Perm.eq_of_pairwise _ hsorted (hstrict.imp And.left) hsame
  intro a b ha hb
  exact htold a (hsame.mem_iff.1 ha) b hb

/-- A list in strict order is what every arrangement of its members is sorted to. -/
theorem sorted_eq_of_perm (htrans : ∀ a b c, le a b = true → le b c = true → le a c = true)
    (htotal : ∀ a b, le a b = true ∨ le b a = true) {l l' : List α} (hperm : l.Perm l')
    (hstrict : l'.Pairwise fun a b => le a b = true ∧ le b a = false) : sorted le l = l' := by
  have hall := filter_sorted htrans htotal (fun _ => true) hperm (by simpa using hstrict)
  simpa using hall

/-- Members that the order tells apart come out in one order, however they stood before. -/
theorem sorted_congr_of_perm (htrans : ∀ a b c, le a b = true → le b c = true → le a c = true)
    (htotal : ∀ a b, le a b = true ∨ le b a = true) {l l' : List α} (hperm : l.Perm l')
    (htold : ∀ a b, a ∈ l → b ∈ l → le a b = true → le b a = true → a = b) :
    sorted le l = sorted le l' := by
  have hsame : (sorted le l).Perm (sorted le l') :=
    (perm_sorted le l).trans (hperm.trans (perm_sorted le l').symm)
  apply List.Perm.eq_of_pairwise _ (pairwise_sorted htrans htotal l)
    (pairwise_sorted htrans htotal l') hsame
  intro a b ha hb
  have hb' : b ∈ l := hperm.mem_iff.2 ((mem_sorted le).1 hb)
  exact htold a b ((mem_sorted le).1 ha) hb'

/-- Members that tie may come out in any order, but the keys they are sorted by come out in one. -/
theorem map_sorted_of_perm {κ : Type} [LinearOrder κ] {key : α → κ}
    (hkey : ∀ a b, le a b = true ↔ key a ≤ key b) {l l' : List α} (hperm : l.Perm l') :
    (sorted le l).map key = (sorted le l').map key := by
  have hsorted : ∀ l : List α, ((sorted le l).map key).Pairwise (· ≤ ·) := by
    intro l
    rw [List.pairwise_map]
    have htrans : ∀ a b c, le a b = true → le b c = true → le a c = true := by
      intro a b c hab hbc
      exact (hkey a c).2 (((hkey a b).1 hab).trans ((hkey b c).1 hbc))
    have htotal : ∀ a b, le a b = true ∨ le b a = true := by
      intro a b
      rw [hkey, hkey]
      exact le_total (key a) (key b)
    exact (pairwise_sorted htrans htotal l).imp fun {a b} => (hkey a b).1
  have hsame : ((sorted le l).map key).Perm ((sorted le l').map key) :=
    ((perm_sorted le l).trans (hperm.trans (perm_sorted le l').symm)).map key
  exact List.Perm.eq_of_pairwise (fun a b _ _ => le_antisymm) (hsorted l) (hsorted l') hsame

end Sorting

namespace DeclId

/-- Identities are ordered by their packages, and within a package by their names. -/
theorem le_iff (a b : DeclId) :
    a.le b = true ↔ a.package < b.package ∨ a.package = b.package ∧ a.name ≤ b.name := by
  simp [le]

/-- Of two identities one comes before the other or is the same. -/
theorem total_le (a b : DeclId) : a.le b = true ∨ b.le a = true := by
  rw [le_iff, le_iff]
  rcases lt_trichotomy a.package b.package with h | h | h
  · exact .inl (.inl h)
  · rcases le_total a.name b.name with h' | h'
    · exact .inl (.inr ⟨h, h'⟩)
    · exact .inr (.inr ⟨h.symm, h'⟩)
  · exact .inr (.inl h)

/-- The order of identities is transitive. -/
theorem trans_le (a b c : DeclId) (h : a.le b = true) (h' : b.le c = true) : a.le c = true := by
  rw [le_iff] at h h' ⊢
  rcases h with h | ⟨h, hname⟩
  · rcases h' with h' | ⟨h', -⟩
    · exact .inl (lt_trans h h')
    · exact .inl (h' ▸ h)
  · rcases h' with h' | ⟨h', hname'⟩
    · exact .inl (h ▸ h')
    · exact .inr ⟨h.trans h', le_trans hname hname'⟩

/-- Identities that come before each other are the same. -/
theorem antisymm_le {a b : DeclId} (h : a.le b = true) (h' : b.le a = true) : a = b := by
  rw [le_iff] at h h'
  rcases h with h | ⟨hpackage, hname⟩
  · rcases h' with h' | ⟨hpackage, -⟩
    · exact absurd h' (lt_asymm h)
    · exact absurd h (hpackage ▸ lt_irrefl _)
  · rcases h' with h' | ⟨-, hname'⟩
    · exact absurd h' (hpackage ▸ lt_irrefl _)
    · cases a
      cases b
      simp only at hpackage hname hname'
      rw [hpackage, le_antisymm hname hname']

/-- One identity comes before another, and they are not the same. -/
def Before (a b : DeclId) : Prop := a.le b = true ∧ a ≠ b

/-- An identity comes before whatever comes after one that it comes before. -/
theorem Before.trans {a b c : DeclId} (h : a.Before b) (h' : b.Before c) : a.Before c := by
  refine ⟨trans_le a b c h.1 h'.1, ?_⟩
  rintro rfl
  exact h.2 (antisymm_le h.1 h'.1)

end DeclId

end RouteAtlas
