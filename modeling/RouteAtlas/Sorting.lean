/-!
# Sorting

A list is put in order by inserting its members one by one, the last one first. Members that tie
keep the order they had.
-/

set_option autoImplicit false

namespace RouteAtlas.Sorting

variable {α : Type} (le : α → α → Bool)

/-- An ordered list with one more member, which comes before those it ties with. -/
def insert (a : α) : List α → List α
  | [] => [a]
  | b :: rest => if le a b then a :: b :: rest else b :: insert a rest

/-- The members of a list in order. -/
def sorted : List α → List α
  | [] => []
  | a :: rest => insert le a (sorted rest)

end RouteAtlas.Sorting
