/-!
# Checked arithmetic

A number that does not fit a word stops a program whose arithmetic is checked. One whose arithmetic
is not checked goes on with the word that is left of the number. A computation is kept as the value
it has then, together with whether a number did not fit; what comes out of it where arithmetic is
checked, its outcome, is that value or the overflow.
-/

set_option autoImplicit false

namespace RouteAtlas

/-- A number did not fit a word. -/
inductive Overflow where
  | overflow
  deriving DecidableEq, Repr

/-- The value of a computation whose numbers wrap around, and whether one of them did. -/
@[ext]
structure Checked (α : Type) where
  value : α
  overflows : Bool := false
  deriving DecidableEq, Repr

namespace Checked

variable {α β : Type}

instance : Monad Checked where
  pure a := ⟨a, false⟩
  bind c f := ⟨(f c.value).value, c.overflows || (f c.value).overflows⟩

/-- What comes out where arithmetic is checked: the first number that does not fit ends it. -/
def outcome (c : Checked α) : Except Overflow α :=
  if c.overflows then .error .overflow else .ok c.value

/-- A number as a word. -/
def word (n : Int) : Checked Int64 := ⟨.ofInt n, (Int64.ofInt n).toInt != n⟩

/-- What needs no arithmetic has its value. -/
@[simp] theorem value_pure (a : α) : (pure a : Checked α).value = a := rfl

/-- What needs no arithmetic does not overflow. -/
@[simp] theorem overflows_pure (a : α) : (pure a : Checked α).overflows = false := rfl

/-- What is done with a value without arithmetic is done with it. -/
@[simp] theorem value_map (f : α → β) (c : Checked α) : (f <$> c).value = f c.value := rfl

/-- What is done with a value without arithmetic adds no overflow. -/
@[simp] theorem overflows_map (f : α → β) (c : Checked α) :
    (f <$> c).overflows = c.overflows :=
  Bool.or_false _

/-- The second step goes on with the value of the first, whether that overflowed or not. -/
@[simp] theorem value_bind (c : Checked α) (f : α → Checked β) :
    (c >>= f).value = (f c.value).value := rfl

/-- Two steps overflow if one of them does. -/
@[simp] theorem overflows_bind (c : Checked α) (f : α → Checked β) :
    (c >>= f).overflows = (c.overflows || (f c.value).overflows) := rfl

end Checked

end RouteAtlas
