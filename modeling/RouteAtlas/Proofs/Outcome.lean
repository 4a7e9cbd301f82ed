/-!
# Steps that can fail

Reading, looking up and building are done in steps any of which can fail. If the whole succeeds, so
has each of its steps, and if it fails, one of them has; these are the lemmas by which such a result
is taken apart.
-/

set_option autoImplicit false

namespace RouteAtlas

variable {ε α β : Type}

/-- The first step of what succeeds, and the rest of it. -/
theorem bind_eq_ok {x : Except ε α} {f : α → Except ε β} {b : β} (h : x >>= f = .ok b) :
    ∃ a, x = .ok a ∧ f a = .ok b := by
  cases x with
  | error e => cases h
  | ok a => exact ⟨a, rfl, h⟩

/-- Something has failed because its first step has, or else because the rest of it has. -/
theorem bind_eq_error {x : Except ε α} {f : α → Except ε β} {e : ε} (h : x >>= f = .error e) :
    x = .error e ∨ ∃ a, x = .ok a ∧ f a = .error e := by
  cases x with
  | error e' => exact .inl (congrArg _ (Except.error.inj h))
  | ok a => exact .inr ⟨a, rfl, h⟩

/-- A program of two steps that may fail is run one step after the other. -/
theorem run_bind_eq (x : ExceptT ε Id α) (f : α → ExceptT ε Id β) :
    (x >>= f).run = Except.bind x.run fun a => (f a).run := by
  show ExceptT.run (ExceptT.bind x f) = _
  rcases hx : x.run with e | a
  · have hx' : x = .error e := hx
    rw [hx']
    rfl
  · have hx' : x = .ok a := hx
    rw [hx']
    rfl

/-- The first step of a program that succeeds, and the rest of it. -/
theorem run_bind_eq_ok {x : ExceptT ε Id α} {f : α → ExceptT ε Id β} {b : β}
    (h : (x >>= f).run = .ok b) : ∃ a, x.run = .ok a ∧ (f a).run = .ok b :=
  bind_eq_ok ((run_bind_eq x f).symm.trans h)

/-- A program has failed because its first step has, or else because the rest of it has. -/
theorem run_bind_eq_error {x : ExceptT ε Id α} {f : α → ExceptT ε Id β} {e : ε}
    (h : (x >>= f).run = .error e) :
    x.run = .error e ∨ ∃ a, x.run = .ok a ∧ (f a).run = .error e :=
  bind_eq_error ((run_bind_eq x f).symm.trans h)

/-- What a list is turned into, one member after another, comes from its members. -/
theorem exists_of_mem_mapM {f : α → Except ε β} {l : List α} {l' : List β} (h : l.mapM f = .ok l')
    {b : β} (hb : b ∈ l') : ∃ a ∈ l, f a = .ok b := by
  induction l generalizing l' with
  | nil =>
    cases h
    cases hb
  | cons a l ih =>
    rw [List.mapM_cons] at h
    obtain ⟨b', hfirst, h⟩ := bind_eq_ok h
    obtain ⟨bs, hrest, h⟩ := bind_eq_ok h
    cases h
    rcases List.mem_cons.1 hb with rfl | hb
    · exact ⟨a, by simp, hfirst⟩
    · obtain ⟨a', ha', hf⟩ := ih hrest hb
      exact ⟨a', by simp [ha'], hf⟩

/-- A list cannot be turned into another because one of its members cannot. -/
theorem exists_of_mapM_eq_error {f : α → Except ε β} {l : List α} {e : ε}
    (h : l.mapM f = .error e) : ∃ a ∈ l, f a = .error e := by
  induction l with
  | nil => cases h
  | cons a l ih =>
    rw [List.mapM_cons] at h
    rcases bind_eq_error h with hfirst | ⟨b, -, h⟩
    · exact ⟨a, List.mem_cons_self, hfirst⟩
    · rcases bind_eq_error h with hrest | ⟨bs, -, h⟩
      · obtain ⟨a', ha', hf⟩ := ih hrest
        exact ⟨a', List.mem_cons_of_mem a ha', hf⟩
      · cases h

/-- A result of which something is known is there. -/
theorem exists_eq_ok {x : Except ε α} {f : α → β} {b : β} (h : x.toOption.map f = some b) :
    ∃ a, x = .ok a ∧ f a = b := by
  cases x with
  | error e => simp [Except.toOption] at h
  | ok a => exact ⟨a, rfl, by simpa [Except.toOption] using h⟩

end RouteAtlas
