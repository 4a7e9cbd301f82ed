import RouteAtlas.Catalog.OfGraph
import Mathlib

/-!
# What a cache maps an identity to

A cache is looked at through `get?` only. Storing metadata and asking about a declaration change
what is known about one identity, and nothing else.
-/

set_option autoImplicit false

namespace RouteAtlas.MetadataCache

/-- An entry is found under its own identity. -/
theorem id_of_get? {c : MetadataCache} {id : DeclId} {e : CacheEntry} (h : c.get? id = some e) :
    e.id = id := by
  have := List.find?_some h
  simpa using this

/-- Entries after one of them has been stored. -/
theorem find?_insertEntry (e : CacheEntry) (l : List CacheEntry) (id : DeclId) :
    (insertEntry e l).find? (·.id == id) = if id = e.id then some e else l.find? (·.id == id) := by
  induction l with
  | nil =>
    by_cases h : id = e.id
    · simp [insertEntry, h]
    · simp [insertEntry, h, Ne.symm h]
  | cons x rest ih =>
    rw [insertEntry]
    by_cases hx : x.id = e.id
    · by_cases h : id = e.id
      · simp [hx, h]
      · simp [hx, h, Ne.symm h]
    · rw [if_neg hx]
      by_cases hle : x.id.le e.id = true
      · rw [if_pos hle, List.find?_cons, List.find?_cons, ih]
        by_cases hxi : x.id = id
        · have hne : id ≠ e.id := hxi ▸ hx
          simp only [if_neg hne]
        · simp only [beq_eq_false_iff_ne.2 hxi]
      · rw [if_neg hle]
        by_cases h : id = e.id
        · simp [h]
        · simp [h, Ne.symm h]

/-- What was stored for an identity is found, and other entries stay. -/
theorem get?_put (c : MetadataCache) (id : DeclId) (metadata : ModelMetadata)
    (version : FileVersion) (id' : DeclId) :
    (c.put id metadata version).get? id' =
      if id' = id then some ⟨id, metadata, version⟩ else c.get? id' :=
  find?_insertEntry ⟨id, metadata, version⟩ c.entries id'

/-- What is found after an entry has been removed. -/
theorem get?_invalidate (c : MetadataCache) (id id' : DeclId) :
    (c.invalidate id).get? id' = if id' = id then none else c.get? id' := by
  rw [invalidate]
  cases h : c.get? id with
  | none =>
    by_cases hid : id' = id
    · simp [hid, h]
    · simp [hid]
  | some e =>
    simp only [get?, List.find?_filter]
    by_cases hid : id' = id
    · subst hid
      simp
    · rw [if_neg hid]
      congr 1
      funext x
      by_cases hx : x.id = id'
      · simp [hx, hid]
      · simp [hx]

/-- What is fresh was found, and in a version that has not changed. -/
theorem getFresh_eq_some {c : MetadataCache} {id : DeclId} {current : Option FileVersion}
    {m : ModelMetadata} (h : (c.getFresh id current).1 = some m) :
    ∃ e version, c.get? id = some e ∧ current = some version ∧
      e.version.hasChanged version = false ∧ e.metadata = m ∧
      (c.getFresh id current).2.get? id = some e := by
  unfold getFresh at h ⊢
  cases current with
  | none => simp at h
  | some version =>
    cases hget : c.get? id with
    | none => simp [hget] at h
    | some e =>
      by_cases hc : e.version.hasChanged version = true
      · simp [hget, hc] at h
      · simp only [hget, hc] at h
        refine ⟨e, version, rfl, rfl, by simpa using hc, by simpa using h, ?_⟩
        simp only [hc]
        exact hget

/-- Asking about a declaration can only remove its own entry. -/
theorem get?_getFresh (c : MetadataCache) (id : DeclId) (current : Option FileVersion)
    (id' : DeclId) :
    (c.getFresh id current).2.get? id' = c.get? id' ∨
      id' = id ∧ (c.getFresh id current).2.get? id' = none := by
  unfold getFresh
  cases current with
  | none => exact .inl rfl
  | some version =>
    cases hget : c.get? id with
    | none => exact .inl rfl
    | some e =>
      by_cases hc : e.version.hasChanged version = true
      · have hremoved : (c.invalidate id).missed.get? id' = (c.invalidate id).get? id' := rfl
        simp only [hc, if_true, hremoved, get?_invalidate]
        by_cases hid : id' = id
        · exact .inr ⟨hid, by rw [if_pos hid]⟩
        · exact .inl (by rw [if_neg hid])
      · simp only [hc]
        exact .inl rfl

/-- Asking about a declaration leaves the others alone. -/
theorem get?_getFresh_of_ne {c : MetadataCache} {id id' : DeclId} (current : Option FileVersion)
    (h : id' ≠ id) : (c.getFresh id current).2.get? id' = c.get? id' := by
  rcases c.get?_getFresh id current id' with heq | ⟨hid, -⟩
  · exact heq
  · exact absurd hid h

end RouteAtlas.MetadataCache

namespace RouteAtlas.SymbolGraph

/-- The metadata of a model depends on what is known about its identity only. -/
theorem currentMetadata?_congr {cache cache' : MetadataCache} {m : ModelNode}
    (h : cache'.get? m.id = cache.get? m.id) :
    currentMetadata? cache' m = currentMetadata? cache m := by
  rw [currentMetadata?, currentMetadata?, h]

/-- The cache is believed about a model only while its file is unchanged. -/
theorem currentMetadata?_cases (cache : MetadataCache) (m : ModelNode) :
    currentMetadata? cache m = m.metadata ∨
      ∃ e version, cache.get? m.id = some e ∧ m.version = some version ∧
        e.version.hasChanged version = false ∧ currentMetadata? cache m = some e.metadata := by
  unfold currentMetadata?
  split
  · rename_i e version hget hversion
    by_cases hchanged : e.version.hasChanged version = true
    · exact .inl (if_pos hchanged)
    · exact .inr ⟨e, version, hget, hversion, by simpa using hchanged, if_neg hchanged⟩
  · exact .inl rfl

end RouteAtlas.SymbolGraph
