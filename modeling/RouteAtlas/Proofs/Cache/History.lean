import RouteAtlas.Proofs.Cache.Lookup
import RouteAtlas.Proofs.Sorting

/-!
# The history of a cache

A cache is used in four ways: metadata is stored, an entry is looked at, metadata is asked for in
the version that was just seen, and an entry is removed. Whatever was done to a new cache, what it
answers is decided by its history (`get?_after_iff`): an identity has the metadata that was stored
for it last, unless a later use removed it. What a single use can remove is said once, in
`removes_iff`, and the counters are tied to the uses that were made (`history_decides`).
-/

set_option autoImplicit false

namespace RouteAtlas

/-- A use of a cache. -/
inductive CacheOperation where
  | put (id : DeclId) (metadata : ModelMetadata) (version : FileVersion)
  | get (id : DeclId)
  | getFresh (id : DeclId) (current : Option FileVersion)
  | invalidate (id : DeclId)

namespace CacheOperation

/-- The cache after a use. -/
def apply (op : CacheOperation) (c : MetadataCache) : MetadataCache :=
  match op with
  | .put id metadata version => c.put id metadata version
  | .get _ => c
  | .getFresh id current => (c.getFresh id current).2
  | .invalidate id => c.invalidate id

/-- A use that stores metadata. -/
def isPut : CacheOperation → Bool
  | .put .. => true
  | _ => false

/-- Whether metadata is asked for in a version. -/
def isQuestion : CacheOperation → Bool
  | .getFresh .. => true
  | _ => false

/-- A use that stores metadata for an identity. -/
def Stores (op : CacheOperation) (id : DeclId) : Prop :=
  ∃ metadata version, op = .put id metadata version

/-- The entry of an identity was there, and is not there after the use. -/
def Removes (op : CacheOperation) (c : MetadataCache) (id : DeclId) : Prop :=
  (c.get? id).isSome ∧ (op.apply c).get? id = none

/-- The identities whose entries a use removes. -/
def removed (op : CacheOperation) (c : MetadataCache) : List DeclId :=
  (c.entries.map (·.id)).filter fun id => ((op.apply c).get? id).isNone

end CacheOperation

namespace MetadataCache

open CacheOperation

/-- The cache after some uses, the first one first. -/
def after (c : MetadataCache) (ops : List CacheOperation) : MetadataCache :=
  ops.foldl (fun c op => op.apply c) c

/-- How many entries some uses remove. -/
def removals : MetadataCache → List CacheOperation → Nat
  | _, [] => 0
  | c, op :: rest => (op.removed c).length + removals (op.apply c) rest

/-- Of the uses of a new cache, the last one that stored anything for the identity stored this, and
no later one removed it. -/
def Keeps (ops : List CacheOperation) (id : DeclId) (metadata : ModelMetadata)
    (version : FileVersion) : Prop :=
  ∃ earlier later, ops = earlier ++ .put id metadata version :: later ∧
    (∀ op ∈ later, ¬ op.Stores id) ∧
    ∀ before op behind, later = before ++ op :: behind →
      ¬ op.Removes (after {} (earlier ++ .put id metadata version :: before)) id

/-- The last use comes after the others. -/
theorem after_concat (c : MetadataCache) (ops : List CacheOperation) (op : CacheOperation) :
    c.after (ops ++ [op]) = op.apply (c.after ops) := by
  rw [after, List.foldl_append]
  rfl

/-- The last use adds what it takes away to the removals. -/
theorem removals_concat (c : MetadataCache) (ops : List CacheOperation) (op : CacheOperation) :
    c.removals (ops ++ [op]) = c.removals ops + (op.removed (c.after ops)).length := by
  induction ops generalizing c with
  | nil => simp [removals, after]
  | cons first rest ih =>
    have hafter : c.after (first :: rest) = (first.apply c).after rest := rfl
    simp only [List.cons_append, removals, ih, hafter]
    omega

/-! ## Order -/

/-- The entries stand in the order of their identities, each of which has one entry at most. -/
def Ordered (c : MetadataCache) : Prop := c.entries.Pairwise fun a b => a.id.Before b.id

/-- An insertion adds no entry but the new one. -/
theorem mem_of_mem_insertEntry {e x : CacheEntry} {l : List CacheEntry} (h : x ∈ insertEntry e l) :
    x = e ∨ x ∈ l := by
  induction l with
  | nil => simpa [insertEntry] using h
  | cons y rest ih =>
    rw [insertEntry] at h
    split at h
    · rcases List.mem_cons.1 h with rfl | h
      · exact .inl rfl
      · exact .inr (List.mem_cons_of_mem y h)
    · split at h
      · rcases List.mem_cons.1 h with rfl | h
        · exact .inr (List.mem_cons_self ..)
        · exact (ih h).imp id (List.mem_cons_of_mem y)
      · exact List.mem_cons.1 h

/-- An insertion keeps entries in strict order. -/
theorem pairwise_insertEntry (e : CacheEntry) {l : List CacheEntry}
    (h : l.Pairwise fun a b => a.id.Before b.id) :
    (insertEntry e l).Pairwise fun a b => a.id.Before b.id := by
  induction l with
  | nil => simp [insertEntry]
  | cons x rest ih =>
    obtain ⟨hx, hrest⟩ := List.pairwise_cons.1 h
    rw [insertEntry]
    by_cases hid : x.id = e.id
    · rw [if_pos hid]
      refine List.pairwise_cons.2 ⟨fun y hy => ?_, hrest⟩
      exact hid ▸ hx y hy
    · rw [if_neg hid]
      by_cases hle : x.id.le e.id = true
      · rw [if_pos hle]
        refine List.pairwise_cons.2 ⟨fun y hy => ?_, ih hrest⟩
        rcases mem_of_mem_insertEntry hy with rfl | hy
        · exact ⟨hle, hid⟩
        · exact hx y hy
      · rw [if_neg hle]
        have hbefore : e.id.Before x.id :=
          ⟨(DeclId.total_le e.id x.id).resolve_right hle, Ne.symm hid⟩
        refine List.pairwise_cons.2 ⟨fun y hy => ?_, h⟩
        rcases List.mem_cons.1 hy with rfl | hy
        · exact hbefore
        · exact hbefore.trans (hx y hy)

/-- An insertion adds at most one entry. -/
theorem length_insertEntry_le (e : CacheEntry) (l : List CacheEntry) :
    (insertEntry e l).length ≤ l.length + 1 := by
  induction l with
  | nil => simp [insertEntry]
  | cons x rest ih =>
    rw [insertEntry]
    split
    · simp
    · split
      · simp only [List.length_cons]
        omega
      · simp

/-! ## What one use does -/

/-- The answer to a question is one of three: nothing is known, or what is known is out of date and
is removed, or it is still right. -/
theorem getFresh_cases (c : MetadataCache) (id : DeclId) (current : Option FileVersion) :
    (current = none ∨ c.get? id = none) ∧ c.getFresh id current = (none, c.missed) ∨
    (∃ version e, current = some version ∧ c.get? id = some e ∧
      e.version.hasChanged version = true ∧
      c.getFresh id current = (none, (c.invalidate id).missed)) ∨
    ∃ version e, current = some version ∧ c.get? id = some e ∧
      e.version.hasChanged version = false ∧
      c.getFresh id current = (some e.metadata, c.found) := by
  unfold getFresh
  cases current with
  | none => exact .inl ⟨.inl rfl, rfl⟩
  | some version =>
    cases hget : c.get? id with
    | none => exact .inl ⟨.inr rfl, rfl⟩
    | some e =>
      cases hchanged : e.version.hasChanged version with
      | true => exact .inr (.inl ⟨version, e, rfl, rfl, hchanged, by simp [hchanged]⟩)
      | false => exact .inr (.inr ⟨version, e, rfl, rfl, hchanged, by simp [hchanged]⟩)

/-- An identity without an entry is invalidated without effect. -/
theorem invalidate_of_none {c : MetadataCache} {id : DeclId} (h : c.get? id = none) :
    c.invalidate id = c := by
  rw [invalidate, h]

/-- An identity with an entry loses it, and the removal is counted. -/
theorem invalidate_of_some {c : MetadataCache} {id : DeclId} {e : CacheEntry}
    (h : c.get? id = some e) :
    c.invalidate id =
      { entries := c.entries.filter (·.id != id)
        stats := { c.stats with invalidations := c.stats.invalidations + 1 } } := by
  rw [invalidate, h]

/-- A use that leaves the entry of an identity takes nothing away. -/
theorem not_removes_of_kept {op : CacheOperation} {c : MetadataCache} (id : DeclId)
    (h : (op.apply c).get? id = c.get? id) : ¬ op.Removes c id := by
  rintro ⟨hsome, hgone⟩
  rw [← h, hgone] at hsome
  cases hsome

/-- Storing takes nothing away. -/
theorem not_removes_put (id' : DeclId) (metadata : ModelMetadata) (version : FileVersion)
    (c : MetadataCache) (id : DeclId) : ¬ (CacheOperation.put id' metadata version).Removes c id := by
  rintro ⟨hsome, hgone⟩
  rw [apply, get?_put] at hgone
  by_cases hid : id = id'
  · simp [hid] at hgone
  · rw [if_neg hid] at hgone
    simp [hgone] at hsome

/-- An invalidation takes away the entry of its identity, if there is one. -/
theorem removes_invalidate_iff (id' : DeclId) (c : MetadataCache) (id : DeclId) :
    (CacheOperation.invalidate id').Removes c id ↔ id = id' ∧ (c.get? id).isSome := by
  rw [Removes, apply, get?_invalidate]
  by_cases hid : id = id'
  · simp [hid]
  · rw [if_neg hid]
    cases c.get? id <;> simp [hid]

/-- A question takes away the entry it is about if the file has changed since. -/
theorem removes_getFresh_iff (id' : DeclId) (current : Option FileVersion) (c : MetadataCache)
    (id : DeclId) :
    (CacheOperation.getFresh id' current).Removes c id ↔ id = id' ∧
      ∃ version e, current = some version ∧ c.get? id = some e ∧
        e.version.hasChanged version = true := by
  rcases getFresh_cases c id' current with ⟨hnone, heq⟩ | ⟨version, e, rfl, hget, hchanged, heq⟩ |
    ⟨version, e, rfl, hget, hchanged, heq⟩
  · have hkept : (c.getFresh id' current).2.get? id = c.get? id := by rw [heq]; rfl
    refine iff_of_false (not_removes_of_kept id hkept) ?_
    rintro ⟨rfl, version, e, rfl, hget, -⟩
    simp [hget] at hnone
  · have hremoved : (CacheOperation.getFresh id' (some version)).Removes c id ↔
        (CacheOperation.invalidate id').Removes c id := by
      rw [Removes, Removes, apply, apply, heq]
      rfl
    rw [hremoved, removes_invalidate_iff]
    constructor
    · rintro ⟨rfl, -⟩
      exact ⟨rfl, version, e, rfl, hget, hchanged⟩
    · rintro ⟨rfl, -⟩
      exact ⟨rfl, by simp [hget]⟩
  · have hkept : (c.getFresh id' (some version)).2.get? id = c.get? id := by rw [heq]; rfl
    refine iff_of_false (not_removes_of_kept id hkept) ?_
    rintro ⟨rfl, version', e', hversion, hget', hchanged'⟩
    cases hversion
    rw [hget] at hget'
    cases hget'
    rw [hchanged] at hchanged'
    cases hchanged'

/-- An entry is removed on demand, or when it is asked for in a version that has changed, and in no
other way. -/
theorem removes_iff (op : CacheOperation) (c : MetadataCache) (id : DeclId) :
    op.Removes c id ↔
      op = .invalidate id ∧ (c.get? id).isSome ∨
      ∃ version e, op = .getFresh id (some version) ∧ c.get? id = some e ∧
        e.version.hasChanged version = true := by
  cases op with
  | put id' metadata version => simp [not_removes_put]
  | get id' =>
    have hkept : ((CacheOperation.get id').apply c).get? id = c.get? id := rfl
    simp [not_removes_of_kept id hkept]
  | invalidate id' =>
    rw [removes_invalidate_iff]
    constructor
    · rintro ⟨rfl, hsome⟩
      exact .inl ⟨rfl, hsome⟩
    · rintro (⟨hop, hsome⟩ | ⟨_, _, hop, -⟩)
      · cases hop
        exact ⟨rfl, hsome⟩
      · cases hop
  | getFresh id' current =>
    rw [removes_getFresh_iff]
    constructor
    · rintro ⟨rfl, version, e, rfl, hget, hchanged⟩
      exact .inr ⟨version, e, rfl, hget, hchanged⟩
    · rintro (⟨hop, -⟩ | ⟨version, e, hop, hget, hchanged⟩)
      · cases hop
      · cases hop
        exact ⟨rfl, version, e, rfl, hget, hchanged⟩

/-- Without storing, an entry stays as it is or goes. -/
theorem get?_apply_of_not_stores {op : CacheOperation} {id : DeclId} (c : MetadataCache)
    (h : ¬ op.Stores id) : (op.apply c).get? id = c.get? id ∨ (op.apply c).get? id = none := by
  cases op with
  | put id' metadata version =>
    have hid : id ≠ id' := by
      rintro rfl
      exact h ⟨metadata, version, rfl⟩
    left
    simp only [apply, get?_put, if_neg hid]
  | get id' => exact .inl rfl
  | getFresh id' current => exact (get?_getFresh c id' current id).imp_right And.right
  | invalidate id' =>
    simp only [apply, get?_invalidate]
    by_cases hid : id = id'
    · exact .inr (if_pos hid)
    · exact .inl (if_neg hid)

/-- What is known after a use was stored by it, or was known before and was neither replaced nor
removed. -/
theorem get?_apply_iff (op : CacheOperation) (c : MetadataCache) (id : DeclId)
    (metadata : ModelMetadata) (version : FileVersion) :
    (op.apply c).get? id = some ⟨id, metadata, version⟩ ↔
      op = .put id metadata version ∨
      c.get? id = some ⟨id, metadata, version⟩ ∧ ¬ op.Stores id ∧ ¬ op.Removes c id := by
  by_cases hstores : op.Stores id
  · obtain ⟨metadata', version', rfl⟩ := hstores
    have hnew : (CacheOperation.put id metadata' version').Stores id := ⟨_, _, rfl⟩
    simp [apply, get?_put, hnew]
  · have hput : op ≠ .put id metadata version := by
      rintro rfl
      exact hstores ⟨_, _, rfl⟩
    simp only [hput, false_or, hstores, not_false_eq_true, true_and]
    constructor
    · intro hget
      rcases get?_apply_of_not_stores c hstores with hsame | hnone
      · exact ⟨hsame ▸ hget, not_removes_of_kept id hsame⟩
      · simp [hnone] at hget
    · rintro ⟨hget, hkept⟩
      rcases get?_apply_of_not_stores c hstores with hsame | hnone
      · rw [hsame, hget]
      · exact absurd ⟨by simp [hget], hnone⟩ hkept

/-- A use that removes an entry leaves the others alone. -/
theorem get?_apply_of_removes {op : CacheOperation} {c : MetadataCache} {id other : DeclId}
    (h : op.Removes c id) (hother : other ≠ id) : (op.apply c).get? other = c.get? other := by
  rcases (removes_iff op c id).1 h with ⟨rfl, -⟩ | ⟨version, e, rfl, -, -⟩
  · simp only [apply, get?_invalidate, if_neg hother]
  · exact get?_getFresh_of_ne (some version) hother

/-- What storing an entry and removing one keep of the entries, every use keeps. -/
theorem entries_apply {P : List CacheEntry → Prop} {c : MetadataCache} (op : CacheOperation)
    (hput : ∀ id metadata version, op = .put id metadata version →
      P (insertEntry ⟨id, metadata, version⟩ c.entries))
    (hremove : ∀ id, P (c.entries.filter (·.id != id))) (h : P c.entries) :
    P (op.apply c).entries := by
  have hinvalidate : ∀ id, P (c.invalidate id).entries := by
    intro id
    cases hget : c.get? id with
    | none => rwa [invalidate_of_none hget]
    | some e =>
      rw [invalidate_of_some hget]
      exact hremove id
  cases op with
  | put id metadata version => exact hput id metadata version rfl
  | get id => exact h
  | invalidate id => exact hinvalidate id
  | getFresh id current =>
    rcases getFresh_cases c id current with ⟨-, heq⟩ | ⟨_, _, -, -, -, heq⟩ | ⟨_, _, -, -, -, heq⟩
    · simp only [CacheOperation.apply, heq]
      exact h
    · simp only [CacheOperation.apply, heq]
      exact hinvalidate id
    · simp only [CacheOperation.apply, heq]
      exact h

/-- Every use keeps the entries in order. -/
theorem Ordered.apply {c : MetadataCache} (h : c.Ordered) (op : CacheOperation) :
    (op.apply c).Ordered :=
  entries_apply op (fun _ _ _ _ => pairwise_insertEntry _ h) (fun _ => List.Pairwise.filter _ h) h

/-- No identity has two entries in a cache whose entries are in order. -/
theorem Ordered.nodup {c : MetadataCache} (h : c.Ordered) : (c.entries.map (·.id)).Nodup :=
  List.pairwise_map.2 (h.imp fun hbefore => hbefore.2)

/-- An identity has an entry if it is that of one of the entries. -/
theorem isSome_get?_iff (c : MetadataCache) (id : DeclId) :
    (c.get? id).isSome ↔ id ∈ c.entries.map (·.id) := by
  simp [get?]

/-- The identities that a use takes away are those whose entries are gone afterwards. -/
theorem mem_removed_iff (op : CacheOperation) (c : MetadataCache) (id : DeclId) :
    id ∈ op.removed c ↔ op.Removes c id := by
  rw [removed, List.mem_filter, Option.isNone_iff_eq_none, ← isSome_get?_iff]
  rfl

/-- A use that removes no entry takes away no identity. -/
theorem removed_eq_nil {op : CacheOperation} {c : MetadataCache} (h : ∀ id, ¬ op.Removes c id) :
    op.removed c = [] := by
  rw [List.eq_nil_iff_forall_not_mem]
  intro id hid
  exact h id ((mem_removed_iff op c id).1 hid)

/-- A use removes one entry at most. -/
theorem removed_eq_singleton {op : CacheOperation} {c : MetadataCache} {id : DeclId}
    (hc : c.Ordered) (h : op.Removes c id) : op.removed c = [id] := by
  have hall : ∀ other ∈ op.removed c, other = id := by
    intro other hmem
    by_contra hother
    have hgone := (mem_removed_iff op c other).1 hmem
    have hsame := get?_apply_of_removes h hother
    rw [CacheOperation.Removes, hsame] at hgone
    simp [hgone.2] at hgone
  have hnodup : (op.removed c).Nodup := hc.nodup.filter _
  have hmem : id ∈ op.removed c := (mem_removed_iff op c id).2 h
  cases hremoved : op.removed c with
  | nil => simp [hremoved] at hmem
  | cons first rest =>
    rw [hremoved] at hall hnodup
    have hfirst : first = id := hall first (List.mem_cons_self ..)
    have hrest : rest = [] := by
      rw [List.eq_nil_iff_forall_not_mem]
      intro other hother
      have heq := hall other (List.mem_cons_of_mem first hother)
      exact (List.nodup_cons.1 hnodup).1 (by rwa [hfirst, ← heq])
    rw [hfirst, hrest]

/-! ## What every use counts -/

/-- Invalidating an identity with an entry makes the cache smaller. -/
theorem size_invalidate_lt {c : MetadataCache} {id : DeclId} (h : (c.get? id).isSome) :
    (c.invalidate id).size + 1 ≤ c.size := by
  obtain ⟨e, hget⟩ := Option.isSome_iff_exists.1 h
  rw [invalidate_of_some hget]
  have hmem : e ∈ c.entries := List.mem_of_find?_eq_some hget
  have hid : e.id = id := id_of_get? hget
  have hlt : (c.entries.filter (·.id != id)).length < c.entries.length :=
    List.length_filter_lt_length_iff_exists.2 ⟨e, hmem, by simp [hid]⟩
  show (c.entries.filter (·.id != id)).length + 1 ≤ c.entries.length
  omega

/-- What the counters and the size of a cache gain by one use. -/
structure Accounted (op : CacheOperation) (c : MetadataCache) : Prop where
  asked : (op.apply c).stats.hits + (op.apply c).stats.misses =
    c.stats.hits + c.stats.misses + (if op.isQuestion then 1 else 0)
  removed : (op.apply c).stats.invalidations = c.stats.invalidations + (op.removed c).length
  bounded : (op.apply c).size + (op.removed c).length ≤ c.size + (if op.isPut then 1 else 0)

/-- A use that leaves the entries is accounted for if the counters are. -/
theorem accounted_of_entries_eq {op : CacheOperation} {c : MetadataCache}
    (hentries : (op.apply c).entries = c.entries)
    (hasked : (op.apply c).stats.hits + (op.apply c).stats.misses =
      c.stats.hits + c.stats.misses + (if op.isQuestion then 1 else 0))
    (hsame : (op.apply c).stats.invalidations = c.stats.invalidations) : Accounted op c := by
  have hkept : ∀ id, (op.apply c).get? id = c.get? id := by
    intro id
    rw [get?, get?, hentries]
  have hnil := removed_eq_nil fun id => not_removes_of_kept id (hkept id)
  refine ⟨hasked, ?_, ?_⟩
  · rw [hnil]
    exact hsame
  · rw [hnil, size, hentries]
    exact Nat.le_add_right _ _

/-- An invalidation is accounted for. -/
theorem accounted_invalidate {c : MetadataCache} (hc : c.Ordered) (id : DeclId) :
    Accounted (.invalidate id) c := by
  cases hget : c.get? id with
  | none =>
    have heq : (CacheOperation.invalidate id).apply c = c := invalidate_of_none hget
    apply accounted_of_entries_eq <;> rw [heq]
    rfl
  | some e =>
    have hsome : (c.get? id).isSome := by rw [hget]; rfl
    have hremoves : (CacheOperation.invalidate id).Removes c id :=
      (removes_invalidate_iff id c id).2 ⟨rfl, hsome⟩
    have hone := removed_eq_singleton hc hremoves
    have hsize := size_invalidate_lt hsome
    have heq := invalidate_of_some hget
    refine ⟨?_, ?_, ?_⟩
    · simp only [CacheOperation.apply, heq]
      rfl
    · simp only [hone, CacheOperation.apply, heq]
      rfl
    · rw [hone]
      exact hsize

/-- A question about the current version is accounted for. -/
theorem accounted_getFresh {c : MetadataCache} (hc : c.Ordered) (id : DeclId)
    (current : Option FileVersion) : Accounted (.getFresh id current) c := by
  rcases getFresh_cases c id current with ⟨hnone, heq⟩ | ⟨version, e, rfl, hget, hchanged, heq⟩ |
    ⟨version, e, rfl, hget, hchanged, heq⟩
  · have happly : (CacheOperation.getFresh id current).apply c = c.missed := by
      rw [CacheOperation.apply, heq]
    apply accounted_of_entries_eq <;> rw [happly] <;> rfl
  · have happly : (CacheOperation.getFresh id (some version)).apply c =
        (c.invalidate id).missed := by
      rw [CacheOperation.apply, heq]
    have hsome : (c.get? id).isSome := by rw [hget]; rfl
    have hremoves : (CacheOperation.getFresh id (some version)).Removes c id :=
      (removes_getFresh_iff id _ c id).2 ⟨rfl, version, e, rfl, hget, hchanged⟩
    have hone := removed_eq_singleton hc hremoves
    have hsize := size_invalidate_lt hsome
    have hinvalidate := invalidate_of_some hget
    refine ⟨?_, ?_, ?_⟩
    · rw [happly, hinvalidate]
      rfl
    · rw [hone, happly, hinvalidate]
      rfl
    · rw [hone, happly]
      exact hsize
  · have happly : (CacheOperation.getFresh id (some version)).apply c = c.found := by
      rw [CacheOperation.apply, heq]
    apply accounted_of_entries_eq <;> rw [happly]
    · rfl
    · show c.stats.hits + 1 + c.stats.misses = c.stats.hits + c.stats.misses + 1
      omega
    · rfl

/-- Every use of a cache whose entries are in order is accounted for. -/
theorem accounted (op : CacheOperation) {c : MetadataCache} (hc : c.Ordered) : Accounted op c := by
  cases op with
  | put id metadata version =>
    have hnil : (CacheOperation.put id metadata version).removed c = [] :=
      removed_eq_nil fun other => not_removes_put id metadata version c other
    refine ⟨rfl, ?_, ?_⟩
    · rw [hnil]
      rfl
    · rw [hnil]
      exact length_insertEntry_le _ _
  | get id => exact accounted_of_entries_eq rfl rfl rfl
  | getFresh id current => exact accounted_getFresh hc id current
  | invalidate id => exact accounted_invalidate hc id

/-! ## Histories -/

/-- The entries are in order after any uses. -/
theorem ordered_after {c : MetadataCache} (h : c.Ordered) (ops : List CacheOperation) :
    (c.after ops).Ordered := by
  induction ops using List.reverseRecOn with
  | nil => exact h
  | append_singleton ops op ih =>
    rw [after_concat]
    exact ih.apply op

/-- After one more use an entry is what that use stored, or what was kept before and neither stored
again nor taken away. -/
theorem keeps_concat (ops : List CacheOperation) (op : CacheOperation) (id : DeclId)
    (metadata : ModelMetadata) (version : FileVersion) :
    Keeps (ops ++ [op]) id metadata version ↔
      op = .put id metadata version ∨
      Keeps ops id metadata version ∧ ¬ op.Stores id ∧ ¬ op.Removes (after {} ops) id := by
  constructor
  · rintro ⟨earlier, later, heq, hstores, hremoves⟩
    rcases List.eq_nil_or_concat later with rfl | ⟨later', last, rfl⟩
    · left
      exact (List.append_inj' heq rfl).2 |> List.singleton_inj.1
    · right
      rw [List.concat_eq_append] at heq hstores hremoves
      have hsplit : ops = earlier ++ .put id metadata version :: later' ∧ op = last := by
        rw [← List.cons_append, ← List.append_assoc] at heq
        obtain ⟨hops, hlast⟩ := List.append_inj' heq rfl
        exact ⟨hops, List.singleton_inj.1 hlast⟩
      obtain ⟨rfl, rfl⟩ := hsplit
      refine ⟨⟨earlier, later', rfl, ?_, ?_⟩, ?_, ?_⟩
      · intro use huse
        exact hstores use (List.mem_append_left _ huse)
      · intro before use behind hlater
        apply hremoves before use (behind ++ [op])
        rw [hlater, List.append_assoc, List.cons_append]
      · exact hstores op (by simp)
      · exact hremoves later' op [] rfl
  · rintro (rfl | ⟨⟨earlier, later, rfl, hstores, hremoves⟩, hstore, hremove⟩)
    · exact ⟨ops, [], rfl, by simp, by simp⟩
    · refine ⟨earlier, later ++ [op], by simp, ?_, ?_⟩
      · intro use huse
        rcases List.mem_append.1 huse with huse | huse
        · exact hstores use huse
        · rwa [List.mem_singleton.1 huse]
      · intro before use behind hlater
        rcases List.eq_nil_or_concat behind with rfl | ⟨behind', last, rfl⟩
        · obtain ⟨rfl, huse⟩ := List.append_inj' hlater rfl
          rwa [← List.singleton_inj.1 huse]
        · rw [List.concat_eq_append, ← List.cons_append, ← List.append_assoc] at hlater
          exact hremoves before use behind' (List.append_inj' hlater rfl).1

/-- What is known about an identity is what its history keeps. -/
theorem get?_after_iff (ops : List CacheOperation) (id : DeclId) (metadata : ModelMetadata)
    (version : FileVersion) :
    (after {} ops).get? id = some ⟨id, metadata, version⟩ ↔ Keeps ops id metadata version := by
  induction ops using List.reverseRecOn with
  | nil =>
    constructor
    · intro hget
      simp [after, get?] at hget
    · rintro ⟨earlier, later, heq, -⟩
      simp at heq
  | append_singleton ops op ih => rw [after_concat, get?_apply_iff, keeps_concat, ih]

/-- An entry is what the uses keep for its identity. -/
theorem exists_keeps_of_get? {ops : List CacheOperation} {id : DeclId} {e : CacheEntry}
    (h : (after {} ops).get? id = some e) : Keeps ops id e.metadata e.version := by
  apply (get?_after_iff ops id e.metadata e.version).1
  rw [h, ← id_of_get? h]

/-- A file has not changed if its path and its hash are the same. -/
theorem hasChanged_eq_false_iff (old current : FileVersion) :
    old.hasChanged current = false ↔
      old.path.same current.path = true ∧ old.hash = current.hash := by
  simp [FileVersion.hasChanged]

/-- A file has changed if its path or its hash has. -/
theorem hasChanged_iff (old current : FileVersion) :
    old.hasChanged current = true ↔
      old.path.same current.path = false ∨ old.hash ≠ current.hash := by
  simp [FileVersion.hasChanged]

/-- Metadata is given exactly if it was stored last, was not removed since, and its file has the
same path and the same hash, whatever the times. -/
theorem getFresh_after_iff (ops : List CacheOperation) (id : DeclId) (version : FileVersion)
    (metadata : ModelMetadata) :
    ((after {} ops).getFresh id (some version)).1 = some metadata ↔
      ∃ stored, Keeps ops id metadata stored ∧
        stored.path.same version.path = true ∧ stored.hash = version.hash := by
  constructor
  · intro hfresh
    obtain ⟨e, version', hget, hversion, hchanged, rfl, -⟩ := getFresh_eq_some hfresh
    cases hversion
    exact ⟨e.version, exists_keeps_of_get? hget, (hasChanged_eq_false_iff _ _).1 hchanged⟩
  · rintro ⟨stored, hkeeps, hsame⟩
    have hget := (get?_after_iff ops id metadata stored).2 hkeeps
    have hchanged := (hasChanged_eq_false_iff stored version).2 hsame
    simp [getFresh, hget, hchanged]

/-- After some uses, an entry is taken away by an invalidation or by a question with another version
than the stored one. -/
theorem removes_after_iff (ops : List CacheOperation) (op : CacheOperation) (id : DeclId) :
    op.Removes (after {} ops) id ↔
      op = .invalidate id ∧ (∃ metadata stored, Keeps ops id metadata stored) ∨
      ∃ version metadata stored, op = .getFresh id (some version) ∧
        Keeps ops id metadata stored ∧
        (stored.path.same version.path = false ∨ stored.hash ≠ version.hash) := by
  rw [removes_iff]
  constructor
  · rintro (⟨hop, hsome⟩ | ⟨version, e, hop, hget, hchanged⟩)
    · obtain ⟨e, hget⟩ := Option.isSome_iff_exists.1 hsome
      exact .inl ⟨hop, e.metadata, e.version, exists_keeps_of_get? hget⟩
    · exact .inr ⟨version, e.metadata, e.version, hop, exists_keeps_of_get? hget,
        (hasChanged_iff _ _).1 hchanged⟩
  · rintro (⟨hop, metadata, stored, hkeeps⟩ | ⟨version, metadata, stored, hop, hkeeps, hchanged⟩)
    · have hget := (get?_after_iff ops id metadata stored).2 hkeeps
      exact .inl ⟨hop, by rw [hget]; rfl⟩
    · have hget := (get?_after_iff ops id metadata stored).2 hkeeps
      exact .inr ⟨version, _, hop, hget, (hasChanged_iff _ _).2 hchanged⟩

/-- Hits and misses add up to the questions, invalidations to the removals, and what is left and
what was removed do not exceed what was stored. -/
theorem counters_after (ops : List CacheOperation) :
    (after {} ops).stats.hits + (after {} ops).stats.misses = ops.countP isQuestion ∧
    (after {} ops).stats.invalidations = removals {} ops ∧
    (after {} ops).size + (after {} ops).stats.invalidations ≤ ops.countP isPut := by
  induction ops using List.reverseRecOn with
  | nil => exact ⟨rfl, rfl, Nat.le_refl 0⟩
  | append_singleton ops op ih =>
    obtain ⟨hasked, hremoved, hbounded⟩ := ih
    have hnew : (MetadataCache.mk [] {}).Ordered := .nil
    have hcount := accounted op (ordered_after hnew ops)
    have hasks := hcount.asked
    have hremoves := hcount.removed
    have hbounds := hcount.bounded
    rw [after_concat, removals_concat, List.countP_append, List.countP_append,
      List.countP_singleton, List.countP_singleton]
    refine ⟨?_, ?_, ?_⟩ <;> omega

/-- The answers of a new cache and its counters are decided by how it was used. Metadata is given
exactly if it was stored last, was not removed since, and its file has the same path and hash; an
entry is removed exactly if that is demanded or if it is asked for in a version of another path or
hash, and all other entries then stay; looking at an entry, or asking for one without a version,
changes none. Every question is a hit or a miss, each entry that is removed is counted, and only
what was stored can be there or have been removed. -/
theorem history_decides (ops : List CacheOperation) :
    (∀ (id : DeclId) (version : FileVersion) (metadata : ModelMetadata),
      ((after {} ops).getFresh id (some version)).1 = some metadata ↔
        ∃ stored, Keeps ops id metadata stored ∧
          stored.path.same version.path = true ∧ stored.hash = version.hash) ∧
    (∀ (op : CacheOperation) (id : DeclId), op.Removes (after {} ops) id ↔
      op = .invalidate id ∧ (∃ metadata stored, Keeps ops id metadata stored) ∨
      ∃ (version : FileVersion) (metadata : ModelMetadata) (stored : FileVersion),
        op = .getFresh id (some version) ∧ Keeps ops id metadata stored ∧
        (stored.path.same version.path = false ∨ stored.hash ≠ version.hash)) ∧
    (∀ (op : CacheOperation) (id : DeclId), op.Removes (after {} ops) id →
      ∀ other, other ≠ id → (op.apply (after {} ops)).get? other = (after {} ops).get? other) ∧
    (∀ id, (after {} (ops ++ [.get id])).entries = (after {} ops).entries ∧
      (after {} (ops ++ [.getFresh id none])).entries = (after {} ops).entries) ∧
    (after {} ops).stats.hits + (after {} ops).stats.misses = ops.countP isQuestion ∧
    (after {} ops).stats.invalidations = removals {} ops ∧
    (after {} ops).size + (after {} ops).stats.invalidations ≤ ops.countP isPut := by
  refine ⟨getFresh_after_iff ops, removes_after_iff ops, ?_, ?_, counters_after ops⟩
  · intro op id hremoves other hother
    exact get?_apply_of_removes hremoves hother
  · intro id
    rw [after_concat, after_concat]
    exact ⟨rfl, rfl⟩

end MetadataCache

end RouteAtlas
