import RouteAtlas.Command.Run
import RouteAtlas.Proofs.Cache.History
import RouteAtlas.Proofs.Files.Written
import RouteAtlas.Proofs.Metadata.RoundTrip

/-!
# Caches in files

A cache that was saved is loaded again with the same entries (`load_of_saves`), and what is written
about it depends on the entries alone, in the order of their identities (`Ordered.render_eq`).
Both hold of the caches that can come about (`Reachable`): their entries are in order, and the times
in them fit into a word.
-/

set_option autoImplicit false

namespace RouteAtlas.MetadataCache

/-! ## Caches that can come about -/

/-- A cache that can come about: a new one, one that was loaded from a file, or one of these after a
use of it. A time is a word. -/
inductive Reachable : MetadataCache → Prop where
  | new : Reachable {}
  | load (t : FileTree) (path : PathName) : Reachable (MetadataCache.load t path)
  | use {c : MetadataCache} (h : Reachable c) (op : CacheOperation)
    (hop : ∀ id metadata version, op = .put id metadata version →
      version.modified < UInt64.size) : Reachable (op.apply c)

/-- The times in the entries fit into a word. -/
def Timed (c : MetadataCache) : Prop := ∀ e ∈ c.entries, e.version.modified < UInt64.size

/-- A use keeps times within a word if the time it stores is. -/
theorem Timed.apply {c : MetadataCache} (h : c.Timed) {op : CacheOperation}
    (hop : ∀ id metadata version, op = .put id metadata version →
      version.modified < UInt64.size) : (op.apply c).Timed := by
  apply entries_apply (P := fun entries => ∀ e ∈ entries, e.version.modified < UInt64.size) op
  · intro id metadata version heq e he
    rcases mem_of_mem_insertEntry he with rfl | he
    · exact hop id metadata version heq
    · exact h e he
  · exact fun id e he => h e (List.mem_of_mem_filter he)
  · exact h

/-- The cache of some entries is in order, whatever their order. -/
theorem ordered_ofEntries (entries : List CacheEntry) : (ofEntries entries).Ordered := by
  have hfold : ∀ acc : List CacheEntry, acc.Pairwise (fun a b => a.id.Before b.id) →
      (entries.foldl (fun acc e => insertEntry e acc) acc).Pairwise
        fun a b => a.id.Before b.id := by
    induction entries with
    | nil => exact fun acc h => h
    | cons e entries ih => exact fun acc h => ih _ (pairwise_insertEntry e h)
  exact hfold [] .nil

/-- The cache of some entries holds no others. -/
theorem mem_of_mem_ofEntries {entries : List CacheEntry} {e : CacheEntry}
    (h : e ∈ (ofEntries entries).entries) : e ∈ entries := by
  have hfold : ∀ acc : List CacheEntry,
      e ∈ entries.foldl (fun acc e => insertEntry e acc) acc → e ∈ acc ∨ e ∈ entries := by
    clear h
    induction entries with
    | nil => exact fun acc h => .inl h
    | cons first entries ih =>
      intro acc h
      rcases ih _ h with h | h
      · rcases mem_of_mem_insertEntry h with rfl | h
        · exact .inr (List.mem_cons_self ..)
        · exact .inl h
      · exact .inr (List.mem_cons_of_mem first h)
  simpa using hfold [] h

/-- A decoded time fits into a word. -/
theorem modified_lt_of_ofJson? {j : Json} {e : CacheEntry} (h : CacheEntry.ofJson? j = some e) :
    e.version.modified < UInt64.size := by
  simp only [CacheEntry.ofJson?, Option.bind_eq_bind, Option.bind_eq_some_iff,
    Option.some.injEq] at h
  obtain ⟨r, -, id, -, metadata, -, version, hversion, rfl⟩ := h
  obtain ⟨j', -, hdecoded⟩ := Option.bind_eq_some_iff.1 hversion
  simp only [FileVersion.ofJson?, Option.bind_eq_bind, Option.bind_eq_some_iff,
    Option.some.injEq] at hdecoded
  obtain ⟨r', -, path, -, modified, hmodified, hash, -, rfl⟩ := hdecoded
  obtain ⟨time, -, htime⟩ := Option.bind_eq_some_iff.1 hmodified
  unfold Json.word? at htime
  split at htime
  · split at htime
    · cases htime
      assumption
    · cases htime
  · cases htime

/-- What is loaded from a file is the cache of some entries with times within a word. -/
theorem exists_ofEntries_of_load (t : FileTree) (path : PathName) :
    ∃ entries, load t path = ofEntries entries ∧
      ∀ e ∈ entries, e.version.modified < UInt64.size := by
  have hempty : ∃ entries, ({} : MetadataCache) = ofEntries entries ∧
      ∀ e ∈ entries, e.version.modified < UInt64.size := ⟨[], rfl, by simp⟩
  unfold load
  split
  · rename_i text _
    unfold ofText
    split
    · exact hempty
    · rename_i j _
      cases hlist : Json.list? CacheEntry.ofJson? j with
      | none => exact hempty
      | some entries =>
        refine ⟨entries, rfl, fun e he => ?_⟩
        obtain ⟨j', hj'⟩ := Json.exists_of_mem_list? hlist he
        exact modified_lt_of_ofJson? hj'
  · exact hempty

/-- The entries of a cache that can come about are in order. -/
theorem Reachable.ordered {c : MetadataCache} (h : c.Reachable) : c.Ordered := by
  induction h with
  | new => exact .nil
  | load t path =>
    obtain ⟨entries, heq, -⟩ := exists_ofEntries_of_load t path
    rw [heq]
    exact ordered_ofEntries entries
  | use h op hop ih => exact ih.apply op

/-- The times in a cache that can come about are within a word. -/
theorem Reachable.timed {c : MetadataCache} (h : c.Reachable) : c.Timed := by
  induction h with
  | new => simp [Timed]
  | load t path =>
    obtain ⟨entries, heq, htimes⟩ := exists_ofEntries_of_load t path
    rw [heq]
    exact fun e he => htimes e (mem_of_mem_ofEntries he)
  | use h op hop ih => exact ih.apply hop

/-- A cache that can come about stays one after uses that store times within a word. -/
theorem Reachable.after {c : MetadataCache} (h : c.Reachable) {ops : List CacheOperation}
    (hops : ∀ op ∈ ops, ∀ id metadata version, op = .put id metadata version →
      version.modified < UInt64.size) : (c.after ops).Reachable := by
  induction ops generalizing c with
  | nil => exact h
  | cons op ops ih =>
    have hop := h.use op (hops op (List.mem_cons_self ..))
    exact ih hop fun op' hop' => hops op' (List.mem_cons_of_mem op hop')

/-! ## The entries are what the cache maps to -/

/-- In a cache whose entries are in order the entries are what is found for their identities. -/
theorem Ordered.mem_iff {c : MetadataCache} (h : c.Ordered) (e : CacheEntry) :
    e ∈ c.entries ↔ c.get? e.id = some e := by
  constructor
  · intro he
    cases hget : c.get? e.id with
    | none =>
      have hother := List.find?_eq_none.1 hget e he
      simp at hother
    | some e' =>
      have hsame : e'.id = e.id := id_of_get? hget
      have hmem : e' ∈ c.entries := List.mem_of_find?_eq_some hget
      rw [List.inj_on_of_nodup_map h.nodup hmem he hsame]
  · exact List.mem_of_find?_eq_some

/-- Some entries are those of a cache, each once, in any order. -/
structure Enumerates (c : MetadataCache) (entries : List CacheEntry) : Prop where
  mem_iff : ∀ e, e ∈ entries ↔ c.get? e.id = some e
  nodup : entries.Nodup

/-- The entries of a cache are found by sorting them, in whatever order they come. -/
theorem Ordered.sorted_eq {c : MetadataCache} (h : c.Ordered) {entries : List CacheEntry}
    (hentries : c.Enumerates entries) :
    Sorting.sorted (fun a b => a.id.le b.id) entries = c.entries := by
  have hnodup : c.entries.Nodup := List.Nodup.of_map _ h.nodup
  have hperm : entries.Perm c.entries := by
    rw [List.perm_ext_iff_of_nodup hentries.nodup hnodup]
    intro e
    rw [hentries.mem_iff, h.mem_iff]
  have hstrict : c.entries.Pairwise fun a b => a.id.le b.id = true ∧ b.id.le a.id = false := by
    apply h.imp
    intro a b hbefore
    refine ⟨hbefore.1, ?_⟩
    rw [Bool.eq_false_iff]
    exact fun hle => hbefore.2 (DeclId.antisymm_le hbefore.1 hle)
  have htrans : ∀ a b c : CacheEntry,
      a.id.le b.id = true → b.id.le c.id = true → a.id.le c.id = true :=
    fun a b c => DeclId.trans_le a.id b.id c.id
  have htotal : ∀ a b : CacheEntry, a.id.le b.id = true ∨ b.id.le a.id = true :=
    fun a b => DeclId.total_le a.id b.id
  exact Sorting.sorted_eq_of_perm htrans htotal hperm hstrict

/-- The entries in their order enumerate every cache that answers alike. -/
theorem Ordered.enumerates {c c' : MetadataCache} (h : c.Ordered)
    (hsame : ∀ id, c'.get? id = c.get? id) : c'.Enumerates c.entries := by
  refine ⟨fun e => ?_, List.Nodup.of_map _ h.nodup⟩
  rw [hsame, h.mem_iff]

/-- The text of some entries, which are put in the order of their identities. -/
def textOf (entries : List CacheEntry) : String :=
  (Json.array ((Sorting.sorted (fun a b => a.id.le b.id) entries).map CacheEntry.toJson)).pretty

/-- The text of a cache is that of any enumeration of it. -/
theorem Ordered.render_eq {c : MetadataCache} (h : c.Ordered) {entries : List CacheEntry}
    (hentries : c.Enumerates entries) : c.render = textOf entries := by
  rw [render, textOf, h.sorted_eq hentries]

/-- Two caches that map to the same have the same text, whatever was done to either of them. -/
theorem Ordered.render_congr {c c' : MetadataCache} (h : c.Ordered) (h' : c'.Ordered)
    (hsame : ∀ id, c'.get? id = c.get? id) : c'.render = c.render := by
  rw [h'.render_eq (h.enumerates hsame), h.render_eq (h.enumerates fun _ => rfl)]

/-! ## Writing and reading the entries -/

/-- An entry behind all others is put at the end. -/
theorem insertEntry_of_before {e : CacheEntry} {l : List CacheEntry}
    (h : ∀ x ∈ l, x.id.Before e.id) : insertEntry e l = l ++ [e] := by
  induction l with
  | nil => rfl
  | cons x l ih =>
    have hx := h x (List.mem_cons_self ..)
    rw [insertEntry, if_neg hx.2, if_pos hx.1, ih fun y hy => h y (List.mem_cons_of_mem x hy)]
    rfl

/-- Entries that are in order stay as they are when they are put into a cache one by one. -/
theorem ofEntries_of_pairwise {entries : List CacheEntry}
    (h : entries.Pairwise fun a b => a.id.Before b.id) :
    ofEntries entries = { entries := entries } := by
  have hfold : ∀ acc : List CacheEntry, (acc ++ entries).Pairwise (fun a b => a.id.Before b.id) →
      entries.foldl (fun acc e => insertEntry e acc) acc = acc ++ entries := by
    clear h
    induction entries with
    | nil => simp
    | cons e entries ih =>
      intro acc h
      have hbefore : ∀ x ∈ acc, x.id.Before e.id := by
        intro x hx
        exact (List.pairwise_append.1 h).2.2 x hx e (List.mem_cons_self ..)
      rw [List.foldl_cons, insertEntry_of_before hbefore, ih _ (by simpa using h)]
      simp
  rw [ofEntries, hfold [] h, List.nil_append]

/-- The entries can be read back from a text: none of them is nested too deep. -/
def Shallow (c : MetadataCache) : Prop := ∀ e ∈ c.entries, e.toJson.nesting < Json.maxDepth

/-- A list is nested one level deeper than its members at most. -/
theorem nesting_array_le {items : List Json} {depth : Nat} (h : ∀ j ∈ items, j.nesting < depth)
    (hdepth : 0 < depth) : (Json.array items).nesting ≤ depth := by
  rw [Json.nesting]
  induction items with
  | nil =>
    rw [Json.nestingList]
    omega
  | cons j items ih =>
    have hj := h j (List.mem_cons_self ..)
    have hrest := ih fun x hx => h x (List.mem_cons_of_mem j hx)
    rw [Json.nestingList]
    omega

/-- A cache is read back from its text, its counters aside. -/
theorem ofText_render {c : MetadataCache} (hordered : c.Ordered) (htimed : c.Timed)
    (hshallow : c.Shallow) : ofText c.render = { entries := c.entries } := by
  have hwhole : (Json.array (c.entries.map CacheEntry.toJson)).Whole := by
    rw [Json.whole_array_iff]
    intro j hj
    obtain ⟨e, he, rfl⟩ := List.mem_map.1 hj
    exact CacheEntry.whole_toJson (htimed e he)
  have hnesting : (Json.array (c.entries.map CacheEntry.toJson)).nesting ≤ Json.maxDepth := by
    apply nesting_array_le _ (by decide)
    intro j hj
    obtain ⟨e, he, rfl⟩ := List.mem_map.1 hj
    exact hshallow e he
  have hlist : Json.list? CacheEntry.ofJson? (.array (c.entries.map CacheEntry.toJson)) =
      some c.entries :=
    Json.list?_map fun e he => CacheEntry.ofJson?_toJson (htimed e he)
  have hread : Json.read c.render = .ok (.array (c.entries.map CacheEntry.toJson)) :=
    Json.read_pretty hwhole hnesting
  rw [ofText, hread]
  dsimp only
  rw [hlist, Option.map_some, Option.getD_some, ofEntries_of_pairwise hordered]

/-! ## Saving and loading -/

/-- The cache can be saved in the file at a path, and saving it leads to this tree. -/
def Saves (c : MetadataCache) (t : FileTree) (path : PathName) (t' : FileTree) : Prop :=
  ∃ below, t.makeDirectories (path.parent?.getD ⟨""⟩) = .ok below ∧
    below.putFile path c.render.toUTF8 0 = .ok t'

/-- Saving leads to the tree that is said. -/
theorem Saves.save_eq {c : MetadataCache} {t t' : FileTree} {path : PathName}
    (h : c.Saves t path t') : c.save t path = t' := by
  obtain ⟨below, hmade, hput⟩ := h
  rw [save, hmade]
  dsimp only
  rw [hput]

/-- What was saved is the text in the file. -/
theorem Saves.textAt {c : MetadataCache} {t t' : FileTree} {path : PathName}
    (h : c.Saves t path t') : t'.textAt path = .ok c.render := by
  obtain ⟨below, -, hput⟩ := h
  exact FileTree.textAt_of_putFile hput

/-- Saving a cache where its text stands already keeps the text. -/
theorem textAt_save {c : MetadataCache} {t : FileTree} {path : PathName}
    (h : t.textAt path = .ok c.render) : (c.save t path).textAt path = .ok c.render := by
  unfold save
  split
  · exact h
  · rename_i below hmade
    split
    · exact FileTree.textAt_makeDirectories hmade h
    · rename_i t' hput
      exact FileTree.textAt_of_putFile hput

/-- What a saved cache is loaded as: the same entries, and counters that start again. -/
theorem load_of_saves {c : MetadataCache} (hc : c.Reachable) (hshallow : c.Shallow)
    {t t' : FileTree} {path : PathName} (hsaves : c.Saves t path t') :
    load t' path = { entries := c.entries } := by
  rw [load, hsaves.textAt]
  exact ofText_render hc.ordered hc.timed hshallow

/-- A saved cache is loaded with the same entries and with counters that start again; its text lists
the entries strictly in the order of their identities and depends on nothing else, neither on what
was done to the cache nor on an order in which the entries are gone through; and saving the loaded
cache writes that text again. -/
theorem saved_restored {c : MetadataCache} (hc : c.Reachable) (hshallow : c.Shallow)
    {t t' : FileTree} {path : PathName} (hsaves : c.Saves t path t') :
    c.save t path = t' ∧ t'.textAt path = .ok c.render ∧
    (∀ id, (load t' path).get? id = c.get? id) ∧ (load t' path).stats = {} ∧
    (∃ entries, c.Enumerates entries ∧ entries.Pairwise (fun a b => a.id.Before b.id) ∧
      c.render = (Json.array (entries.map CacheEntry.toJson)).pretty) ∧
    (∀ entries, c.Enumerates entries → c.render = textOf entries) ∧
    (∀ c' : MetadataCache, c'.Reachable → (∀ id, c'.get? id = c.get? id) → c'.render = c.render) ∧
    (load t' path).render = c.render ∧
    ((load t' path).save t' path).textAt path = .ok c.render := by
  have hload := load_of_saves hc hshallow hsaves
  have htext := hsaves.textAt
  rw [hload]
  refine ⟨hsaves.save_eq, htext, fun _ => rfl, rfl, ?_, fun entries => hc.ordered.render_eq,
    fun c' hc' => hc.ordered.render_congr hc'.ordered, rfl, textAt_save htext⟩
  exact ⟨c.entries, hc.ordered.enumerates fun _ => rfl, hc.ordered, rfl⟩

/-- An array of maps from texts to pointers. -/
def shelves : TypeUse :=
  (TypeUse.bare "Shelf" .struct false).within
    [.array "4", .map (TypeUse.bare "string" .builtin true), .pointer]

/-- Two entries are stored, the later one first, and one is asked for. -/
def shelfUses : List CacheOperation :=
  [.put ⟨"shop/store", "Store"⟩
      (.synonym ⟨⟨"shop/store", "Store"⟩, "All shelves.", false, false, shelves⟩)
      ⟨⟨"store/store.go"⟩, 7, "a1"⟩,
   .put ⟨"shop/models", "Shelf"⟩
      (.struct ⟨⟨"shop/models", "Shelf"⟩, "", true,
        [⟨"Label", "label", TypeUse.bare "string" .builtin true, "Ü \"quoted\"", some "required",
          false, false⟩]⟩)
      ⟨⟨"models/shelf.go"⟩, 18446744073709551615, "b2"⟩,
   .getFresh ⟨"shop/models", "Shelf"⟩ none]

/-- A cache with two models is saved, loaded and saved again. -/
theorem saved_restored_shelves :
    (after {} shelfUses).Reachable ∧ (after {} shelfUses).Shallow ∧
    ∃ t', (after {} shelfUses).Saves (.ofWorkDir ["work"]) ⟨"cache/models.json"⟩ t' ∧
      (∀ id, (load t' ⟨"cache/models.json"⟩).get? id = (after {} shelfUses).get? id) ∧
      ((load t' ⟨"cache/models.json"⟩).save t' ⟨"cache/models.json"⟩).textAt
        ⟨"cache/models.json"⟩ = .ok (after {} shelfUses).render := by
  have hc : (after {} shelfUses).Reachable := by
    apply Reachable.new.after
    intro op hop id metadata version heq
    subst heq
    simp only [shelfUses, List.mem_cons, CacheOperation.put.injEq, reduceCtorEq, or_false,
      List.not_mem_nil] at hop
    rcases hop with ⟨-, -, rfl⟩ | ⟨-, -, rfl⟩ <;> decide
  have hshallow : (after {} shelfUses).Shallow := by
    unfold Shallow
    decide +kernel
  obtain ⟨t', hsaves⟩ :
      ∃ t', (after {} shelfUses).Saves (.ofWorkDir ["work"]) ⟨"cache/models.json"⟩ t' :=
    ⟨_, _, rfl, rfl⟩
  obtain ⟨-, -, hsame, -, -, -, -, -, hagain⟩ := saved_restored hc hshallow hsaves
  exact ⟨hc, hshallow, t', hsaves, hsame, hagain⟩

end RouteAtlas.MetadataCache
