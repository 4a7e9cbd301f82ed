import RouteAtlas.Proofs.Graph.History

/-!
# Which models have been begun

Every beginning of a model leaves a node, and no node is ever removed. So the nodes of a graph tell
which models have been begun and in which order, those begun twice included
(`Performs.beginnings_eq`). Whatever a build does to its graph keeps the entries of models and
begins only models without one (`Notes`), and then no model is begun twice.
-/

set_option autoImplicit false

namespace RouteAtlas

/-- The model that an operation begins. -/
def GraphOperation.begins : GraphOperation → List DeclId
  | .beginModel m => [m.id]
  | _ => []

namespace SymbolGraph

/-- The models that have been begun, in the order of their beginnings. -/
def beginnings (g : SymbolGraph) : List DeclId := g.nodes.filterMap fun n => n.model?.map (·.id)

/-- How many of some models may still be begun. -/
def room (ids : Finset DeclId) (g : SymbolGraph) : Nat :=
  (ids.filter fun id => g.modelEntry? id = none).card

/-- No model has been begun twice, and each one that has been begun has an entry. -/
structure BegunOnce (g : SymbolGraph) : Prop where
  nodup : g.beginnings.Nodup
  noted : ∀ id ∈ g.beginnings, (g.modelEntry? id).isSome = true

/-- What becomes of a graph: models with an entry keep one, and none is begun a second time. -/
structure Notes (g g' : SymbolGraph) : Prop where
  entry : ∀ id, (g.modelEntry? id).isSome = true → (g'.modelEntry? id).isSome = true
  once : g.BegunOnce → g'.BegunOnce

variable {g g' g'' : SymbolGraph}

/-! ## Operations -/

/-- A new node begins the expansion of a model if it is one. -/
theorem beginnings_addNode (g : SymbolGraph) (n : SymbolNode) :
    (g.addNode n).beginnings = g.beginnings ++ (n.model?.map (·.id)).toList := by
  rw [beginnings, addNode, List.filterMap_append, ← beginnings]
  cases n <;> rfl

/-- Replacing a member by one that is read alike changes nothing about what is read. -/
theorem filterMap_set {α β : Type} (f : α → Option β) {l : List α} {i : Nat} {a b : α}
    (ha : l[i]? = some a) (hab : f b = f a) : (l.set i b).filterMap f = l.filterMap f := by
  induction l generalizing i with
  | nil => rfl
  | cons x rest ih =>
    cases i with
    | zero =>
      obtain rfl : x = a := by simpa using ha
      simp only [List.set_cons_zero, List.filterMap_cons, hab]
    | succ i => simp only [List.set_cons_succ, List.filterMap_cons, ih ha]

/-- Completing a model does not change which model its node stands for. -/
theorem beginnings_completeModel (g : SymbolGraph) (i : NodeIndex) (metadata : ModelMetadata) :
    (g.completeModel i metadata).beginnings = g.beginnings := by
  unfold completeModel
  split
  · rename_i m hm
    exact filterMap_set _ hm rfl
  · rfl

/-- Giving up on a model begins none. -/
theorem beginnings_failModel (g : SymbolGraph) (id : DeclId) :
    (g.failModel id).beginnings = g.beginnings := by
  obtain ⟨models, heq⟩ := g.failModel_eq id
  rw [heq]
  rfl

/-- Linking two nodes begins no model. -/
theorem beginnings_link (g : SymbolGraph) (i j : NodeIndex) (e : SymbolEdge) :
    (g.link i j e).beginnings = g.beginnings := by
  unfold link
  split <;> rfl

/-- Looking up the node of a type begins no model. -/
theorem beginnings_internType (g : SymbolGraph) (t : TypeUse) :
    (g.internType t).1.beginnings = g.beginnings := by
  unfold internType
  split
  · rfl
  · exact (beginnings_addNode g (.type t)).trans (List.append_nil _)

/-- An operation adds what it begins to what has been begun. -/
theorem beginnings_apply (op : GraphOperation) (g : SymbolGraph) :
    (op.apply g).beginnings = g.beginnings ++ op.begins := by
  cases op with
  | beginModel m => exact beginnings_addNode g (.model m)
  | internType t => exact (beginnings_internType g t).trans (List.append_nil _).symm
  | link i j e => exact (beginnings_link g i j e).trans (List.append_nil _).symm
  | addEdge i j e => exact (List.append_nil _).symm
  | completeModel i metadata =>
    exact (beginnings_completeModel g i metadata).trans (List.append_nil _).symm
  | failModel id => exact (beginnings_failModel g id).trans (List.append_nil _).symm
  | addController c => exact beginnings_addNode g (.controller c)
  | addRoute controller ordinal r => exact beginnings_addNode g (.route r)
  | addParameter route p => exact beginnings_addNode g (.parameter p)
  | addReturn route r => exact beginnings_addNode g (.result r)

/-- Setting an entry keeps those of the other models. -/
theorem isSome_setEntry (e : ModelEntry) {id : DeclId} (h : (g.modelEntry? id).isSome = true) :
    ((setEntry e g.models).find? (·.id == id)).isSome = true := by
  rw [find?_setEntry]
  split
  · rfl
  · exact h

/-- Models with an entry keep one, whatever the operation. -/
theorem isSome_apply (op : GraphOperation) {id : DeclId} (h : (g.modelEntry? id).isSome = true) :
    (SymbolGraph.modelEntry? (op.apply g) id).isSome = true := by
  cases op with
  | internType t =>
    show (SymbolGraph.modelEntry? (g.internType t).1 id).isSome = true
    unfold internType
    split <;> exact h
  | link i j e =>
    show (SymbolGraph.modelEntry? (g.link i j e) id).isSome = true
    unfold link
    split <;> exact h
  | beginModel m => exact isSome_setEntry _ h
  | completeModel i metadata =>
    show (SymbolGraph.modelEntry? (g.completeModel i metadata) id).isSome = true
    unfold completeModel
    split
    · exact isSome_setEntry _ h
    · exact h
  | failModel id' =>
    show (SymbolGraph.modelEntry? (g.failModel id') id).isSome = true
    unfold failModel
    split
    · exact isSome_setEntry _ h
    · exact h
  | _ => exact h

end SymbolGraph

/-- From the empty graph, the models that have been begun are those that the operations began, in
their order. -/
theorem Performs.beginnings_eq {ops : List GraphOperation} {g : SymbolGraph}
    (h : Performs {} ops g) : g.beginnings = ops.flatMap GraphOperation.begins := by
  induction h with
  | none => rfl
  | step _ op _ ih =>
    rw [SymbolGraph.beginnings_apply, ih, List.flatMap_append, List.flatMap_singleton]

namespace SymbolGraph

variable {g g' g'' : SymbolGraph}

/-! ## What becomes of a graph -/

/-- What has begun stays begun. -/
theorem room_le {ids : Finset DeclId}
    (h : ∀ id, (g.modelEntry? id).isSome = true → (g'.modelEntry? id).isSome = true) :
    g'.room ids ≤ g.room ids := by
  refine Finset.card_le_card fun id hid => ?_
  rw [Finset.mem_filter, ← Option.not_isSome_iff_eq_none] at hid ⊢
  exact ⟨hid.1, fun hsome => hid.2 (h id hsome)⟩

/-- Each model that begins is one less to come. -/
theorem room_beginModel_lt {ids : Finset DeclId} {m : ModelNode} (hm : m.id ∈ ids)
    (hnew : g.modelEntry? m.id = none) : (g.beginModel m).1.room ids < g.room ids := by
  refine Finset.card_lt_card (Finset.ssubset_iff_of_subset ?_ |>.2 ⟨m.id, ?_, ?_⟩)
  · intro id hid
    rw [Finset.mem_filter, modelEntry?_beginModel] at hid
    rw [Finset.mem_filter]
    by_cases hne : id = m.id
    · simp [hne] at hid
    · rw [if_neg hne] at hid
      exact hid
  · exact Finset.mem_filter.2 ⟨hm, hnew⟩
  · simp [modelEntry?_beginModel]

namespace Notes

/-- A graph that stays as it is keeps its entries. -/
theorem refl (g : SymbolGraph) : Notes g g := ⟨fun _ h => h, fun h => h⟩

/-- What holds from one graph to the next and from there on holds from the first to the last. -/
theorem trans (h : Notes g g') (h' : Notes g' g'') : Notes g g'' :=
  ⟨fun id hid => h'.entry id (h.entry id hid), fun hg => h'.once (h.once hg)⟩

/-- A change that begins nothing and takes no entry away. -/
theorem of_beginnings_eq (hlog : g'.beginnings = g.beginnings)
    (hentry : ∀ id, (g.modelEntry? id).isSome = true → (g'.modelEntry? id).isSome = true) :
    Notes g g' where
  entry := hentry
  once := fun hg =>
    ⟨hlog ▸ hg.nodup, fun id hid => hentry id (hg.noted id (hlog ▸ hid))⟩

/-- An operation that begins nothing. -/
theorem apply (op : GraphOperation) (hop : op.begins = []) : Notes g (op.apply g) := by
  refine of_beginnings_eq ?_ fun id => isSome_apply op
  rw [beginnings_apply, hop, List.append_nil]

/-- A model without an entry may be begun. -/
theorem beginModel {m : ModelNode} (hnew : g.modelEntry? m.id = none) :
    Notes g (g.beginModel m).1 where
  entry := fun id => isSome_apply (.beginModel m)
  once := by
    intro hg
    have hlog : (g.beginModel m).1.beginnings = g.beginnings ++ [m.id] :=
      beginnings_apply (.beginModel m) g
    refine ⟨?_, fun id hid => ?_⟩
    · rw [hlog]
      refine hg.nodup.append (List.nodup_singleton _) (List.disjoint_singleton.2 fun hid => ?_)
      have hentry := hg.noted _ hid
      rw [hnew] at hentry
      cases hentry
    · rw [modelEntry?_beginModel]
      rw [hlog] at hid
      split
      · rfl
      · rename_i hne
        exact hg.noted id ((List.mem_append.1 hid).resolve_right (by simpa using hne))

/-- Changes of a graph one after the other. -/
theorem foldl {α : Type} {f : SymbolGraph → α → SymbolGraph} {l : List α}
    (h : ∀ a ∈ l, ∀ g, Notes g (f g a)) (g : SymbolGraph) : Notes g (l.foldl f g) := by
  induction l generalizing g with
  | nil => exact refl g
  | cons a l ih =>
    exact (h a List.mem_cons_self g).trans (ih (fun b hb => h b (List.mem_cons_of_mem a hb)) _)

/-- Attaching the use of a type begins no model. -/
theorem attach (g : SymbolGraph) (i : NodeIndex) (edge : SymbolEdge) (t : TypeUse) :
    Notes g (g.attach i edge t) := by
  have hintern : Notes g (g.internType t).1 := apply (.internType t) rfl
  have hedge : Notes (g.internType t).1 ((g.internType t).1.addEdge i (g.internType t).2 edge) :=
    apply (.addEdge _ _ _) rfl
  refine (hintern.trans hedge).trans (foldl (fun id _ g => ?_) _)
  unfold linkModel
  split
  · split
    · exact refl g
    · exact apply (.link _ _ _) rfl
  · exact refl g

/-- Finishing a model begins none. -/
theorem finishModel (g : SymbolGraph) (i : NodeIndex) (metadata : ModelMetadata) :
    Notes g (g.finishModel i metadata) :=
  (foldl (fun u _ g => attach g i u.1 u.2) g).trans (apply (.completeModel i metadata) rfl)

/-- A node that is no model may be added under another one. -/
theorem hang (g : SymbolGraph) {n : SymbolNode} (hn : n.model? = none) (i : NodeIndex)
    (e : SymbolEdge) : Notes g ((g.addNode n).addEdge i g.nextIndex e) := by
  refine of_beginnings_eq ((beginnings_addNode g n).trans ?_) fun id h => h
  rw [hn]
  exact List.append_nil _

/-- Adding a route begins no model. -/
theorem withRoute (g : SymbolGraph) (i : NodeIndex) (ordinal : Nat) (parts : RouteParts) :
    Notes g (g.withRoute i ordinal parts) := by
  refine (hang g rfl i _).trans (foldl (fun v hv g => ?_) _)
  have hvalue : v.1.2.model? = none := by
    rcases List.mem_append.1 hv with hv | hv
    · obtain ⟨p, -, rfl⟩ := List.mem_map.1 hv
      rfl
    · obtain ⟨r, -, rfl⟩ := List.mem_map.1 hv
      rfl
  exact (hang g hvalue _ _).trans (attach _ _ _ _)

end Notes

/-- In the empty graph no model has been begun. -/
theorem begunOnce_empty : BegunOnce {} where
  nodup := List.nodup_nil
  noted := by simp [beginnings]

end SymbolGraph

end RouteAtlas
