import RouteAtlas.Proofs.Graph.Children

/-!
# What can be reached

The search along type edges meets every node that can be reached, and meets it once. What makes it
complete is that it never runs out of fuel: a step takes a node from the queue, and the edges of a
node enter the queue when it is met for the first time and never again.
-/

set_option autoImplicit false

namespace RouteAtlas.SymbolGraph

variable {g : SymbolGraph}

/-- A node can be reached from another over type edges. -/
def Reaches (g : SymbolGraph) : NodeIndex → NodeIndex → Prop :=
  Relation.ReflTransGen fun i j => j ∈ g.typeSuccessors i

/-- What is visited can be reached from the queue. -/
theorem reaches_of_mem_visit {fuel : Nat} {seen queue : List NodeIndex} {j : NodeIndex}
    (h : j ∈ g.visit fuel seen queue) : ∃ i ∈ queue, g.Reaches i j := by
  fun_induction visit g fuel seen queue with
  | case1 => simp at h
  | case2 => simp at h
  | case3 fuel seen i queue hseen ih =>
    obtain ⟨k, hk, hreach⟩ := ih h
    exact ⟨k, by simp [hk], hreach⟩
  | case4 fuel seen i queue hseen ih =>
    rcases List.mem_cons.1 h with rfl | h
    · exact ⟨j, by simp, .refl⟩
    · obtain ⟨k, hk, hreach⟩ := ih h
      rcases List.mem_append.1 hk with hk | hk
      · exact ⟨k, by simp [hk], hreach⟩
      · exact ⟨i, by simp, .head hk hreach⟩

/-- What has been seen is not visited again. -/
theorem not_mem_seen_of_mem_visit {fuel : Nat} {seen queue : List NodeIndex} {j : NodeIndex}
    (h : j ∈ g.visit fuel seen queue) : j ∉ seen := by
  fun_induction visit g fuel seen queue with
  | case1 => simp at h
  | case2 => simp at h
  | case3 fuel seen i queue hseen ih => exact ih h
  | case4 fuel seen i queue hseen ih =>
    rcases List.mem_cons.1 h with rfl | h
    · simpa using hseen
    · exact fun hj => ih h (by simp [hj])

/-- Nothing is visited twice. -/
theorem nodup_visit (fuel : Nat) (seen queue : List NodeIndex) :
    (g.visit fuel seen queue).Nodup := by
  fun_induction visit g fuel seen queue with
  | case1 => exact .nil
  | case2 => exact .nil
  | case3 fuel seen i queue hseen ih => exact ih
  | case4 fuel seen i queue hseen ih =>
    exact List.nodup_cons.2 ⟨fun h => not_mem_seen_of_mem_visit h (by simp), ih⟩

/-- The edges of the nodes that have not been seen. -/
def unseenEdges (g : SymbolGraph) (seen : List NodeIndex) : List GraphEdge :=
  g.edges.filter fun e => !seen.contains e.source

/-- The edges of a node that is met for the first time have not been seen before, and will not be
seen again. -/
theorem length_unseenEdges_cons {seen : List NodeIndex} {i : NodeIndex}
    (hi : seen.contains i = false) :
    (g.typeSuccessors i).length + (g.unseenEdges (i :: seen)).length ≤
      (g.unseenEdges seen).length := by
  have hsuccessors : (g.typeSuccessors i).length ≤ (g.edges.filter (·.source == i)).length := by
    rw [typeSuccessors, outgoing, List.length_map]
    exact Nat.le_trans (List.length_filter_le _ _) (by simp)
  refine Nat.le_trans (Nat.add_le_add_right hsuccessors _) ?_
  simp only [unseenEdges, List.contains_cons]
  induction g.edges with
  | nil => simp
  | cons e rest ih =>
    by_cases he : e.source = i
    · simp only [List.filter_cons, he, beq_self_eq_true, Bool.true_or,
        Bool.not_true, Bool.false_eq_true, if_true, if_false, hi, Bool.not_false,
        List.length_cons]
      omega
    · simp only [List.filter_cons, beq_false_of_ne he, Bool.false_or,
        Bool.false_eq_true, if_false]
      split
      · simp only [List.length_cons]
        omega
      · exact ih

/-- With enough fuel, everything in the queue is met, and so is everything that an edge leads to
from what is met, unless it was seen before. -/
theorem visit_closed {fuel : Nat} {seen queue : List NodeIndex}
    (hfuel : queue.length + (g.unseenEdges seen).length ≤ fuel) :
    (∀ i ∈ queue, i ∈ seen ∨ i ∈ g.visit fuel seen queue) ∧
      ∀ i ∈ g.visit fuel seen queue, ∀ j ∈ g.typeSuccessors i,
        j ∈ seen ∨ j ∈ g.visit fuel seen queue := by
  fun_induction visit g fuel seen queue with
  | case1 seen queue =>
    obtain rfl : queue = [] := List.length_eq_zero_iff.1 (by omega)
    simp
  | case2 => simp
  | case3 fuel seen i queue hseen ih =>
    simp only [List.length_cons] at hfuel
    obtain ⟨hqueue, hclosed⟩ := ih (by omega)
    refine ⟨fun k hk => ?_, hclosed⟩
    rcases List.mem_cons.1 hk with rfl | hk
    · exact .inl (by simpa using hseen)
    · exact hqueue k hk
  | case4 fuel seen i queue hseen ih =>
    have hedges := g.length_unseenEdges_cons (by simpa using hseen : seen.contains i = false)
    simp only [List.length_cons] at hfuel
    obtain ⟨hqueue, hclosed⟩ := ih (by rw [List.length_append]; omega)
    -- What counts as seen from now on is `i` or was seen before.
    have hcons : ∀ k, k ∈ i :: seen ∨ k ∈ g.visit fuel (i :: seen) (queue ++ g.typeSuccessors i) →
        k ∈ seen ∨ k ∈ i :: g.visit fuel (i :: seen) (queue ++ g.typeSuccessors i) := by
      intro k hk
      simp only [List.mem_cons] at hk ⊢
      tauto
    refine ⟨fun k hk => ?_, fun k hk j hj => ?_⟩
    · rcases List.mem_cons.1 hk with rfl | hk
      · exact .inr (by simp)
      · exact hcons k (hqueue k (List.mem_append_left _ hk))
    · rcases List.mem_cons.1 hk with rfl | hk
      · exact hcons j (hqueue j (List.mem_append_right _ hj))
      · exact hcons j (hclosed k hk j hj)

/-- The search meets what can be reached, and nothing else. -/
theorem mem_reachable_iff {roots : List NodeIndex} {j : NodeIndex} :
    j ∈ g.reachable roots ↔ ∃ i ∈ roots, g.Reaches i j := by
  refine ⟨reaches_of_mem_visit, ?_⟩
  have hfuel : roots.length + (g.unseenEdges []).length ≤ roots.length + g.edges.length + 1 := by
    have hle : (g.unseenEdges []).length ≤ g.edges.length := List.length_filter_le _ _
    omega
  obtain ⟨hroots, hclosed⟩ := visit_closed hfuel
  rintro ⟨i, hi, hreach⟩
  induction hreach with
  | refl => exact (hroots i hi).resolve_left (by simp)
  | tail _ hstep ih => exact (hclosed _ ih _ hstep).resolve_left (by simp)

/-- Nothing is reached twice. -/
theorem nodup_reachable (roots : List NodeIndex) : (g.reachable roots).Nodup :=
  nodup_visit _ _ _

/-- The models that are reached are the models among what is reached. -/
theorem mem_reachableModels_iff {roots : List NodeIndex} {i : NodeIndex} {m : ModelNode} :
    (i, m) ∈ g.reachableModels roots ↔ i ∈ g.reachable roots ∧ g.node? i = some (.model m) := by
  simp only [reachableModels, Sorting.mem_sorted, List.mem_filterMap, Option.map_eq_some_iff,
    Option.bind_eq_some_iff, Prod.mk.injEq]
  constructor
  · rintro ⟨k, hk, m', ⟨n, hn, hm⟩, rfl, rfl⟩
    exact ⟨hk, hn.trans (congrArg some (SymbolNode.model?_eq_some.1 hm))⟩
  · rintro ⟨hi, hn⟩
    exact ⟨i, hi, m, ⟨_, hn, rfl⟩, rfl, rfl⟩

/-- No model is reached twice. -/
theorem nodup_reachableModels (roots : List NodeIndex) :
    ((g.reachableModels roots).map (·.1)).Nodup := by
  have hperm := (Sorting.perm_sorted (fun a b : NodeIndex × ModelNode => a.2.id.le b.2.id)
    ((g.reachable roots).filterMap fun i =>
      ((g.node? i).bind SymbolNode.model?).map fun m => (i, m))).map (·.1)
  rw [reachableModels, hperm.nodup_iff, List.map_filterMap]
  refine List.Nodup.filterMap ?_ (nodup_reachable roots)
  intro i j k hi hj
  simp only [Option.mem_def, Option.map_map, Option.map_eq_some_iff, Function.comp] at hi hj
  obtain ⟨_, -, rfl⟩ := hi
  obtain ⟨_, -, rfl⟩ := hj
  rfl

end RouteAtlas.SymbolGraph
