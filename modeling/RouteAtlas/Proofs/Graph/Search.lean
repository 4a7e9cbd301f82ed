import RouteAtlas.Proofs.Graph.History
import RouteAtlas.Proofs.Graph.Reach
import RouteAtlas.Proofs.Graph.Successors
import RouteAtlas.Proofs.Sorting

/-!
# The search for models

Models are searched for with a queue of nodes. A turn of the search takes a node from the queue; if
it has not been seen, it is noted when it is a model, and the nodes that its type edges lead to enter
the queue. Nodes may enter the queue again and again, so what makes the search end is not the queue:
each turn uses up a place in the queue or the edges of a node that is seen for the first time
(`Search.work_step_lt`). What it will have found in the end does not change from turn to turn
(`Search.outcome_step`), and that is what the type edges reach.
-/

set_option autoImplicit false

namespace RouteAtlas

namespace SymbolGraph

variable {g : SymbolGraph}

/-- An edge that leads from a value to its type, from a type to a model it refers to, or from a
model to a type in it. -/
inductive TypeStep (g : SymbolGraph) (i j : NodeIndex) : Prop
  | typeOf (h : ⟨i, j, .typeOf⟩ ∈ g.edges)
  | references (h : ⟨i, j, .references⟩ ∈ g.edges)
  | field (ordinal : Nat) (name : String) (h : ⟨i, j, .field ordinal name⟩ ∈ g.edges)
  | underlying (h : ⟨i, j, .underlying⟩ ∈ g.edges)

/-- A step between types is what the search takes for a successor. -/
theorem typeStep_iff {i j : NodeIndex} : g.TypeStep i j ↔ j ∈ g.typeSuccessors i := by
  rw [mem_typeSuccessors]
  constructor
  · rintro (h | h | ⟨ordinal, name, h⟩ | h)
    · exact ⟨_, g.mem_out.2 ⟨h, rfl⟩, rfl, rfl⟩
    · exact ⟨_, g.mem_out.2 ⟨h, rfl⟩, rfl, rfl⟩
    · exact ⟨_, g.mem_out.2 ⟨h, rfl⟩, rfl, rfl⟩
    · exact ⟨_, g.mem_out.2 ⟨h, rfl⟩, rfl, rfl⟩
  · rintro ⟨⟨source, target, e⟩, hout, htype, rfl⟩
    obtain ⟨h, rfl⟩ := g.mem_out.1 hout
    cases e with
    | typeOf => exact .typeOf h
    | references => exact .references h
    | field ordinal name => exact .field ordinal name h
    | underlying => exact .underlying h
    | route => cases htype
    | parameter => cases htype
    | result => cases htype

/-- Reaching a node is taking any number of such steps. -/
theorem reaches_iff {i j : NodeIndex} :
    g.Reaches i j ↔ Relation.ReflTransGen g.TypeStep i j := by
  have hsame : g.TypeStep = fun i j => j ∈ g.typeSuccessors i :=
    funext₂ fun _ _ => propext typeStep_iff
  rw [hsame, Reaches]

/-- The models among some nodes. -/
def modelsAmong (g : SymbolGraph) (nodes : List NodeIndex) : List (NodeIndex × ModelNode) :=
  nodes.filterMap fun i => ((g.node? i).bind SymbolNode.model?).map fun m => (i, m)

/-- More fuel than is enough changes nothing. -/
theorem visit_congr {fuel fuel' : Nat} {seen queue : List NodeIndex}
    (hfuel : queue.length + (g.unseenEdges seen).length ≤ fuel)
    (hfuel' : queue.length + (g.unseenEdges seen).length ≤ fuel') :
    g.visit fuel seen queue = g.visit fuel' seen queue := by
  fun_induction visit g fuel seen queue generalizing fuel' with
  | case1 seen queue =>
    obtain rfl : queue = [] := List.length_eq_zero_iff.1 (by omega)
    cases fuel' <;> rfl
  | case2 => cases fuel' <;> rfl
  | case3 fuel seen i queue hseen ih =>
    simp only [List.length_cons] at hfuel hfuel'
    obtain ⟨fuel', rfl⟩ := Nat.exists_eq_succ_of_ne_zero (by omega : fuel' ≠ 0)
    rw [visit, if_pos hseen]
    exact ih (by omega) (by omega)
  | case4 fuel seen i queue hseen ih =>
    have hedges := g.length_unseenEdges_cons (by simpa using hseen : seen.contains i = false)
    simp only [List.length_append, List.length_cons] at hfuel hfuel' ih
    obtain ⟨fuel', rfl⟩ := Nat.exists_eq_succ_of_ne_zero (by omega : fuel' ≠ 0)
    rw [visit, if_neg hseen, @ih fuel' (by omega) (by omega)]

end SymbolGraph

open SymbolGraph

/-- How far a search has come. -/
structure Search where
  seen : List NodeIndex := []
  /-- The nodes that wait for their turn. -/
  queue : List NodeIndex
  /-- The models met so far. -/
  found : List (NodeIndex × ModelNode) := []

namespace Search

/-- One turn of a search. -/
def step (g : SymbolGraph) (s : Search) : Search :=
  match s.queue with
  | [] => s
  | i :: queue =>
    if s.seen.contains i then { s with queue := queue }
    else
      { seen := i :: s.seen
        queue := queue ++ g.typeSuccessors i
        found := s.found ++ g.modelsAmong [i] }

/-- How many turns a search takes at most from where it is. -/
def work (g : SymbolGraph) (s : Search) : Nat :=
  s.queue.length + (g.unseenEdges s.seen).length

/-- What a search will have found in the end. -/
def outcome (g : SymbolGraph) (s : Search) : List (NodeIndex × ModelNode) :=
  s.found ++ g.modelsAmong (g.visit (s.work g) s.seen s.queue)

variable {g : SymbolGraph} {s : Search}

/-- A turn takes a node from the queue, and meets it if it has not been seen. -/
theorem step_cases (g : SymbolGraph) (seen : List NodeIndex) (i : NodeIndex)
    (queue : List NodeIndex) (found : List (NodeIndex × ModelNode)) :
    (seen.contains i = true ∧ step g ⟨seen, i :: queue, found⟩ = ⟨seen, queue, found⟩) ∨
      (seen.contains i = false ∧ step g ⟨seen, i :: queue, found⟩ =
        ⟨i :: seen, queue ++ g.typeSuccessors i, found ++ g.modelsAmong [i]⟩) := by
  cases hseen : seen.contains i with
  | true => exact .inl ⟨rfl, if_pos hseen⟩
  | false => exact .inr ⟨rfl, if_neg (by simp only [hseen, Bool.false_eq_true, not_false_eq_true])⟩

/-- A turn of a search that has not ended leaves less to do. -/
theorem work_step_lt (h : s.queue ≠ []) : (s.step g).work g < s.work g := by
  obtain ⟨seen, queue, found⟩ := s
  cases queue with
  | nil => exact absurd rfl h
  | cons i queue =>
    rcases step_cases g seen i queue found with ⟨-, hstep⟩ | ⟨hseen, hstep⟩
    · rw [hstep]
      simp [work]
    · have hedges := g.length_unseenEdges_cons hseen
      rw [hstep]
      simp only [work, List.length_append, List.length_cons]
      omega

/-- With enough fuel the search ends with what it has found and the models that it still visits. -/
theorem outcome_eq {fuel : Nat} (h : s.work g ≤ fuel) :
    s.outcome g = s.found ++ g.modelsAmong (g.visit fuel s.seen s.queue) := by
  rw [outcome, visit_congr (le_refl (s.work g)) h]

/-- A turn does not change what will be found in the end. -/
theorem outcome_step (g : SymbolGraph) (s : Search) : (s.step g).outcome g = s.outcome g := by
  obtain ⟨seen, queue, found⟩ := s
  cases queue with
  | nil => rfl
  | cons i queue =>
    have hless : (step g ⟨seen, i :: queue, found⟩).work g < _ :=
      work_step_lt (List.cons_ne_nil i queue)
    obtain ⟨fuel, hfuel⟩ := Nat.exists_eq_succ_of_ne_zero (Nat.ne_zero_of_lt hless)
    rw [hfuel] at hless
    rw [outcome_eq (Nat.le_of_lt_succ hless), outcome_eq hfuel.le, visit]
    rcases step_cases g seen i queue found with ⟨hseen, hstep⟩ | ⟨hseen, hstep⟩
    · rw [hstep, hseen, if_pos rfl]
    · rw [hstep, hseen, if_neg Bool.false_ne_true, List.append_assoc, modelsAmong, modelsAmong,
        modelsAmong, ← List.filterMap_append, List.singleton_append]

/-- A search ends after a bounded number of turns, and then has found what was to be found. -/
theorem exists_ended (g : SymbolGraph) (s : Search) :
    ∃ n ≤ s.work g, ((step g)^[n] s).queue = [] ∧ ((step g)^[n] s).found = s.outcome g := by
  induction hwork : s.work g using Nat.strong_induction_on generalizing s with
  | _ work ih =>
    subst hwork
    by_cases hqueue : s.queue = []
    · refine ⟨0, Nat.zero_le _, hqueue, ?_⟩
      rw [outcome, hqueue]
      cases s.work g <;> simp [visit, modelsAmong]
    · have hless := work_step_lt (g := g) hqueue
      obtain ⟨n, hn, hended, hfound⟩ := ih _ hless (s.step g) rfl
      rw [← Function.iterate_succ_apply] at hended hfound
      exact ⟨n + 1, by omega, hended, hfound.trans (outcome_step g s)⟩

/-- Only nodes of the graph wait for their turn, if it was so before. -/
theorem mem_queue_iterate (hg : g.Consistent) (hqueue : ∀ i ∈ s.queue, i < g.nextIndex) (n : Nat) :
    ∀ i ∈ ((step g)^[n] s).queue, i < g.nextIndex := by
  induction n generalizing s with
  | zero => exact hqueue
  | succ n ih =>
    rw [Function.iterate_succ_apply]
    apply ih
    obtain ⟨seen, queue, found⟩ := s
    cases queue with
    | nil => exact hqueue
    | cons i queue =>
      obtain ⟨-, hrest⟩ := List.forall_mem_cons.1 hqueue
      rcases step_cases g seen i queue found with ⟨-, hstep⟩ | ⟨-, hstep⟩
      · rw [hstep]
        exact hrest
      · rw [hstep]
        intro j hj
        rcases List.mem_append.1 hj with hj | hj
        · exact hrest j hj
        · obtain ⟨e, he, -, rfl⟩ := mem_typeSuccessors.1 hj
          exact (hg.bounded e (g.mem_out.1 he).1).2

end Search

/-- In a graph that operations have made, the models reached from some of its nodes are the model
nodes that type edges lead to in any number of steps from any of them. Each of them comes once, and
they come in the order of their identities. The search for them ends, after no more turns than there
are roots and edges together, and never comes upon a node that the graph does not have. -/
theorem Performs.reachableModels_exact {ops : List GraphOperation} {g : SymbolGraph}
    {roots : List NodeIndex} (h : Performs {} ops g) (hroots : ∀ i ∈ roots, i < g.nextIndex) :
    (∀ i m, (i, m) ∈ g.reachableModels roots ↔
        g.node? i = some (.model m) ∧
          ∃ root ∈ roots, Relation.ReflTransGen g.TypeStep root i) ∧
      ((g.reachableModels roots).map (·.1)).Nodup ∧
      ((g.reachableModels roots).Pairwise fun a b => a.2.id.le b.2.id = true) ∧
      (∀ n, ∀ i ∈ ((Search.step g)^[n] { queue := roots }).queue, i < g.nextIndex) ∧
      ∃ n ≤ roots.length + g.edges.length,
        ((Search.step g)^[n] { queue := roots }).queue = [] ∧
          g.reachableModels roots = Sorting.sorted (fun a b => a.2.id.le b.2.id)
            ((Search.step g)^[n] { queue := roots }).found := by
  have hg : g.Consistent := h.consistent consistent_empty
  refine ⟨fun i m => ?_, nodup_reachableModels roots, ?_, Search.mem_queue_iterate hg hroots, ?_⟩
  · rw [mem_reachableModels_iff, mem_reachable_iff, and_comm]
    simp only [reaches_iff]
  · exact Sorting.pairwise_sorted (fun a b c => DeclId.trans_le a.2.id b.2.id c.2.id)
      (fun a b => DeclId.total_le a.2.id b.2.id) _
  · obtain ⟨n, hn, hended, hfound⟩ := Search.exists_ended g { queue := roots }
    have hedges : (g.unseenEdges []).length ≤ g.edges.length := List.length_filter_le _ _
    have hwork : Search.work g { queue := roots } ≤ roots.length + g.edges.length + 1 := by
      unfold Search.work
      dsimp only
      omega
    refine ⟨n, ?_, hended, ?_⟩
    · unfold Search.work at hn
      dsimp only at hn
      omega
    · rw [hfound, Search.outcome_eq hwork]
      rfl

/-! ## A tangled graph -/

namespace GraphOperation

/-- The history goes on: a model has two fields of one type, this leads to a model that leads to
itself and back to the type, and only an edge to a route leads on to the last model. -/
def tangle : List GraphOperation :=
  history ++
    [.addEdge 2 0 (.field 0 "x"), .addEdge 2 0 (.field 1 "y"), .link 0 3 .references,
     .addEdge 3 3 .underlying, .addEdge 3 0 .typeOf, .addEdge 3 4 (.route 0)]

/-- The graph after the operations. -/
def afterTangle : SymbolGraph := tangle.foldl apply {}

/-- The operations of the tangle can be performed one after the other. -/
theorem performs_tangle : Performs {} tangle afterTangle := by
  have hfirst := performs_history.step (.addEdge 2 0 (.field 0 "x")) (by decide)
  have hparallel := hfirst.step (.addEdge 2 0 (.field 1 "y")) (by decide)
  have hlinked := hparallel.step (.link 0 3 .references) (by decide)
  have hloop := hlinked.step (.addEdge 3 3 .underlying) (by decide)
  have hcycle := hloop.step (.addEdge 3 0 .typeOf) (by decide)
  exact hcycle.step (.addEdge 3 4 (.route 0)) (by decide)

end GraphOperation

/-- The two nodes of one model are reached, and the other model is not. -/
theorem Performs.reachableModels_exact_tangle :
    let g := GraphOperation.afterTangle
    Performs {} GraphOperation.tangle g ∧ (∀ i ∈ [2, 2, 0], i < g.nextIndex) ∧
      (g.reachableModels [2, 2, 0]).map (·.1) = [2, 3] ∧
      (∃ root ∈ [2, 2, 0], Relation.ReflTransGen g.TypeStep root 3) ∧
      ¬∃ root ∈ [2, 2, 0], Relation.ReflTransGen g.TypeStep root 4 := by
  intro g
  have hperforms : Performs {} GraphOperation.tangle g := GraphOperation.performs_tangle
  have hroots : ∀ i ∈ [2, 2, 0], i < g.nextIndex := by decide
  have hnodes : (g.reachableModels [2, 2, 0]).map (·.1) = [2, 3] := by decide
  obtain ⟨hmem, -⟩ := reachableModels_exact hperforms hroots
  refine ⟨hperforms, hroots, hnodes, ?_, ?_⟩
  · have hthree : 3 ∈ (g.reachableModels [2, 2, 0]).map (·.1) := by simp [hnodes]
    obtain ⟨⟨i, m⟩, hfound, rfl⟩ := List.mem_map.1 hthree
    exact ((hmem _ m).1 hfound).2
  · intro hreached
    have hfour := (hmem 4 (GraphOperation.emptyModel "L")).2 ⟨rfl, hreached⟩
    have hin : 4 ∈ (g.reachableModels [2, 2, 0]).map (·.1) := List.mem_map_of_mem hfour
    simp [hnodes] at hin

end RouteAtlas
