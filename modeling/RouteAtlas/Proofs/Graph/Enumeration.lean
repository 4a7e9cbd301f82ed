import RouteAtlas.Graph.Dump
import RouteAtlas.Proofs.Graph.Children
import RouteAtlas.Proofs.Graph.History
import RouteAtlas.Proofs.Sorting
import RouteAtlas.Validation.Basic

/-!
# The order of maps is not seen

The nodes of uses of types and the entries of models are maps, and nothing is said about the order
in which a map gives its members. What is shown of a graph does not depend on it. Models are sorted
by their identities, and these differ. Uses of types are sorted by a key that may be the same for
different ones, so their order is not determined; but the outline shows nothing of a use that is not
in the key.
-/

set_option autoImplicit false

namespace RouteAtlas

namespace SymbolGraph

/-- A graph whose maps give their members in certain orders. -/
def enumerated (g : SymbolGraph) (types : List (TypeUse × NodeIndex)) (models : List ModelEntry) :
    SymbolGraph :=
  { g with types := types, models := models }

/-! ## Uses of types -/

/-- What uses of types are sorted by. -/
def typeKey (t : TypeUse) : String ×ₗ String ×ₗ String ×ₗ ℕ :=
  toLex (t.name, toLex (t.packagePath, toLex (t.symbolKind.name, importRank t.importKind)))

/-- A kind is known by its name. -/
theorem injective_kindName : Function.Injective SymbolKind.name := by
  intro a b h
  cases a <;> cases b <;> first | rfl | simp [SymbolKind.name] at h

/-- The uses of types are ordered by their keys. -/
theorem typeLe_iff (a b : TypeUse) : typeLe a b = true ↔ typeKey a ≤ typeKey b := by
  have hkind : a.symbolKind = b.symbolKind ↔ a.symbolKind.name = b.symbolKind.name :=
    injective_kindName.eq_iff.symm
  unfold typeLe typeKey
  rw [Prod.Lex.toLex_le_toLex, Prod.Lex.toLex_le_toLex, Prod.Lex.toLex_le_toLex]
  by_cases hname : a.name = b.name
  · by_cases hpath : a.packagePath = b.packagePath
    · by_cases hsame : a.symbolKind = b.symbolKind
      · simp [hname, hpath, hsame]
      · simp [hname, hpath, hsame, hkind.not.1 hsame]
    · simp [hname, hpath]
  · simp [hname]

/-- The line about a use of a type can be told from its key. -/
def lineOfKey (key : String ×ₗ String ×ₗ String ×ₗ ℕ) : String :=
  let path := (ofLex (ofLex key).2).1
  "  " ++ (ofLex key).1 ++ " [" ++ (ofLex (ofLex (ofLex key).2).2).1 ++ "]" ++
    (if path.isEmpty then "" else " @ " ++ path)

/-- The line of a use is made of its key only. -/
theorem typeLine_eq (t : TypeUse) : typeLine t = lineOfKey (typeKey t) := rfl

/-- The lines of the types come out in one order, however the map enumerates them. -/
theorem typeLines_enumerated (g : SymbolGraph) {types : List (TypeUse × NodeIndex)}
    (htypes : types.Perm g.types) (models : List ModelEntry) :
    ((g.enumerated types models).typeNodes.map fun t => typeLine t.1) =
      g.typeNodes.map fun t => typeLine t.1 := by
  have hkeys : (g.enumerated types models).typeNodes.map (fun t => typeKey t.1) =
      g.typeNodes.map fun t => typeKey t.1 :=
    Sorting.map_sorted_of_perm (fun a b => typeLe_iff a.1 b.1) htypes
  have hlines := congrArg (List.map lineOfKey) hkeys
  rw [List.map_map, List.map_map] at hlines
  simp only [typeLine_eq]
  exact hlines

/-! ## Models -/

variable {g : SymbolGraph}

/-- The entries of models with the nodes they point at, in the order of the map. -/
def listedModels (g : SymbolGraph) : List (NodeIndex × ModelNode) :=
  g.models.filterMap fun e => ((g.node? e.node).bind SymbolNode.model?).map fun m => (e.node, m)

/-- Models that are listed with one identity are listed by one entry. -/
theorem Consistent.eq_of_id_eq (h : g.Consistent) {x y : NodeIndex × ModelNode}
    (hx : x ∈ g.listedModels) (hy : y ∈ g.listedModels) (hid : x.2.id = y.2.id) : x = y := by
  have hentry : ∀ z ∈ g.listedModels, ∃ e ∈ g.models, z.1 = e.node ∧ z.2.id = e.id ∧
      g.node? e.node = some (.model z.2) := by
    intro z hz
    obtain ⟨e, he, hnode⟩ := List.mem_filterMap.1 hz
    obtain ⟨m, hm, rfl⟩ := Option.map_eq_some_iff.1 hnode
    obtain ⟨n, hn, hmodel⟩ := Option.bind_eq_some_iff.1 hm
    obtain rfl : n = .model m := SymbolNode.model?_eq_some.1 hmodel
    obtain ⟨m', hm', hid', -⟩ := h.models e he
    obtain rfl : m = m' := by simpa [hn] using hm'
    exact ⟨e, he, rfl, hid', hn⟩
  obtain ⟨e, he, hxe, hxid, hxn⟩ := hentry x hx
  obtain ⟨e', he', hye, hyid, hyn⟩ := hentry y hy
  have hsame : e = e' :=
    List.inj_on_of_nodup_map h.distinctModels he he' (by rw [← hxid, ← hyid, hid])
  subst hsame
  have hmodel : x.2 = y.2 := by simpa [hxn] using hyn
  exact Prod.ext (hxe.trans hye.symm) hmodel

/-- The models come out in one order, however the map enumerates them. -/
theorem Consistent.modelNodes_enumerated (h : g.Consistent)
    (types : List (TypeUse × NodeIndex)) {models : List ModelEntry}
    (hmodels : models.Perm g.models) :
    (g.enumerated types models).modelNodes = g.modelNodes := by
  have hlisted : ((g.enumerated types models).listedModels).Perm g.listedModels :=
    hmodels.filterMap _
  have hsame : ∀ a b : NodeIndex × ModelNode, a ∈ (g.enumerated types models).listedModels →
      b ∈ (g.enumerated types models).listedModels → a.2.id.le b.2.id = true →
      b.2.id.le a.2.id = true → a = b := by
    intro a b ha hb hab hba
    exact h.eq_of_id_eq (hlisted.mem_iff.1 ha) (hlisted.mem_iff.1 hb)
      (DeclId.antisymm_le hab hba)
  have hsorted := Sorting.sorted_congr_of_perm
    (fun a b c : NodeIndex × ModelNode => DeclId.trans_le a.2.id b.2.id c.2.id)
    (fun a b => DeclId.total_le a.2.id b.2.id) hlisted hsame
  unfold modelNodes
  exact hsorted

/-! ## What is shown -/

/-- The outline does not depend on how the maps enumerate types and models. -/
theorem Consistent.outline_enumerated (h : g.Consistent)
    {types : List (TypeUse × NodeIndex)} {models : List ModelEntry}
    (htypes : types.Perm g.types) (hmodels : models.Perm g.models) :
    (g.enumerated types models).outline = g.outline := by
  have hcontrollers : (g.enumerated types models).controllers = g.controllers := rfl
  have hlines : ∀ i c, (g.enumerated types models).controllerLines i c = g.controllerLines i c :=
    fun _ _ => rfl
  have hlength : (g.enumerated types models).types.length = g.types.length := htypes.length_eq
  unfold outline outlineLines
  rw [hcontrollers, hlength, typeLines_enumerated g htypes models,
    h.modelNodes_enumerated types hmodels]
  simp only [hlines]

/-- What is found in a graph does not depend on how the maps enumerate types and models. -/
theorem Consistent.validate_enumerated (h : g.Consistent)
    (types : List (TypeUse × NodeIndex)) {models : List ModelEntry}
    (hmodels : models.Perm g.models) : (g.enumerated types models).validate = g.validate := by
  have hcontrollers : (g.enumerated types models).controllers.map
      (Validation.controllerEntity (g.enumerated types models)) =
      g.controllers.map (Validation.controllerEntity g) := rfl
  unfold validate
  rw [hcontrollers, h.modelNodes_enumerated types hmodels]

end SymbolGraph

open SymbolGraph

/-- Whatever operations have made a graph, and in whatever orders its maps give their members, the
outline is the same text, the models are the same list, and so are the findings. -/
theorem Performs.enumeration_unseen {ops : List GraphOperation} {g : SymbolGraph}
    (h : Performs {} ops g) {types types' : List (TypeUse × NodeIndex)}
    {models models' : List ModelEntry} (htypes : types.Perm g.types)
    (htypes' : types'.Perm g.types) (hmodels : models.Perm g.models)
    (hmodels' : models'.Perm g.models) :
    (g.enumerated types models).outline = (g.enumerated types' models').outline ∧
      (g.enumerated types models).modelNodes = (g.enumerated types' models').modelNodes ∧
      (g.enumerated types models).validate = (g.enumerated types' models').validate := by
  have hg : g.Consistent := h.consistent Performs.consistent_empty
  refine ⟨?_, ?_, ?_⟩
  · rw [hg.outline_enumerated htypes hmodels, hg.outline_enumerated htypes' hmodels']
  · rw [hg.modelNodes_enumerated types hmodels, hg.modelNodes_enumerated types' hmodels']
  · rw [hg.validate_enumerated types hmodels, hg.validate_enumerated types' hmodels']

/-- The uses of types of the history tie, so their order is not determined, and yet nothing of it is
seen. -/
theorem Performs.enumeration_unseen_history :
    let g := GraphOperation.afterHistory
    Performs {} GraphOperation.history g ∧
      (g.enumerated g.types.reverse g.models.reverse).typeNodes ≠ g.typeNodes ∧
      (g.enumerated g.types.reverse g.models.reverse).outline =
        (g.enumerated g.types g.models).outline := by
  intro g
  have hperforms := GraphOperation.performs_history
  have hreordered := enumeration_unseen hperforms (List.reverse_perm g.types) (.refl _)
    (List.reverse_perm g.models) (.refl _)
  exact ⟨hperforms, by decide, hreordered.1⟩

end RouteAtlas
