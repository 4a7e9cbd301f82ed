import RouteAtlas.Proofs.Build.Invariant

/-!
# Expansions keep what holds

The three things an expansion does to the state of a build, beginning a model, finishing it and
giving it up, keep the state sound. From this the same follows for whole expansions, by induction
on how deep they may nest (`keeps_expandModel`).
-/

set_option autoImplicit false

namespace RouteAtlas.Regime

open Build Expansion BuildState SymbolGraph

variable {source : PackageSource Id} {R : Regime source} {config : Config} {d : ResolvedDecl}
  {s s' s'' : BuildState}

/-! ## The beginning -/

/-- What the cache tells about a declaration without a model in the graph was left there. -/
theorem Sound.usable (h : R.Sound config s) (hnew : s.graph.modelEntry? d.id = none) :
    R.Usable d (cachedFor d s) := by
  intro m hm
  obtain ⟨e, version, hget, hversion, hfresh, hmetadata, -⟩ := MetadataCache.getFresh_eq_some hm
  rcases h.cached d.id e hget with hleft | ⟨hentry, -⟩
  · exact ⟨e, version, hleft, MetadataCache.id_of_get? hget, hmetadata, hversion, hfresh⟩
  · simp [hnew] at hentry

/-- A model in the graph is another one than a declaration without an entry. -/
theorem Sound.id_ne (h : R.Sound config s) (hnew : s.graph.modelEntry? d.id = none)
    {i : NodeIndex} {m : ModelNode} (hi : s.graph.node? i = some (.model m)) : m.id ≠ d.id := by
  intro hid
  have hindex := h.shape.models i m hi
  rw [hid, modelIndex?, hnew] at hindex
  cases hindex

/-- A state stays sound when an expansion begins. -/
theorem Sound.begun (h : R.Sound config s) (hd : R.Known d)
    (hnew : s.graph.modelEntry? d.id = none) : R.Sound config (begun d s) where
  shape := h.shape.beginModel hnew rfl ⟨d, hd, rfl, fun _ hm => by cases hm⟩
  current := by
    intro i m hi hm
    have hold : s.graph.node? i = some (.model m) := by
      have hi' : (s.graph.beginModel d.modelNode).1.node? i = some (.model m) := hi
      rw [node?_beginModel] at hi'
      by_cases hin : i = s.graph.nextIndex
      · rw [if_pos hin] at hi'
        obtain rfl : d.modelNode = m := by simpa using hi'
        simp [ResolvedDecl.modelNode] at hm
      · rwa [if_neg hin] at hi'
    rw [← h.current i m hold hm]
    exact currentMetadata?_congr (MetadataCache.get?_getFresh_of_ne _ (h.id_ne hnew hold))
  cached := by
    intro id e he
    have hget : s.cache.get? id = some e := by
      rcases s.cache.get?_getFresh d.id d.file.version id with heq | ⟨-, hnone⟩
      · exact heq.symm.trans he
      · exact absurd (hnone.symm.trans he) (by simp)
    rcases h.cached id e hget with hleft | ⟨hentry, hproduced⟩
    · exact .inl hleft
    · refine .inr ⟨?_, hproduced⟩
      show (SymbolGraph.modelEntry? (s.graph.beginModel d.modelNode).1 id).isSome = true
      rw [modelEntry?_beginModel]
      split
      · rfl
      · exact hentry

/-- Beginning a model notes it as in progress at a new place and changes no other entry. -/
theorem modelEntry?_begun (d : ResolvedDecl) (s : BuildState) (id : DeclId) :
    (begun d s).graph.modelEntry? id =
      if id = d.id then some ⟨d.id, s.graph.nextIndex, .inProgress⟩ else s.graph.modelEntry? id :=
  modelEntry?_beginModel s.graph d.modelNode id

/-- What an expansion has done to a state by its end, if it has only finished or given up its own
model since the visits. -/
theorem advances_of_begun (hnew : s.graph.modelEntry? d.id = none)
    (h : Advances (begun d s) s')
    (hnode : ∀ k n, k ≠ s.graph.nextIndex → s'.graph.node? k = some n →
      s''.graph.node? k = some n)
    (hcontrollers : s''.graph.controllerNodes = s'.graph.controllerNodes)
    (hentry : ∀ id, id ≠ d.id → s''.graph.modelEntry? id = s'.graph.modelEntry? id)
    (hdone : ∀ e, s''.graph.modelEntry? d.id = some e → e.state ≠ .inProgress)
    (hcache : ∀ id, id ≠ d.id → s''.cache.get? id = s'.cache.get? id) : Advances s s'' := by
  have hne : ∀ {id : DeclId} {e : ModelEntry}, s.graph.modelEntry? id = some e → id ≠ d.id := by
    rintro id e he rfl
    simp [hnew] at he
  have hbegun : ∀ {id : DeclId}, id ≠ d.id →
      (begun d s).graph.modelEntry? id = s.graph.modelEntry? id := by
    intro id hid
    rw [modelEntry?_begun, if_neg hid]
  refine ⟨?_, ?_, ?_, ?_, ?_⟩
  · intro k n hk
    have hkn := Nat.ne_of_lt (lt_nextIndex hk)
    refine hnode k n hkn (h.node k n ?_)
    show (s.graph.beginModel d.modelNode).1.node? k = some n
    rwa [node?_beginModel, if_neg hkn]
  · intro i hi
    rw [hcontrollers]
    exact h.controllers i hi
  · intro id e he
    rw [hentry id (hne he)]
    exact h.entry id e ((hbegun (hne he)).trans he)
  · intro id e he hstate
    have hid : id ≠ d.id := by
      rintro rfl
      exact hdone e he hstate
    rw [hentry id hid] at he
    rw [← hbegun hid]
    exact h.progress id e he hstate
  · intro id e he
    have hid := hne he
    rw [hcache id hid, h.cache id e ((hbegun hid).trans he)]
    exact MetadataCache.get?_getFresh_of_ne _ hid

/-- What visits a state in which a model was begun visits the state before, if the place of the
model alone changes further. -/
theorem visits_of_begun (hnew : s.graph.modelEntry? d.id = none) (h : Visits (begun d s) s')
    (hadv : Advances s s'') (hkept : Extends (· = s.graph.nextIndex) s'.graph s''.graph)
    (hnext : s'.graph.nextIndex ≤ s''.graph.nextIndex)
    (hcontrollers : s''.graph.controllerNodes = s'.graph.controllerNodes) : Visits s s'' := by
  have hbegin : s.graph.nextIndex ≤ (begun d s).graph.nextIndex := by
    have hnode := nextIndex_addNode s.graph (.model d.modelNode)
    exact Nat.le_of_lt (Nat.lt_of_succ_le (Nat.le_of_eq hnode.symm))
  have hfirst : Extends (fun _ => False) s.graph (begun d s).graph := extends_beginModel hnew
  have hvisited := hfirst.trans h.kept hbegin
  refine ⟨hadv, (hvisited.trans hkept (Nat.le_trans hbegin h.next)).mono ?_,
    Nat.le_trans hbegin (Nat.le_trans h.next hnext), hcontrollers.trans h.noController⟩
  -- Only the node of the model itself gets edges, and it was not there.
  rintro k hk (hf | rfl)
  · simp at hf
  · exact Nat.lt_irrefl _ hk

/-! ## The end -/

/-- Giving up a model keeps a state sound. -/
theorem Sound.givenUp (h : R.Sound config s) {i : NodeIndex}
    (hentry : s.graph.modelEntry? d.id = some ⟨d.id, i, .inProgress⟩) :
    R.Sound config (givenUp d s) := by
  obtain ⟨models, heq⟩ := s.graph.failModel_eq d.id
  refine ⟨h.shape.failModel hentry (by simp), ?_, ?_⟩
  · intro k m hk hm
    have hk' : (s.graph.failModel d.id).node? k = some (.model m) := hk
    rw [heq] at hk'
    exact h.current k m hk' hm
  · intro id e he
    rcases h.cached id e he with hleft | ⟨hsome, hproduced⟩
    · exact .inl hleft
    · refine .inr ⟨?_, hproduced⟩
      show (SymbolGraph.modelEntry? (s.graph.failModel d.id) id).isSome = true
      rw [modelEntry?_failModel _ hentry]
      split
      · rfl
      · exact hsome

/-- Storing the metadata of a model leaves the entries of the others. -/
theorem get?_stored_of_ne (cached : Option ModelMetadata) (metadata : ModelMetadata)
    (cache : MetadataCache) {id : DeclId} (hid : id ≠ d.id) :
    (stored d cached metadata cache).get? id = cache.get? id := by
  unfold stored
  split
  · rfl
  · cases d.file.version with
    | none => rfl
    | some version => rw [MetadataCache.get?_put, if_neg hid]

/-- What the cache holds about a declaration after its metadata has been stored. -/
theorem get?_stored {cached : Option ModelMetadata} {metadata : ModelMetadata}
    {cache : MetadataCache} {e : CacheEntry}
    (he : (stored d cached metadata cache).get? d.id = some e) :
    cache.get? d.id = some e ∧ (cached = some metadata ∨ d.file.version = none) ∨
      ∃ version, d.file.version = some version ∧ e = ⟨d.id, metadata, version⟩ := by
  unfold stored at he
  split at he
  · rename_i hc
    exact .inl ⟨he, .inl hc⟩
  · cases hv : d.file.version with
    | none =>
      rw [hv] at he
      exact .inl ⟨he, .inr rfl⟩
    | some version =>
      rw [hv] at he
      simp only [MetadataCache.get?_put, if_true, Option.some.injEq] at he
      exact .inr ⟨version, rfl, he.symm⟩

/-- A model whose metadata is what the cache holds about it has current metadata. -/
theorem currentMetadata?_eq {cache : MetadataCache} {m : ModelNode} {metadata : ModelMetadata}
    (hm : m.metadata = some metadata)
    (h : ∀ e version, cache.get? m.id = some e → m.version = some version →
      e.metadata = metadata) : currentMetadata? cache m = m.metadata := by
  rw [currentMetadata?, hm]
  cases hget : cache.get? m.id with
  | none => rfl
  | some e =>
    cases hv : m.version with
    | none => rfl
    | some version =>
      simp only
      split
      · rfl
      · rw [h e version hget hv]

/-- Finishing a model notes it as complete and changes no other entry. -/
theorem modelEntry?_finished {i : NodeIndex} {metadata : ModelMetadata} {g g' : SymbolGraph}
    (h : Finished i (d.completeNode metadata) g g') (id : DeclId) :
    g'.modelEntry? id = if id = d.id then some ⟨d.id, i, .complete⟩ else g.modelEntry? id :=
  h.entry id

/-- Finishing a model with fitting metadata keeps a state sound. -/
theorem Sound.finished (h : R.Sound config s) (hd : R.Known d) {i : NodeIndex}
    (hentry : s.graph.modelEntry? d.id = some ⟨d.id, i, .inProgress⟩)
    (hi : s.graph.node? i = some (.model d.modelNode)) {cached : Option ModelMetadata}
    {metadata : ModelMetadata} (hfits : R.Fits d metadata)
    (hcached : cached = some metadata → ∃ e, s.cache.get? d.id = some e ∧ e.metadata = metadata)
    (hlive : ∀ u ∈ metadata.uses, ∀ id ∈ u.2.referencedModels, s.graph.Live id) :
    R.Sound config (finished d i cached metadata s) ∧
      Finished i (d.completeNode metadata) s.graph
        (finished d i cached metadata s).graph := by
  have hmodel : (R.contents config).Model (d.completeNode metadata) :=
    ⟨d, hd, rfl, fun m hm => by cases hm; exact hfits⟩
  obtain ⟨hshape, hfinished⟩ : _ ∧ Finished i (d.completeNode metadata) s.graph _ :=
    h.shape.finishModel hi rfl hmodel hlive
  refine ⟨⟨hshape, ?_, ?_⟩, hfinished⟩
  · intro k m hk hm
    by_cases hki : k = i
    · subst hki
      obtain rfl : m = d.completeNode metadata := by
        have hk' := hfinished.here.symm.trans hk
        simpa using hk'.symm
      refine currentMetadata?_eq rfl fun e version he hv => ?_
      rcases get?_stored he with ⟨hold, hc | hc⟩ | ⟨_, -, rfl⟩
      · obtain ⟨e', he', hmetadata⟩ := hcached hc
        obtain rfl : e = e' := by simpa [hold] using he'
        exact hmetadata
      · exact absurd (hc.symm.trans hv) (by simp)
      · rfl
    · have hold := hfinished.model k m hki hk
      have hid : m.id ≠ d.id := by
        intro hid
        have hindex := h.shape.models k m hold
        rw [hid, modelIndex?, hentry] at hindex
        exact hki (by simpa using hindex.symm)
      rw [← h.current k m hold hm]
      exact currentMetadata?_congr (get?_stored_of_ne cached metadata s.cache hid)
  · intro id e he
    show R.Left e ∨
      (SymbolGraph.modelEntry? (s.graph.finishModel i metadata) id).isSome = true ∧ R.Produced e
    rw [modelEntry?_finished hfinished]
    by_cases hid : id = d.id
    · subst hid
      rcases get?_stored he with ⟨hold, -⟩ | ⟨version, hv, rfl⟩
      · rcases h.cached _ e hold with hleft | ⟨-, hproduced⟩
        · exact .inl hleft
        · exact .inr ⟨by simp, hproduced⟩
      · exact .inr ⟨by simp, d, hd, rfl, hv, hfits⟩
    · have hold : s.cache.get? id = some e :=
        (get?_stored_of_ne cached metadata s.cache hid).symm.trans he
      rcases h.cached id e hold with hleft | ⟨hsome, hproduced⟩
      · exact .inl hleft
      · refine .inr ⟨?_, hproduced⟩
        split
        · rfl
        · exact hsome

/-- The entry of a model that is being expanded, after some visits. -/
theorem entry_of_begun (h : Advances (begun d s) s') :
    s'.graph.modelEntry? d.id = some ⟨d.id, s.graph.nextIndex, .inProgress⟩ :=
  h.entry d.id _ ((modelEntry?_begun d s d.id).trans (if_pos rfl))

/-- An expansion that ends with giving up its model loses nothing else. -/
theorem advances_givenUp (hnew : s.graph.modelEntry? d.id = none) (h : Advances (begun d s) s') :
    Advances s (givenUp d s') := by
  have hmine := entry_of_begun h
  obtain ⟨models, heq⟩ := s'.graph.failModel_eq d.id
  refine advances_of_begun hnew h ?_ ?_ ?_ ?_ fun _ _ => rfl
  · intro k n _ hk
    show (s'.graph.failModel d.id).node? k = some n
    rw [heq]
    exact hk
  · show (s'.graph.failModel d.id).controllerNodes = _
    rw [heq]
  · intro id hid
    exact (modelEntry?_failModel _ hmine id).trans (if_neg hid)
  · intro e he
    have he' := (modelEntry?_failModel _ hmine d.id).symm.trans he
    rw [if_pos rfl] at he'
    cases he'
    simp

/-- An expansion that ends with finishing its model loses nothing. -/
theorem advances_finished (hnew : s.graph.modelEntry? d.id = none)
    (h : Advances (begun d s) s') {cached : Option ModelMetadata} {metadata : ModelMetadata}
    (hfinished : Finished s.graph.nextIndex (d.completeNode metadata) s'.graph
      (finished d s.graph.nextIndex cached metadata s').graph) :
    Advances s (finished d s.graph.nextIndex cached metadata s') := by
  refine advances_of_begun hnew h hfinished.node hfinished.controllers ?_ ?_ ?_
  · intro id hid
    exact (modelEntry?_finished hfinished id).trans (if_neg hid)
  · intro e he
    have he' := (modelEntry?_finished hfinished d.id).symm.trans he
    rw [if_pos rfl] at he'
    cases he'
    simp
  · intro id hid
    exact get?_stored_of_ne cached metadata s'.cache hid

/-- A model that is begun, visited and given up counts as a visit. -/
theorem visits_givenUp (hnew : s.graph.modelEntry? d.id = none) (h : Visits (begun d s) s') :
    Visits s (givenUp d s') := by
  have hadv := advances_givenUp hnew h.toAdvances
  have hkept := extends_failModel (entry_of_begun h.toAdvances)
  obtain ⟨models, heq⟩ := s'.graph.failModel_eq d.id
  apply visits_of_begun hnew h hadv (hkept.mono (by simp))
  · show _ ≤ (s'.graph.failModel d.id).nextIndex
    rw [heq]
    exact Nat.le_refl _
  · show (s'.graph.failModel d.id).controllerNodes = _
    rw [heq]

/-- A model that is begun, visited and finished counts as a visit. -/
theorem visits_finished (hnew : s.graph.modelEntry? d.id = none) (h : Visits (begun d s) s')
    {cached : Option ModelMetadata} {metadata : ModelMetadata}
    (hfinished : Finished s.graph.nextIndex (d.completeNode metadata) s'.graph
      (finished d s.graph.nextIndex cached metadata s').graph) :
    Visits s (finished d s.graph.nextIndex cached metadata s') :=
  visits_of_begun hnew h (advances_finished hnew h.toAdvances hfinished) hfinished.kept
    hfinished.next hfinished.controllers

/-- No model is given up by an expansion that succeeds. -/
theorem unharmed_finished (hun : Unharmed (begun d s) s') {i : NodeIndex}
    {cached : Option ModelMetadata} {metadata : ModelMetadata}
    (hfinished : Finished i (d.completeNode metadata) s'.graph
      (finished d i cached metadata s').graph) :
    Unharmed s (finished d i cached metadata s') := by
  intro id e he hfailed
  rw [modelEntry?_finished hfinished] at he
  by_cases hid : id = d.id
  · rw [if_pos hid] at he
    cases he
    cases hfailed
  · rw [if_neg hid] at he
    have hold := hun id e he hfailed
    rwa [modelEntry?_begun, if_neg hid] at hold

/-! ## Whole expansions -/

/-- Everything that metadata refers to is live once all it is made from is settled. -/
theorem live_of_settled {g : SymbolGraph} {cached : Option ModelMetadata} {m : ModelMetadata}
    (hm : source.planned? d cached = some m)
    (h : ∀ part ∈ d.plan source cached, ∀ leaf ∈ part.2.leaves,
      source.Settled d.file d.package.importPath g leaf) :
    ∀ u ∈ m.uses, ∀ id ∈ u.2.referencedModels, g.Live id := by
  intro u hu id hid
  have href : id ∈ m.references :=
    List.mem_flatMap.2 ⟨u.2, (m.mem_types_iff u.2).2 ⟨u, hu, rfl⟩, hid⟩
  obtain ⟨part, hpart, d', ⟨hk, leaf, hleaf, hr⟩, rfl⟩ :=
    source.mentions_of_mem_references hm href
  obtain ⟨r, hr', -, hlive⟩ := h part hpart leaf hleaf
  obtain rfl : .declared d' = r := by simpa [hr] using hr'
  exact hlive d' rfl hk

section Expansions

variable (hR : R.Lawful) {expand : Expander}
  (hexpand : ∀ d, R.Known d → R.Keeps config (expand d) fun g => g.Live d.id)

include hR hexpand

/-- What an expansion does to a sound state. A model with an entry is left alone. Otherwise the
model is begun and what its metadata is made from is visited; if that fails, the model is given up,
and if not, it is finished. -/
theorem expandWith_cases (hd : R.Known d) (hs : R.Sound config s) :
    (∃ e, s.graph.modelEntry? d.id = some e ∧ exec (expandWith source expand d) s =
      (if e.state = .failed then
        .error (.unresolved d.id.render "an earlier expansion of this type failed")
      else .ok (), s)) ∨
    s.graph.modelEntry? d.id = none ∧ ∃ s', R.Sound config s' ∧ Visits (begun d s) s' ∧
      ((∃ e, exec (visitIn source expand d (d.plan source (cachedFor d s))) (begun d s) =
          (.error e, s') ∧
        exec (expandWith source expand d) s = (.error (.within (.type d.id) e), givenUp d s')) ∨
      ∃ m, exec (visitIn source expand d (d.plan source (cachedFor d s))) (begun d s) =
          (.ok (), s') ∧
        Unharmed (begun d s) s' ∧
        (∀ part ∈ d.plan source (cachedFor d s), ∀ leaf ∈ part.2.leaves,
          source.Settled d.file d.package.importPath s'.graph leaf) ∧
        exec (expandWith source expand d) s =
          (.ok (), finished d s.graph.nextIndex (cachedFor d s) m s') ∧
        R.Sound config (finished d s.graph.nextIndex (cachedFor d s) m s') ∧
        Finished s.graph.nextIndex (d.completeNode m) s'.graph
          (finished d s.graph.nextIndex (cachedFor d s) m s').graph) := by
  cases hentry : s.graph.modelEntry? d.id with
  | some e => exact .inl ⟨e, rfl, exec_expandWith_known source expand d hentry⟩
  | none =>
    have husable := hs.usable hentry
    have hknown : ∀ part ∈ d.plan source (cachedFor d s), ∀ d',
        source.Mentions d.file d.package.importPath part.2.leaves d' → R.Known d' :=
      fun part hpart d' => hR.closed d _ part d' hd husable hpart
    obtain ⟨hsound, hvisits, hok⟩ :=
      keeps_visitParts hexpand hknown (begun d s) (hs.begun hd hentry)
    have hvisit := exec_expandWith_new source expand d hentry
    rw [visitIn] at hvisit ⊢
    rcases hx : exec (visitParts source expand d.file d.package.importPath
      (d.plan source (cachedFor d s))) (begun d s) with ⟨e | u, s'⟩
    all_goals rw [hx] at hsound hvisits hok hvisit
    · exact .inr ⟨rfl, s', hsound, hvisits, .inl ⟨e, rfl, hvisit⟩⟩
    · obtain ⟨hun, hsettled⟩ := hok rfl
      obtain ⟨m, hm⟩ := source.exists_planned (hR.isModel d hd) (cachedFor d s)
      rw [hm] at hvisit
      have hadv := hvisits.toAdvances
      have hnode := hadv.node s.graph.nextIndex (.model d.modelNode)
        ((node?_beginModel s.graph d.modelNode _).trans (if_pos rfl))
      have hresolves : ∀ part ∈ d.plan source (cachedFor d s),
          source.Resolves d.file d.package.importPath part.2 := by
        intro part hpart leaf hleaf
        obtain ⟨r, hr, hresolved, -⟩ := hsettled part hpart leaf hleaf
        exact ⟨r, hr, hresolved⟩
      have hfits := hR.fits d _ m hd husable hm hresolves
      have hcached : cachedFor d s = some m →
          ∃ e, s'.cache.get? d.id = some e ∧ e.metadata = m := by
        intro hc
        obtain ⟨e, _, -, -, -, hmetadata, hkept⟩ := MetadataCache.getFresh_eq_some hc
        refine ⟨e, ?_, hmetadata⟩
        rw [hadv.cache d.id _ ((modelEntry?_begun d s d.id).trans (if_pos rfl))]
        exact hkept
      obtain ⟨hsound', hfinished⟩ := hsound.finished hd (entry_of_begun hadv) hnode hfits hcached
        (live_of_settled hm hsettled)
      exact .inr ⟨rfl, s', hsound, hvisits,
        .inr ⟨m, rfl, hun, hsettled, hvisit, hsound', hfinished⟩⟩

/-- An expansion keeps what holds, if the expansions that it starts do. -/
theorem keeps_expandWith (hd : R.Known d) :
    R.Keeps config (expandWith source expand d) fun g => g.Live d.id := by
  intro s hs
  obtain ⟨e, hentry, hexec⟩ | ⟨hentry, s', hsound, hvisits, hcases⟩ :=
    expandWith_cases hR hexpand hd hs
  · rw [hexec]
    refine ⟨hs, .refl s, fun h => ⟨fun _ _ he _ => he, e, hentry, ?_⟩⟩
    intro hfailed
    simp [hfailed] at h
  · obtain ⟨e, -, hexec⟩ | ⟨m, -, hun, -, hexec, hsound', hfinished⟩ := hcases
    · rw [hexec]
      exact ⟨hsound.givenUp (entry_of_begun hvisits.toAdvances), visits_givenUp hentry hvisits,
        by simp⟩
    · rw [hexec]
      refine ⟨hsound', visits_finished hentry hvisits hfinished, fun _ => ?_⟩
      refine ⟨unharmed_finished hun hfinished, ⟨d.id, s.graph.nextIndex, .complete⟩, ?_, by simp⟩
      exact (modelEntry?_finished hfinished d.id).trans (if_pos rfl)

end Expansions

/-- Expansions keep what holds, however deep they may nest. -/
theorem keeps_expandModel (hR : R.Lawful) (fuel : Nat) (hd : R.Known d) :
    R.Keeps config (expandModel source fuel d) fun g => g.Live d.id := by
  induction fuel generalizing d with
  | zero => exact .throw _ _
  | succ fuel ih => exact keeps_expandWith hR (fun d hd => ih hd) hd

end RouteAtlas.Regime
