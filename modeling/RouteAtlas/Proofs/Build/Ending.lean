import RouteAtlas.Proofs.Build.Exact

/-!
# Expansions end

An expansion visits the types of its declaration after it has begun its model, and a model with an
entry is not expanded again. So along a chain of expansions, each of which was started by the one
before, there is less and less room for another (`SymbolGraph.room`). With finitely many identities
the chains are bounded, and it makes no difference what stands at depths that are not reached
(`alike_iterate`). That no model is begun twice needs nothing but the order of these steps
(`keepsNotes_expandWith`).
-/

set_option autoImplicit false

namespace RouteAtlas

open Build Expansion

variable (source : PackageSource Id) (config : Config) {expand expand' : Expander}

/-! ## No model is begun twice -/

namespace Build

/-- A program that takes no entry away and begins no model that has one. -/
def KeepsNotes (x : Build Unit) : Prop :=
  ∀ s : BuildState, s.graph.Notes (exec x s).2.graph

namespace KeepsNotes

/-- Doing nothing keeps the notes. -/
theorem pure : KeepsNotes (Pure.pure ()) := fun s => .refl s.graph

/-- Failing at once keeps the notes. -/
theorem throw (e : Failure) : KeepsNotes (MonadExcept.throw e) := fun s => .refl s.graph

/-- The scope of a program does not matter for the notes. -/
theorem inScope {x : Build Unit} (scope : Scope) (h : KeepsNotes x) :
    KeepsNotes (Build.inScope scope x) := by
  intro s
  rw [exec_inScope]
  exact h s

/-- Programs in a row keep the notes if each does. -/
theorem forM {α : Type} {f : α → Build Unit} (l : List α) (h : ∀ a, KeepsNotes (f a)) :
    KeepsNotes (l.forM f) := by
  induction l with
  | nil => exact pure
  | cons a l ih =>
    intro s
    have hfirst := h a s
    rw [exec_forM_cons]
    rcases hx : exec (f a) s with ⟨e | u, s'⟩
    · rw [hx] at hfirst
      exact hfirst
    · rw [hx] at hfirst
      exact hfirst.trans (ih s')

end KeepsNotes

end Build

/-- The visit of an innermost type keeps the notes if expansions do. -/
theorem keepsNotes_visitLeaf (hexpand : ∀ d, KeepsNotes (expand d)) (file : SourceFile)
    (path : String) (leaf : TypeExpr) : KeepsNotes (visitLeaf source expand file path leaf) := by
  obtain ⟨e, heq, -⟩ | ⟨d, heq, -⟩ | ⟨r, heq, -⟩ := visitLeaf_cases source expand file path leaf
  · exact heq ▸ .throw e
  · exact heq ▸ hexpand d
  · exact heq ▸ .pure

/-- The visit of a type keeps the notes if expansions do. -/
theorem keepsNotes_visit (hexpand : ∀ d, KeepsNotes (expand d)) (file : SourceFile)
    (path : String) (e : TypeExpr) : KeepsNotes (visit source expand file path e) :=
  .forM e.leaves fun leaf => keepsNotes_visitLeaf source hexpand file path leaf

/-- The visit of the parts of a declaration keeps the notes if expansions do. -/
theorem keepsNotes_visitParts (hexpand : ∀ d, KeepsNotes (expand d)) (file : SourceFile)
    (path : String) (parts : List TypePart) :
    KeepsNotes (visitParts source expand file path parts) :=
  .forM parts fun part => .inScope part.1 (keepsNotes_visit source hexpand file path part.2)

/-- An expansion begins its model only if that has no entry. -/
theorem keepsNotes_expandWith (hexpand : ∀ d, KeepsNotes (expand d)) (d : ResolvedDecl) :
    KeepsNotes (expandWith source expand d) := by
  intro s
  cases hentry : s.graph.modelEntry? d.id with
  | some e =>
    rw [exec_expandWith_known source expand d hentry]
    exact .refl s.graph
  | none =>
    have hbegin : s.graph.Notes (begun d s).graph := .beginModel (m := d.modelNode) hentry
    have hvisit := hbegin.trans (keepsNotes_visitParts source hexpand d.file
      d.package.importPath (d.plan source (cachedFor d s)) (begun d s))
    have hgivenUp : ∀ s' : BuildState, s'.graph.Notes (givenUp d s').graph :=
      fun s' => .apply (.failModel d.id) rfl
    rw [exec_expandWith_new source expand d hentry, visitIn]
    rcases hx : exec (visitParts source expand d.file d.package.importPath
      (d.plan source (cachedFor d s))) (begun d s) with ⟨e | u, s'⟩
    · rw [hx] at hvisit
      exact hvisit.trans (hgivenUp s')
    · rw [hx] at hvisit
      cases source.planned? d (cachedFor d s) with
      | none => exact hvisit.trans (hgivenUp s')
      | some m => exact hvisit.trans (.finishModel _ _ _)

/-- The expansion of a model keeps the notes, whatever the fuel. -/
theorem keepsNotes_expandModel (fuel : Nat) (d : ResolvedDecl) :
    KeepsNotes (expandModel source fuel d) := by
  induction fuel generalizing d with
  | zero => exact .throw _
  | succ fuel ih => exact keepsNotes_expandWith source ih d

/-- A whole build begins no model twice, whether routes fail or not. -/
theorem notes_buildControllers (hexpand : ∀ d, KeepsNotes (expand d))
    (controllers : List ControllerDecl) (s : BuildState) :
    s.graph.Notes ((buildControllers source config expand controllers).run s).2.graph := by
  have hcollect : ∀ {α : Type} {f : α → StateM BuildState (List Failure)} (l : List α),
      (∀ a (s : BuildState), s.graph.Notes ((f a).run s).2.graph) →
      ∀ s : BuildState, s.graph.Notes ((collect f l).run s).2.graph := by
    intro α f l h
    induction l with
    | nil => exact fun s => .refl s.graph
    | cons a l ih =>
      intro s
      rw [run_collect_cons]
      exact (h a s).trans (ih _)
  rw [buildControllers_eq]
  refine hcollect controllers (fun c s => ?_) s
  rw [run_buildController]
  cases (source.package c.id.package).run with
  | error e => exact .refl s.graph
  | ok package =>
    have hadd : s.graph.Notes (s.graph.addController c.node).1 := .apply (.addController c.node) rfl
    dsimp only
    rw [buildRoutes_eq]
    refine hadd.trans (hcollect _ (fun x s => ?_)
      { s with graph := (s.graph.addController c.node).1 })
    have hvisit := keepsNotes_visitParts source hexpand x.1.file c.id.package
      x.1.parts s
    have hid : c.node.id = c.id := rfl
    rw [run_failureOf, exec_buildRoute, hid]
    rcases hx : exec (visitParts source expand x.1.file c.id.package x.1.parts) s with
      ⟨e | u, s'⟩
    · rw [hx] at hvisit
      exact hvisit
    · rw [hx] at hvisit
      exact hvisit.trans (.withRoute _ _ _ _)

/-! ## Depths that are not reached -/

/-- From types that stand within some files and packages one gets to declarations with some
identities only, and these stand within the same files and packages. -/
def PackageSource.Confined (source : PackageSource Id) (ids : Finset DeclId)
    (Within : SourceFile → String → Prop) : Prop :=
  ∀ file path leaf d, Within file path → source.resolve file path leaf = .ok (.declared d) →
    d.id ∈ ids ∧ Within d.file d.package.importPath

/-- Two programs that do the same from every state in which fewer than some models may still be
begun. -/
def Alike (ids : Finset DeclId) (n : Nat) (x y : Build Unit) : Prop :=
  ∀ s, s.graph.room ids < n → exec x s = exec y s

variable {source} {ids : Finset DeclId} {Within : SourceFile → String → Prop} {n : Nat}
  {file : SourceFile} {path : String}

/-- Programs that are alike stay so in a scope. -/
theorem Alike.inScope {x y : Build Unit} (scope : Scope) (h : Alike ids n x y) :
    Alike ids n (Build.inScope scope x) (Build.inScope scope y) := by
  intro s hs
  rw [exec_inScope, exec_inScope, h s hs]

/-- Programs in a row are alike if they are so one by one and keep the notes. -/
theorem Alike.forM {α : Type} {f g : α → Build Unit} (l : List α)
    (h : ∀ a ∈ l, Alike ids n (f a) (g a)) (hnotes : ∀ a, KeepsNotes (g a)) :
    Alike ids n (l.forM f) (l.forM g) := by
  induction l with
  | nil => exact fun _ _ => rfl
  | cons a l ih =>
    intro s hs
    have hroom : (exec (g a) s).2.graph.room ids ≤ s.graph.room ids :=
      SymbolGraph.room_le (hnotes a s).entry
    rw [exec_forM_cons, exec_forM_cons, h a List.mem_cons_self s hs]
    rcases hx : exec (g a) s with ⟨e | u, s'⟩
    · rfl
    · rw [hx] at hroom
      exact ih (fun b hb => h b (List.mem_cons_of_mem a hb)) s' (Nat.lt_of_le_of_lt hroom hs)

/-- Whether the visit of an innermost type starts an expansion, and which one, does not depend on
what expands models. -/
theorem visitLeaf_alike (source : PackageSource Id) (file : SourceFile) (path : String)
    (leaf : TypeExpr) :
    (∀ expand expand', visitLeaf source expand file path leaf =
      visitLeaf source expand' file path leaf) ∨
      ∃ d, source.resolve file path leaf = .ok (.declared d) ∧
        ∀ expand, visitLeaf source expand file path leaf = expand d := by
  unfold visitLeaf
  cases hr : source.resolve file path leaf with
  | error e => exact .inl fun _ _ => rfl
  | ok r =>
    cases r with
    | declared d =>
      by_cases hk : d.kind.isModel = true
      · refine .inr ⟨d, rfl, fun expand => ?_⟩
        show visitResolved expand leaf (.declared d) = expand d
        simp only [visitResolved, hk, if_true]
      · refine .inl fun expand expand' => ?_
        show visitResolved expand leaf (.declared d) = visitResolved expand' leaf (.declared d)
        simp only [visitResolved, if_neg hk]
    | _ => exact .inl fun _ _ => rfl

/-- Visits do the same if the expansions they start do. -/
theorem alike_visit (hconfined : source.Confined ids Within) (hwithin : Within file path)
    (hexpand : ∀ d, d.id ∈ ids → Within d.file d.package.importPath →
      Alike ids n (expand d) (expand' d))
    (hnotes : ∀ d, KeepsNotes (expand' d)) (e : TypeExpr) :
    Alike ids n (visit source expand file path e) (visit source expand' file path e) := by
  refine .forM e.leaves (fun leaf _ => ?_)
    fun leaf => keepsNotes_visitLeaf source hnotes file path leaf
  obtain heq | ⟨d, hr, hd⟩ := visitLeaf_alike source file path leaf
  · rw [heq expand expand']
    exact fun _ _ => rfl
  · rw [hd, hd]
    obtain ⟨hid, hwithin'⟩ := hconfined file path leaf d hwithin hr
    exact hexpand d hid hwithin'

/-- Visits of parts are alike if the expansions are for what the parts can lead to. -/
theorem alike_visitParts (hconfined : source.Confined ids Within) (hwithin : Within file path)
    (hexpand : ∀ d, d.id ∈ ids → Within d.file d.package.importPath →
      Alike ids n (expand d) (expand' d))
    (hnotes : ∀ d, KeepsNotes (expand' d)) (parts : List TypePart) :
    Alike ids n (visitParts source expand file path parts)
      (visitParts source expand' file path parts) :=
  .forM parts
    (fun part _ => .inScope part.1 (alike_visit hconfined hwithin hexpand hnotes part.2))
    fun part => .inScope part.1 (keepsNotes_visit source hnotes file path part.2)

/-- Expansions do the same if those they start do, and these have less room. -/
theorem alike_expandWith (hconfined : source.Confined ids Within) {d : ResolvedDecl}
    (hid : d.id ∈ ids) (hwithin : Within d.file d.package.importPath)
    (hexpand : ∀ d, d.id ∈ ids → Within d.file d.package.importPath →
      Alike ids n (expand d) (expand' d))
    (hnotes : ∀ d, KeepsNotes (expand' d)) :
    Alike ids (n + 1) (expandWith source expand d) (expandWith source expand' d) := by
  intro s hs
  cases hentry : s.graph.modelEntry? d.id with
  | some e =>
    rw [exec_expandWith_known source expand d hentry, exec_expandWith_known source expand' d hentry]
  | none =>
    -- The model that begins here takes up one place, the one that `n + 1` has more than `n`.
    have hroom : (begun d s).graph.room ids < n :=
      Nat.lt_of_lt_of_le (room_begun_lt hid hentry) (Nat.le_of_lt_succ hs)
    rw [exec_expandWith_new source expand d hentry, exec_expandWith_new source expand' d hentry,
      visitIn, visitIn, alike_visitParts hconfined hwithin hexpand hnotes _ _ hroom]

/-- Whatever is done at a depth that exceeds the room, it is not reached. -/
theorem alike_iterate (hconfined : source.Confined ids Within) (beyond : Expander) (n : Nat)
    {d : ResolvedDecl} (hid : d.id ∈ ids) (hwithin : Within d.file d.package.importPath) :
    Alike ids n ((expandWith source)^[n] beyond d) (expandModel source n d) := by
  induction n generalizing d with
  | zero => exact fun s hs => absurd hs (Nat.not_lt_zero _)
  | succ n ih =>
    rw [Function.iterate_succ_apply', expandModel]
    exact alike_expandWith hconfined hid hwithin (fun d hid hwithin => ih hid hwithin)
      (keepsNotes_expandModel source n)

/-- An expansion that may nest deeper is one whose innermost expansions go on. -/
theorem expandModel_eq_iterate (source : PackageSource Id) (n k : Nat) :
    expandModel source (n + k) = (expandWith source)^[n] (expandModel source k) := by
  induction n with
  | zero => rw [Nat.zero_add, Function.iterate_zero_apply]
  | succ n ih => rw [Function.iterate_succ_apply', ← ih, Nat.succ_add, expandModel]

/-- All depths that exceed the room come to the same. -/
theorem alike_depths (hconfined : source.Confined ids Within) (beyond : Expander)
    {depth bound : Nat} (hdepth : n ≤ depth) (hbound : n ≤ bound) {d : ResolvedDecl}
    (hid : d.id ∈ ids) (hwithin : Within d.file d.package.importPath) :
    Alike ids n ((expandWith source)^[depth] beyond d) (expandModel source bound d) := by
  -- Whatever either of them does more than `n` levels down, it is not reached.
  obtain ⟨k, rfl⟩ := Nat.exists_eq_add_of_le hdepth
  obtain ⟨k', rfl⟩ := Nat.exists_eq_add_of_le hbound
  intro s hs
  rw [Function.iterate_add_apply, expandModel_eq_iterate,
    alike_iterate hconfined _ n hid hwithin s hs, alike_iterate hconfined _ n hid hwithin s hs]

/-- Metadata of a type expression comes to the same at all depths that exceed the room. -/
theorem typeUse_depths (hconfined : source.Confined ids Within) (hwithin : Within file path)
    (e : TypeExpr) (state : BuildState) (beyond : Expander) {depth bound : Nat}
    (hdepth : state.graph.room ids < depth) (hbound : state.graph.room ids < bound) :
    exec (typeUse source ((expandWith source)^[depth] beyond) file path e) state =
      exec (typeUse source (expandModel source bound) file path e) state := by
  have hvisit := alike_visit hconfined hwithin
    (fun d hid hwithin => alike_depths hconfined beyond hdepth hbound hid hwithin)
    (keepsNotes_expandModel source _) e state (Nat.lt_succ_self _)
  rw [typeUse_eq, typeUse_eq, exec_map, exec_map, hvisit]

/-- What is collected from programs in a row depends only on what each does. -/
theorem Build.collect_congr {α : Type} {f g : α → StateM BuildState (List Failure)} {l : List α}
    (h : ∀ a ∈ l, ∀ s, (f a).run s = (g a).run s) (s : BuildState) :
    (collect f l).run s = (collect g l).run s := by
  induction l generalizing s with
  | nil => rfl
  | cons a l ih =>
    rw [run_collect_cons, run_collect_cons, h a List.mem_cons_self,
      ih fun b hb => h b (List.mem_cons_of_mem a hb)]

/-! ## The theorem -/

namespace Snapshot

variable (s : Snapshot)

/-- The types of a snapshot stand in files that it covers and packages that it knows. -/
theorem confined :
    s.source.Confined s.knownIds fun file path => s.Covers file ∧ path ∈ s.knownPaths := by
  rintro file path leaf d ⟨hcovers, hpath⟩ hd
  have hfinds := PackageSource.finds_of_resolve s.lawful_source hd
  obtain ⟨hpackage, hname, hcovers'⟩ := known_of_finds hcovers hpath hfinds
  exact ⟨s.mem_knownIds hpackage hname, hcovers', hfinds.declares.importPath ▸ hpackage⟩

/-- No state has room for more models than the bound says. -/
theorem room_lt (g : SymbolGraph) : g.room s.knownIds < s.declarationBound :=
  Nat.lt_of_le_of_lt (Finset.card_filter_le _ _) s.card_knownIds_lt

variable {s} {config : Config} {depth : Nat}

/-- The controllers of a snapshot are built in the same way at all depths that exceed the bound. -/
theorem run_buildControllers_iterate (beyond : Expander) (hdepth : s.declarationBound ≤ depth)
    (state : BuildState) :
    (buildControllers s.source config ((expandWith s.source)^[depth] beyond)
        (s.controllers config)).run state =
      (buildControllers s.source config (expandModel s.source s.declarationBound)
        (s.controllers config)).run state := by
  rw [buildControllers_eq, buildControllers_eq]
  refine collect_congr (fun c hc state => ?_) state
  rw [run_buildController, run_buildController]
  cases hpackage : (s.source.package c.id.package).run with
  | error e => rfl
  | ok package =>
    dsimp only
    rw [buildRoutes_eq, buildRoutes_eq]
    refine collect_congr (fun x hx state => ?_) _
    obtain ⟨hm, -⟩ := (c.mem_routes_iff package x.1).1 (List.fst_mem_of_mem_zipIdx hx)
    have hid : c.node.id = c.id := rfl
    have hvisit := alike_visitParts s.confined (covers_of_method hc hpackage hm)
      (fun d hid hwithin => alike_depths s.confined beyond hdepth (Nat.le_refl _) hid hwithin)
      (keepsNotes_expandModel s.source _) x.1.parts state (s.room_lt state.graph)
    rw [run_failureOf, run_failureOf, exec_buildRoute, exec_buildRoute, hid, hvisit]

/-- Turning a type expression into metadata ends, whatever has been begun and whatever the cache
holds. In a source in which types refer to finitely many declarations, the expansions that it starts
nest no deeper than there are declarations left that have no entry in the graph: with more depth
than that the outcome is the same, and the same whatever is done beyond that depth. So it is also
what the expansion without a bound gives, the one that is itself done beyond any depth. The types of
a snapshot refer to fewer declarations than its bound says. So a whole build comes to the same at
all depths beyond the bound, and it begins no model twice, whether it succeeds or not. -/
theorem expansion_ends (s : Snapshot) (config : Config) (cache : MetadataCache) :
    (∀ (source : PackageSource Id) (ids : Finset DeclId),
      (∀ file path leaf d, source.resolve file path leaf = .ok (.declared d) → d.id ∈ ids) →
      ∀ (file : SourceFile) (path : String) (e : TypeExpr) (state : BuildState) (depth bound : Nat)
        (beyond : Expander), state.graph.room ids < depth → state.graph.room ids < bound →
          exec (typeUse source ((expandWith source)^[depth] beyond) file path e) state =
            exec (typeUse source (expandModel source bound) file path e) state) ∧
    (∀ file path, s.Covers file → path ∈ s.knownPaths → ∀ (e : TypeExpr) (state : BuildState)
      (depth : Nat) (beyond : Expander), state.graph.room s.knownIds < depth →
        exec (typeUse s.source ((expandWith s.source)^[depth] beyond) file path e) state =
          exec (typeUse s.source (expandModel s.source s.declarationBound) file path e) state) ∧
    (∀ (depth : Nat) (beyond : Expander), s.declarationBound ≤ depth →
      (buildControllers s.source config ((expandWith s.source)^[depth] beyond)
        (s.controllers config)).run { cache := cache } =
          outcome s.source config s.declarationBound s.files cache) ∧
    (outcome s.source config s.declarationBound s.files cache).2.graph.beginnings.Nodup := by
  refine ⟨fun source ids hids file path e state depth bound beyond hdepth hbound => ?_,
    fun file path hcovers hpath e state depth beyond hdepth => ?_,
    fun depth beyond hdepth => run_buildControllers_iterate beyond hdepth _, ?_⟩
  · have hconfined : source.Confined ids fun _ _ => True :=
      fun file path leaf d _ hd => ⟨hids file path leaf d hd, trivial⟩
    exact typeUse_depths hconfined trivial e state beyond hdepth hbound
  · exact typeUse_depths s.confined (And.intro hcovers hpath) e state beyond hdepth
      (s.room_lt state.graph)
  · have hnotes := notes_buildControllers s.source config
      (keepsNotes_expandModel s.source s.declarationBound) (s.controllers config)
      { cache := cache }
    exact (hnotes.once SymbolGraph.begunOnce_empty).nodup

end Snapshot

end RouteAtlas
