import RouteAtlas.Proofs.Build.Ending
import RouteAtlas.Proofs.Build.Regular
import RouteAtlas.Proofs.Build.RouteFailures
import RouteAtlas.Proofs.Project.Missing

/-!
# What failures tell

A failure is wrapped in a scope wherever it passes from a type to what the type stands in. So its
scopes lead from a controller by way of a route and the declarations of models to a type expression,
and its root says what is wrong with that expression (`PackageSource.Tells`). This holds of every
expansion, by induction on how deep it may nest (`failsBy_expandModel`), and so of every failure of
a build, with any cache.
-/

set_option autoImplicit false

namespace RouteAtlas

open Build Expansion BuildState

namespace ResolvedDecl

/-- The type expressions that stand in a declaration: those of the fields of a struct, or the one
under another type. -/
def members (d : ResolvedDecl) : List TypePart :=
  match d.decl.shape with
  | .struct fields => fields.map fun f => (.field f.label, f.type)
  | .named e => [(.underlying, e)]
  | .synonym e => [(.underlying, e)]
  | .interface => []

variable {d : ResolvedDecl} {part : TypePart}

/-- The parts that are visited without a cache are members. -/
theorem mem_members_of_mem_parts (h : part ∈ d.parts) : part ∈ d.members := by
  unfold parts at h
  unfold members
  cases hs : d.decl.shape with
  | struct fields =>
    rw [hs] at h
    obtain ⟨f, hf, rfl⟩ := List.mem_map.1 h
    exact List.mem_map.2 ⟨f, List.mem_of_mem_filter hf, rfl⟩
  | named e =>
    simp only [hs] at h
    split at h
    · cases h
    · exact h
  | synonym e =>
    rw [hs] at h
    exact h
  | interface =>
    rw [hs] at h
    cases h

/-- The parts taken from cached fields are fields of the declaration. -/
theorem mem_of_mem_cachedFieldParts {fields : List FieldDecl} {cached : List FieldMetadata}
    (h : part ∈ cachedFieldParts fields cached) :
    part ∈ fields.map fun f => (Scope.field f.label, f.type) := by
  induction cached with
  | nil => cases h
  | cons f rest ih =>
    unfold cachedFieldParts at h
    split at h
    · cases h
    · rename_i decl hfind
      have hlabel : decl.label = f.name := by simpa using List.find?_some hfind
      rcases List.mem_cons.1 h with rfl | h
      · exact List.mem_map.2 ⟨decl, List.mem_of_find?_eq_some hfind, by rw [hlabel]⟩
      · exact ih h

/-- The parts that are visited for a cached entry are members. -/
theorem mem_members_of_mem_cachedParts {cached : ModelMetadata} (h : part ∈ d.cachedParts cached) :
    part ∈ d.members := by
  unfold cachedParts at h
  unfold members
  split at h
  · rename_i hshape
    rw [hshape]
    exact mem_of_mem_cachedFieldParts h
  · rename_i hshape
    rw [hshape]
    split at h
    · exact h
    · cases h
  · rename_i hshape
    rw [hshape]
    split at h
    · exact h
    · cases h
  · cases h

/-- Whatever the cache holds, nothing but what stands in a declaration is looked at. -/
theorem mem_members_of_mem_plan {source : PackageSource Id} {cached : Option ModelMetadata}
    (h : part ∈ d.plan source cached) : part ∈ d.members := by
  cases cached with
  | none => exact mem_members_of_mem_parts h
  | some cached =>
    rcases List.mem_append.1 h with h | h
    · exact mem_members_of_mem_cachedParts h
    · split at h
      · cases h
      · exact mem_members_of_mem_parts h

end ResolvedDecl

namespace PackageSource

variable (source : PackageSource Id)

/-- What may be wrong with a type expression in a file of a package: one of its innermost types
refers to nothing, or needs a package that cannot be loaded, or refers to a model that was given
up. -/
inductive Fault (g : SymbolGraph) (file : SourceFile) (packagePath : String) (e : TypeExpr) :
    Failure → Prop
  | unresolved {leaf : TypeExpr} {reason : String} (hleaf : leaf ∈ e.leaves)
      (h : source.resolve file packagePath leaf = .ok (.unresolved reason)) :
      Fault g file packagePath e (.unresolved leaf.render reason)
  | packageLoad {leaf : TypeExpr} {path reason : String} (hleaf : leaf ∈ e.leaves)
      (hneeds : source.Needs file packagePath leaf path)
      (h : (source.package path).run = .error (.packageLoad path reason)) :
      Fault g file packagePath e (.packageLoad path reason)
  | givenUp {d : ResolvedDecl} (hd : source.Mentions file packagePath e.leaves d)
      (h : g.GivenUp d.id) :
      Fault g file packagePath e
        (.unresolved d.id.render "an earlier expansion of this type failed")

/-- A failure about a type expression. Either it says what is wrong with the expression, or it goes
on inside a model that the expression mentions, with one of the type expressions that stand
there. -/
inductive Tells (g : SymbolGraph) : SourceFile → String → TypeExpr → Failure → Prop
  | fault {file : SourceFile} {packagePath : String} {e : TypeExpr} {root : Failure}
      (h : source.Fault g file packagePath e root) : Tells g file packagePath e root
  | leads {file : SourceFile} {packagePath : String} {e : TypeExpr} {d : ResolvedDecl}
      {part : TypePart} {cause : Failure} (hd : source.Mentions file packagePath e.leaves d)
      (hpart : part ∈ d.members) (h : Tells g d.file d.package.importPath part.2 cause) :
      Tells g file packagePath e (.within (.type d.id) (.within part.1 cause))

/-- A failure about one of some type expressions. -/
def TellsPart (g : SymbolGraph) (file : SourceFile) (packagePath : String) (parts : List TypePart)
    (failure : Failure) : Prop :=
  ∃ part ∈ parts, ∃ cause, failure = .within part.1 cause ∧
    source.Tells g file packagePath part.2 cause

variable {source} {g g' : SymbolGraph} {file : SourceFile} {packagePath : String} {e : TypeExpr}
  {failure : Failure}

/-- A fault stays one when more models are given up. -/
theorem Fault.mono (h : source.Fault g file packagePath e failure)
    (hgivenUp : ∀ id, g.GivenUp id → g'.GivenUp id) :
    source.Fault g' file packagePath e failure := by
  cases h with
  | unresolved hleaf h => exact .unresolved hleaf h
  | packageLoad hleaf hneeds h => exact .packageLoad hleaf hneeds h
  | givenUp hd h => exact .givenUp hd (hgivenUp _ h)

/-- What was given up stays so, and what a failure tells stays true. -/
theorem Tells.mono (h : source.Tells g file packagePath e failure)
    (hgivenUp : ∀ id, g.GivenUp id → g'.GivenUp id) :
    source.Tells g' file packagePath e failure := by
  induction h with
  | fault h => exact .fault (h.mono hgivenUp)
  | leads hd hpart _ ih => exact .leads hd hpart ih

/-- A failure about one of some parts stays one when more models are given up. -/
theorem TellsPart.mono {parts : List TypePart}
    (h : source.TellsPart g file packagePath parts failure)
    (hgivenUp : ∀ id, g.GivenUp id → g'.GivenUp id) :
    source.TellsPart g' file packagePath parts failure := by
  obtain ⟨part, hpart, cause, rfl, htells⟩ := h
  exact ⟨part, hpart, cause, rfl, htells.mono hgivenUp⟩

end PackageSource

/-- What was given up stays so as the build goes on. -/
theorem BuildState.Advances.givenUp {s s' : BuildState} (h : Advances s s') (id : DeclId)
    (hid : s.graph.GivenUp id) : s'.graph.GivenUp id := by
  obtain ⟨e, he, hfailed⟩ := hid
  exact ⟨e, h.entry id e he, hfailed⟩

/-! ## Expansions -/

variable {source : PackageSource Id} {config : Config} {ids : Finset DeclId} {n : Nat}
  {Within : SourceFile → String → Prop} {file : SourceFile} {path : String}

/-- A program that fails in a certain way only, from sound states in which fewer than some models
may still be begun. -/
def FailsBy (source : PackageSource Id) (config : Config) (ids : Finset DeclId) (n : Nat)
    (x : Build Unit) (P : SymbolGraph → Failure → Prop) : Prop :=
  ∀ s, source.openRegime.Sound config s → s.graph.room ids < n →
    ∀ failure, (exec x s).1 = .error failure → P (exec x s).2.graph failure

namespace FailsBy

variable {P P' : SymbolGraph → Failure → Prop}

/-- Failing at once fails in a way that always holds. -/
theorem throw {failure : Failure} (h : ∀ g, P g failure) :
    FailsBy source config ids n (MonadExcept.throw failure) P := by
  intro s _ _ failure' hfailure
  obtain rfl : failure = failure' := Except.error.inj hfailure
  exact h s.graph

/-- Doing nothing does not fail. -/
theorem pure : FailsBy source config ids n (Pure.pure ()) P := by
  intro s _ _ failure hfailure
  cases hfailure

/-- The way in which a program fails may be widened. -/
theorem imp {x : Build Unit} (h : FailsBy source config ids n x P)
    (himp : ∀ g failure, P g failure → P' g failure) : FailsBy source config ids n x P' :=
  fun s hs hroom failure hfailure => himp _ _ (h s hs hroom failure hfailure)

/-- In a scope a program fails with the cause wrapped in the scope. -/
theorem inScope {x : Build Unit} (scope : Scope) (h : FailsBy source config ids n x P) :
    FailsBy source config ids n (Build.inScope scope x)
      fun g failure => ∃ cause, failure = .within scope cause ∧ P g cause := by
  intro s hs hroom failure hfailure
  have hcause := h s hs hroom
  rw [exec_inScope] at hfailure ⊢
  rcases hx : exec x s with ⟨cause | u, s'⟩
  · rw [hx] at hfailure hcause
    exact ⟨cause, (Except.error.inj hfailure).symm, hcause cause rfl⟩
  · rw [hx] at hfailure
    cases hfailure

/-- Of several programs one after the other, the last one that runs is the one that fails. -/
theorem forM {α : Type} {f : α → Build Unit} {P : α → SymbolGraph → Failure → Prop}
    {post : α → SymbolGraph → Prop} (l : List α)
    (h : ∀ a ∈ l, FailsBy source config ids n (f a) (P a))
    (hkeeps : ∀ a ∈ l, source.openRegime.Keeps config (f a) (post a)) :
    FailsBy source config ids n (l.forM f) fun g failure => ∃ a ∈ l, P a g failure := by
  induction l with
  | nil => exact pure
  | cons a l ih =>
    intro s hs hroom failure hfailure
    have hfirst := h a List.mem_cons_self s hs hroom
    obtain ⟨hsound, hvisits, -⟩ := hkeeps a List.mem_cons_self s hs
    rw [exec_forM_cons] at hfailure ⊢
    rcases hx : exec (f a) s with ⟨e | u, s'⟩
    · rw [hx] at hfailure hfirst
      exact ⟨a, List.mem_cons_self, hfirst failure hfailure⟩
    · rw [hx] at hfailure hsound hvisits
      have hroom' := Nat.lt_of_le_of_lt (room_le_of_advances hvisits.toAdvances) hroom
      obtain ⟨b, hb, hP⟩ := ih (fun b hb => h b (List.mem_cons_of_mem a hb))
        (fun b hb => hkeeps b (List.mem_cons_of_mem a hb)) s' hsound hroom' failure hfailure
      exact ⟨b, List.mem_cons_of_mem a hb, hP⟩

end FailsBy

/-- The failures of an expansion: the model was given up before, or the failure is about a type
expression that stands in the declaration. -/
def PackageSource.ExpansionTells (source : PackageSource Id) (d : ResolvedDecl) (g : SymbolGraph)
    (failure : Failure) : Prop :=
  (g.GivenUp d.id ∧ failure = .unresolved d.id.render "an earlier expansion of this type failed") ∨
    ∃ cause, failure = .within (.type d.id) cause ∧
      source.TellsPart g d.file d.package.importPath d.members cause

section Visits

variable (hconfined : source.Confined ids Within) (hblames : source.BlamesPackages)

include hconfined hblames

/-- The visit of an innermost type of an expression fails with a failure about the expression. -/
theorem failsBy_visitLeaf (hwithin : Within file path) {expand : Expander}
    (hexpand : ∀ d, d.kind.isModel = true → d.id ∈ ids → Within d.file d.package.importPath →
      FailsBy source config ids n (expand d) (source.ExpansionTells d))
    {e leaf : TypeExpr} (hleaf : leaf ∈ e.leaves) :
    FailsBy source config ids n (visitLeaf source expand file path leaf)
      fun g => source.Tells g file path e := by
  cases hr : source.resolve file path leaf with
  | error failure =>
    have heq : visitLeaf source expand file path leaf = throw failure := by
      rw [visitLeaf, hr]
      rfl
    obtain ⟨p, hneeds, hpackage⟩ := PackageSource.exists_needs_of_resolve hr
    obtain ⟨reason, rfl⟩ := hblames p failure hpackage
    rw [heq]
    exact .throw fun g => .fault (.packageLoad hleaf hneeds hpackage)
  | ok r =>
    have heq : visitLeaf source expand file path leaf = visitResolved expand leaf r := by
      rw [visitLeaf, hr]
      rfl
    rw [heq]
    cases r with
    | unresolved reason => exact .throw fun g => .fault (.unresolved hleaf hr)
    | declared d =>
      obtain ⟨hid, hwithin'⟩ := hconfined file path leaf d hwithin hr
      by_cases hk : d.kind.isModel = true
      · have hd : source.Mentions file path e.leaves d := ⟨hk, leaf, hleaf, hr⟩
        simp only [visitResolved, hk, if_true]
        refine (hexpand d hk hid hwithin').imp ?_
        rintro g failure (⟨hgivenUp, rfl⟩ | ⟨_, rfl, part, hpart, cause, rfl, htells⟩)
        · exact .fault (.givenUp hd hgivenUp)
        · exact .leads hd hpart htells
      · simp only [visitResolved, if_neg hk]
        exact .pure
    | predeclared name => exact .pure
    | special packagePath packageName name kind => exact .pure
    | inline text => exact .pure

/-- Visits of type expressions fail with a failure about one of them. -/
theorem failsBy_visitParts (hwithin : Within file path) {expand : Expander}
    (hexpand : ∀ d, d.kind.isModel = true → d.id ∈ ids → Within d.file d.package.importPath →
      FailsBy source config ids n (expand d) (source.ExpansionTells d))
    (hkeeps : ∀ d, d.kind.isModel = true →
      source.openRegime.Keeps config (expand d) fun g => g.Live d.id) (parts : List TypePart) :
    FailsBy source config ids n (visitParts source expand file path parts)
      fun g => source.TellsPart g file path parts := by
  have hleaf : ∀ leaf, source.openRegime.Keeps config (visitLeaf source expand file path leaf)
      fun g => source.Settled file path g leaf :=
    fun leaf => Regime.keeps_visitLeaf hkeeps fun d hd => hd.1
  have hvisit : ∀ e : TypeExpr, source.openRegime.Keeps config (visit source expand file path e)
      fun g => ∀ leaf ∈ e.leaves, source.Settled file path g leaf :=
    fun e => .forM e.leaves (fun leaf _ => hleaf leaf) fun _ _ _ hadv => hadv.settled
  have htells : ∀ e : TypeExpr, FailsBy source config ids n (visit source expand file path e)
      fun g => source.Tells g file path e := by
    intro e
    refine (FailsBy.forM e.leaves (fun leaf h => failsBy_visitLeaf hconfined hblames hwithin
      hexpand h) fun leaf _ => hleaf leaf).imp ?_
    rintro g failure ⟨leaf, -, h⟩
    exact h
  refine (FailsBy.forM parts (fun part _ => (htells part.2).inScope part.1)
    fun part _ => (hvisit part.2).inScope part.1).imp ?_
  rintro g failure ⟨part, hpart, cause, heq, h⟩
  exact ⟨part, hpart, cause, heq, h⟩

/-- An expansion fails with a failure about its declaration. -/
theorem failsBy_expandModel (n : Nat) {d : ResolvedDecl} (hk : d.kind.isModel = true)
    (hid : d.id ∈ ids) (hwithin : Within d.file d.package.importPath) :
    FailsBy source config ids n (expandModel source n d) (source.ExpansionTells d) := by
  induction n generalizing d with
  | zero => exact fun s _ hroom => absurd hroom (Nat.not_lt_zero _)
  | succ n ih =>
    intro s hs hroom failure hfailure
    have hkeeps : ∀ d, d.kind.isModel = true →
        source.openRegime.Keeps config (expandModel source n d) fun g => g.Live d.id :=
      fun d hd => Regime.keeps_expandModel source.lawful_openRegime n hd
    rw [expandModel] at hfailure ⊢
    obtain ⟨e, hentry, hexec⟩ | ⟨hentry, s', hsound, hvisits, hcases⟩ :=
      Regime.expandWith_cases source.lawful_openRegime hkeeps hk hs
    · rw [hexec] at hfailure ⊢
      by_cases hstate : e.state = .failed
      · rw [if_pos hstate] at hfailure
        exact .inl ⟨⟨e, hentry, hstate⟩, (Except.error.inj hfailure).symm⟩
      · rw [if_neg hstate] at hfailure
        cases hfailure
    · obtain ⟨cause, hvisit, hexec⟩ | ⟨m, -, -, -, hexec, -, -⟩ := hcases
      -- The model has been begun, so those inside it have less room and the hypothesis covers them.
      · have hparts := failsBy_visitParts hconfined hblames hwithin
          (fun d hk hid hwithin => ih hk hid hwithin) hkeeps (d.plan source (cachedFor d s))
          (begun d s) (hs.begun hk hentry)
          (Nat.lt_of_lt_of_le (room_begun_lt hid hentry) (Nat.le_of_lt_succ hroom)) cause
        rw [visitIn] at hvisit
        rw [hvisit] at hparts
        obtain ⟨part, hpart, cause', rfl, htells⟩ := hparts rfl
        have hmine := Regime.entry_of_begun hvisits.toAdvances
        -- The model is given up only now, after its failure has told which ones were before.
        have hgivenUp : ∀ id, s'.graph.GivenUp id → (givenUp d s').graph.GivenUp id := by
          rintro id ⟨e, he, hfailed⟩
          have hfail := SymbolGraph.modelEntry?_failModel _ hmine id
          by_cases hsame : id = d.id
          · exact ⟨_, hfail.trans (if_pos hsame), rfl⟩
          · exact ⟨e, hfail.trans ((if_neg hsame).trans he), hfailed⟩
        rw [hexec] at hfailure ⊢
        exact .inr ⟨_, (Except.error.inj hfailure).symm, part,
          ResolvedDecl.mem_members_of_mem_plan hpart, cause', rfl, htells.mono hgivenUp⟩
      · rw [hexec] at hfailure
        cases hfailure

end Visits

/-! ## Builds -/

/-- The routes of a controller come in the order of its methods. -/
theorem ControllerDecl.sublist_routes (c : ControllerDecl) (package : Package) :
    ((c.routes package).map fun r => (r.file, r.method)).Sublist
      (package.methodsOf c.decl.name) := by
  refine (List.filter_sublist.map _).trans ?_
  rw [List.map_map]
  -- Taking a method and its file back out of a route undoes making the route of them.
  show (List.map (fun x => x) _).Sublist _
  rw [List.map_id']
  exact List.filter_sublist

namespace PackageSource

variable (source : PackageSource Id)

/-- What a build reports about one after the other: the routes of a controller, or the controller
itself if its package cannot be loaded. -/
def stations (c : ControllerDecl) : List (ControllerDecl × Option RouteDecl) :=
  match (source.package c.id.package).run with
  | .ok package => (c.routes package).map fun r => (c, some r)
  | .error _ => [(c, none)]

/-- What is reported about a controller without its package, and about a route. -/
inductive Accounts (g : SymbolGraph) : ControllerDecl × Option RouteDecl → Option Failure → Prop
  | missing {c : ControllerDecl} {reason : String}
      (h : (source.package c.id.package).run = .error (.packageLoad c.id.package reason)) :
      Accounts g (c, none) (some (.within (.controller c.id) (.packageLoad c.id.package reason)))
  | built {c : ControllerDecl} {r : RouteDecl} : Accounts g (c, some r) none
  | failed {c : ControllerDecl} {r : RouteDecl} {cause : Failure}
      (h : source.TellsPart g r.file c.id.package r.parts cause) :
      Accounts g (c, some r)
        (some (.within (.controller c.id) (.within (.route r.method.qualifiedName) cause)))

/-- Failures that are reported one after the other. -/
def Accounted (g : SymbolGraph) (stations : List (ControllerDecl × Option RouteDecl))
    (failures : List Failure) : Prop :=
  ∃ reports : List (Option Failure), failures = reports.reduceOption ∧
    List.Forall₂ (source.Accounts g) stations reports

variable {source} {g g' : SymbolGraph}

/-- A report on a station stays right when more models are given up. -/
theorem Accounts.mono {station : ControllerDecl × Option RouteDecl} {report : Option Failure}
    (h : source.Accounts g station report) (hgivenUp : ∀ id, g.GivenUp id → g'.GivenUp id) :
    source.Accounts g' station report := by
  cases h with
  | missing h => exact .missing h
  | built => exact .built
  | failed h => exact .failed (h.mono hgivenUp)

/-- Reports on stations stay right when more models are given up. -/
theorem Accounted.mono {l : List (ControllerDecl × Option RouteDecl)} {failures : List Failure}
    (h : source.Accounted g l failures) (hgivenUp : ∀ id, g.GivenUp id → g'.GivenUp id) :
    source.Accounted g' l failures := by
  obtain ⟨reports, hfailures, hreports⟩ := h
  exact ⟨reports, hfailures, hreports.imp fun _ _ h => h.mono hgivenUp⟩

/-- Reports on two rows of stations account for both. -/
theorem Accounted.append {l l' : List (ControllerDecl × Option RouteDecl)}
    {failures failures' : List Failure} (h : source.Accounted g l failures)
    (h' : source.Accounted g l' failures') :
    source.Accounted g (l ++ l') (failures ++ failures') := by
  obtain ⟨reports, rfl, hreports⟩ := h
  obtain ⟨reports', rfl, hreports'⟩ := h'
  exact ⟨reports ++ reports', (List.reduceOption_append _ _).symm,
    List.rel_append hreports hreports'⟩

end PackageSource

/-- A program whose failures are reported one after the other. -/
def AccountsFor (source : PackageSource Id) (config : Config) (pre : SymbolGraph → Prop)
    (x : StateM BuildState (List Failure)) (stations : List (ControllerDecl × Option RouteDecl)) :
    Prop :=
  ∀ s, source.openRegime.Sound config s → pre s.graph →
    source.Accounted (x.run s).2.graph stations (x.run s).1

/-- Programs in a row account for their stations in a row if the work of one is stable under the
rest. -/
theorem AccountsFor.collect {α : Type} {pre : SymbolGraph → Prop}
    {f : α → StateM BuildState (List Failure)} {post : α → SymbolGraph → Prop}
    {stations : α → List (ControllerDecl × Option RouteDecl)} (l : List α)
    (h : ∀ a ∈ l, AccountsFor source config pre (f a) (stations a))
    (hkeeps : ∀ a ∈ l, source.openRegime.KeepsAll config pre (f a) (post a))
    (hpre : ∀ s s', Advances s s' → pre s.graph → pre s'.graph)
    (hstable : ∀ a s s', Advances s s' → post a s.graph → post a s'.graph) :
    AccountsFor source config pre (Build.collect f l) (l.flatMap stations) := by
  induction l with
  | nil => exact fun s _ _ => ⟨[], rfl, .nil⟩
  | cons a l ih =>
    intro s hs hp
    obtain ⟨hsound, hadv, -⟩ := hkeeps a List.mem_cons_self s hs hp
    have hp' := hpre s _ hadv hp
    have hrest : ∀ b ∈ l, source.openRegime.KeepsAll config pre (f b) (post b) :=
      fun b hb => hkeeps b (List.mem_cons_of_mem a hb)
    obtain ⟨-, hadv', -⟩ := Regime.KeepsAll.collect l hrest hpre hstable _ hsound hp'
    rw [run_collect_cons, List.flatMap_cons]
    exact ((h a List.mem_cons_self s hs hp).mono hadv'.givenUp).append
      (ih (fun b hb => h b (List.mem_cons_of_mem a hb)) hrest _ hsound hp')

namespace Snapshot

variable (s : Snapshot) (config : Config)

/-- What the routes of a snapshot are built from, and what stands for controllers without. -/
def stations : List (ControllerDecl × Option RouteDecl) :=
  (s.controllers config).flatMap s.source.stations

variable {s config} {c : ControllerDecl} {package : Package} {r : RouteDecl}

/-- Building a route of a declared controller accounts for that route. -/
theorem accountsFor_buildRoute (hc : c ∈ s.controllers config)
    (hpackage : s.package c.id.package = .ok package) (hr : r ∈ c.routes package)
    (i : NodeIndex) (ordinal : Nat) :
    AccountsFor s.source config (i ∈ ·.controllerNodes)
      (failureOf (buildRoute s.source config (expandModel s.source s.declarationBound) c.node i
        ordinal r)) [(c, some r)] := by
  intro state hs hi
  have hkeeps : ∀ d, d.kind.isModel = true → s.source.openRegime.Keeps config
      (expandModel s.source s.declarationBound d) fun g => g.Live d.id :=
    fun d hd => Regime.keeps_expandModel s.source.lawful_openRegime _ hd
  obtain ⟨hm, -⟩ := (c.mem_routes_iff package r).1 hr
  have htells := failsBy_visitParts s.confined s.blamesPackages (covers_of_method hc hpackage hm)
    (fun d hk hid hwithin => failsBy_expandModel s.confined s.blamesPackages _ hk hid hwithin)
    hkeeps r.parts state hs (s.room_lt state.graph)
  obtain ⟨s', hs', -, -, ⟨e, he, hrun⟩ | ⟨-, -, g, hrun, -, -⟩⟩ :=
    Regime.buildRoute_cases hkeeps hr ordinal (fun _ _ _ hd => hd.1) hs hi
  · rw [hrun]
    rw [← hs'] at htells
    exact ⟨[some _], rfl, .cons (.failed (htells e he)) .nil⟩
  · rw [hrun]
    exact ⟨[none], rfl, .cons .built .nil⟩

/-- Building a declared controller accounts for the controller and its routes. -/
theorem accountsFor_buildController (hc : c ∈ s.controllers config) :
    AccountsFor s.source config (fun _ => True)
      (buildController s.source config (expandModel s.source s.declarationBound) c)
      (s.source.stations c) := by
  intro state hs _
  rw [run_buildController, PackageSource.stations]
  cases hpackage : (s.source.package c.id.package).run with
  | error e =>
    obtain ⟨reason, rfl⟩ := s.blamesPackages _ _ hpackage
    exact ⟨[some _], rfl, .cons (.missing hpackage) .nil⟩
  | ok package =>
    obtain ⟨hshape, hsame⟩ := hs.shape.addController (c := c.node) ⟨c, rfl⟩
    have hkeeps : ∀ x ∈ (c.routes package).zipIdx, s.source.openRegime.KeepsAll config
        (state.graph.nextIndex ∈ ·.controllerNodes)
        (failureOf (buildRoute s.source config (expandModel s.source s.declarationBound) c.node
          state.graph.nextIndex x.2 x.1)) fun g => s.source.RouteSettled c.id.package g x.1 :=
      fun x hx => Regime.keepsAll_buildRoute
        (fun d hd => Regime.keeps_expandModel s.source.lawful_openRegime _ hd)
        (List.fst_mem_of_mem_zipIdx hx) _ _ fun _ _ _ hd => hd.1
    have hroutes := AccountsFor.collect _
      (fun x hx => accountsFor_buildRoute hc hpackage (List.fst_mem_of_mem_zipIdx hx)
        state.graph.nextIndex x.2) hkeeps (fun s s' hadv hi => hadv.controllers _ hi)
      (fun x s s' hadv h part hpart leaf hleaf => hadv.settled (h part hpart leaf hleaf)) _
      (hs.of_sameModels hshape hsame) (List.mem_append_right _ (List.mem_singleton.2 rfl))
    rw [flatMap_zipIdx_singleton fun r => (c, some r)] at hroutes
    exact hroutes

/-- The failures of a build are what is reported about the routes, whatever the cache holds. -/
theorem accounted_outcome (s : Snapshot) (config : Config) (cache : MetadataCache) :
    s.source.Accounted (outcome s.source config s.declarationBound s.files cache).2.graph
      (s.stations config) (outcome s.source config s.declarationBound s.files cache).1 := by
  have hcontrollers : AccountsFor s.source config (fun _ => True)
      (collect (buildController s.source config (expandModel s.source s.declarationBound))
        (s.controllers config)) (s.stations config) := by
    refine AccountsFor.collect _ (fun c hc => accountsFor_buildController hc)
      (fun c hc => Regime.keepsAll_buildController
        (fun d hd => Regime.keeps_expandModel s.source.lawful_openRegime _ hd)
        fun _ _ _ _ _ _ _ hd => hd.1) (fun _ _ _ h => h) ?_
    rintro c s s' hadv ⟨package, hpackage, hsettled⟩
    exact ⟨package, hpackage, fun r hr part hpart leaf hleaf =>
      hadv.settled (hsettled r hr part hpart leaf hleaf)⟩
  exact hcontrollers { cache := cache } (Regime.sound_initial fun _ _ _ => trivial) trivial

/-! ## The theorem -/

/-- What the failures of a build tell, whatever the cache holds. Controllers come in the order of
their identities, and the routes of a controller in the order of its methods, of which they are the
exported and annotated ones. There is at most one failure about each route, in this order: it is in
the scopes of the controller, the route, and a parameter or a result, and tells the truth about the
type of that (`PackageSource.Tells`). About a controller whose package cannot be loaded there is one
failure, which says so. -/
theorem contexts_faithful (s : Snapshot) (config : Config) (cache : MetadataCache)
    {failure : BuildFailure} (h : (s.buildGraph config cache).1 = .error failure) :
    ((s.controllers config).Pairwise fun a b => a.id.le b.id = true) ∧
    (∀ c ∈ s.controllers config, ∀ package, s.package c.id.package = .ok package →
      ((c.routes package).map fun r => (r.file, r.method)).Sublist
        (package.methodsOf c.decl.name) ∧
      ∀ r ∈ c.routes package, r.method.isExported = true ∧
        r.directives = .ofDoc r.method.doc ∧ r.directives.isAnnotated = true) ∧
    ∃ reports : List (Option Failure), failure.errors = reports.reduceOption ∧
      List.Forall₂
        (s.source.Accounts (outcome s.source config s.declarationBound s.files cache).2.graph)
        (s.stations config) reports := by
  refine ⟨Config.pairwise_controllersIn, fun c _ package _ => ⟨c.sublist_routes package, ?_⟩, ?_⟩
  · exact fun r hr => ((c.mem_routes_iff package r).1 hr).2
  · have herrors : failure.errors =
        (outcome s.source config s.declarationBound s.files cache).1 := by
      rw [buildGraph, Build.buildGraph_eq] at h
      simp only at h
      split at h
      · cases h
      · exact congrArg BuildFailure.errors (Except.error.inj h).symm
    rw [herrors]
    exact s.accounted_outcome config cache

/-! ## A chain of failures -/

/-- A project of one file with two routes. The first leads to a type that is not declared, by way of
the key of a map, a field and a new type, and the second to one of the models on this way. -/
def brokenChain : FileTree where
  entries :=
    [(["p"], .directory),
     (["p", "a.go"], .file
      ("package p\ntype C struct\x7b ControllerBase \x7d\n" ++
       "// @Method(GET)\nfunc (C) A(a map[K]string) error \x7b\x7d\n" ++
       "// @Method(GET)\nfunc (C) B() (*L, error) \x7b\x7d\n" ++
       "type K struct \x7b Parts []L \x7d\ntype L Missing\n").toUTF8 0)]
  workDir := ["p"]

/-- What is reported about the project. -/
def brokenChainFailures : List Failure :=
  [.within (.controller ⟨"p", "C"⟩) (.within (.route "C.A") (.within (.parameter "a")
    (.within (.type ⟨"p", "K"⟩) (.within (.field "Parts") (.within (.type ⟨"p", "L"⟩)
      (.within .underlying (.unresolved "Missing" "not declared in package 'p'"))))))),
   .within (.controller ⟨"p", "C"⟩) (.within (.route "C.B") (.within (.result 0)
    (.unresolved "p.L" "an earlier expansion of this type failed")))]

/-- The build of a project fails in which a route leads to an unresolved field by way of two
structs. -/
theorem contexts_faithful_brokenChain :
    ∃ filter, ({} : Config).pathFilter = .ok filter ∧
      let s := Snapshot.ofTree brokenChain ⟨"/p"⟩ filter
      ∃ failure, (s.buildGraph {} {}).1 = .error failure ∧ failure.errors = brokenChainFailures ∧
        ∃ reports : List (Option Failure), brokenChainFailures = reports.reduceOption ∧
          List.Forall₂
            (s.source.Accounts (outcome s.source {} s.declarationBound s.files {}).2.graph)
            (s.stations {}) reports := by
  obtain ⟨filter, hfilter, herrors⟩ := exists_eq_ok (x := ({} : Config).pathFilter)
    (f := fun filter => (Snapshot.ofTree brokenChain ⟨"/p"⟩ filter).failures {})
    (b := brokenChainFailures) (by decide +kernel)
  rw [failures] at herrors
  cases hbuild : ((Snapshot.ofTree brokenChain ⟨"/p"⟩ filter).buildGraph {} {}).1 with
  | ok g =>
    rw [hbuild] at herrors
    cases herrors
  | error failure =>
    rw [hbuild] at herrors
    obtain ⟨-, -, reports, hreports, haccounts⟩ := contexts_faithful _ {} {} hbuild
    exact ⟨filter, hfilter, failure, hbuild, herrors, reports, herrors ▸ hreports, haccounts⟩

end Snapshot

end RouteAtlas
