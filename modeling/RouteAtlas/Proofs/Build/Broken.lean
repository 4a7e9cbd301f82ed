import RouteAtlas.Proofs.Build.Exact

/-!
# Models that cannot be expanded

A model is broken if one of its types refers to nothing, or if it refers to a broken model. What a
build gives up is broken. What it completes may be broken as well: a model can be completed while
one that it refers to is still being expanded, and that one can be given up later. But then the two
lead to each other (`Traced.refers`), so this happens to models that refer to themselves only.
-/

set_option autoImplicit false

namespace RouteAtlas

open Build Expansion BuildState Relation

/-- A model was given up. -/
def SymbolGraph.GivenUp (g : SymbolGraph) (id : DeclId) : Prop :=
  ∃ e, g.modelEntry? id = some e ∧ e.state = .failed

namespace PackageSource

variable (source : PackageSource Id)

/-- The declaration of an identity mentions the model of another. -/
def RefersTo (id id' : DeclId) : Prop :=
  ∃ d d', source.Declares d ∧ d.id = id ∧ d'.id = id' ∧
    ∃ part ∈ d.parts, source.Mentions d.file d.package.importPath part.2.leaves d'

/-- Identities of models that cannot be expanded. -/
inductive Broken : DeclId → Prop
  | unresolved {d : ResolvedDecl} {part : TypePart} (hd : source.Declares d)
      (hpart : part ∈ d.parts) (h : ¬ source.Resolves d.file d.package.importPath part.2) :
      Broken d.id
  | refers {id id' : DeclId} (h : source.RefersTo id id') (hbroken : Broken id') : Broken id

/-- One of some type expressions refers to nothing, or to a broken model. -/
def PartsBroken (file : SourceFile) (packagePath : String) (parts : List TypePart) : Prop :=
  ∃ part ∈ parts, ¬ source.Resolves file packagePath part.2 ∨
    ∃ d, source.Mentions file packagePath part.2.leaves d ∧ source.Broken d.id

/-- An innermost type that refers to nothing, or to a model that was given up. -/
def Refused (file : SourceFile) (packagePath : String) (g : SymbolGraph) (leaf : TypeExpr) :
    Prop :=
  (¬ ∃ r, source.resolve file packagePath leaf = .ok r ∧ ∀ reason, r ≠ .unresolved reason) ∨
    ∃ d, source.Mentions file packagePath [leaf] d ∧ g.GivenUp d.id

/-- One of some type expressions is refused. -/
def PartsRefused (file : SourceFile) (packagePath : String) (parts : List TypePart)
    (g : SymbolGraph) : Prop :=
  ∃ part ∈ parts, ∃ leaf ∈ part.2.leaves, source.Refused file packagePath g leaf

variable {source} {file : SourceFile} {packagePath : String} {g g' : SymbolGraph}

/-- A declaration refers to what one of its parts mentions. -/
theorem refersTo_of_mentions {d d' : ResolvedDecl} {part : TypePart} (hd : source.Declares d)
    (hpart : part ∈ d.parts)
    (h : source.Mentions d.file d.package.importPath part.2.leaves d') :
    source.RefersTo d.id d'.id :=
  ⟨d, d', hd, rfl, rfl, part, hpart, h⟩

/-- What an identity refers to can be told from any of its declarations. -/
theorem RefersTo.exists_mentions {d : ResolvedDecl} {id : DeclId} (h : source.RefersTo d.id id)
    (hd : source.Declares d) :
    ∃ part ∈ d.parts, ∃ d',
      source.Mentions d.file d.package.importPath part.2.leaves d' ∧ d'.id = id := by
  obtain ⟨d₀, d', hd₀, hid, rfl, part, hpart, hmentions⟩ := h
  have hsame := hd.eq_with hd₀ hid.symm
  rw [hsame] at hpart hmentions
  exact ⟨part, hpart, d', hmentions, rfl⟩

/-- A declaration with a broken part is broken. -/
theorem PartsBroken.broken {d : ResolvedDecl} (hd : source.Declares d)
    (h : source.PartsBroken d.file d.package.importPath d.parts) : source.Broken d.id := by
  obtain ⟨part, hpart, hresolves | ⟨d', hmentions, hbroken⟩⟩ := h
  · exact .unresolved hd hpart hresolves
  · exact .refers (refersTo_of_mentions hd hpart hmentions) hbroken

/-- No innermost type is both settled and refused. -/
theorem Settled.not_refused {leaf : TypeExpr} (h : source.Settled file packagePath g leaf) :
    ¬ source.Refused file packagePath g leaf := by
  obtain ⟨r, hr, hresolved, hlive⟩ := h
  rintro (hnone | ⟨d, ⟨hk, leaf', hleaf, hd⟩, e, he, hfailed⟩)
  · exact hnone ⟨r, hr, hresolved⟩
  · obtain rfl : leaf' = leaf := by simpa using hleaf
    obtain rfl : r = .declared d := Except.ok.inj (hr.symm.trans hd)
    obtain ⟨e', he', hstate⟩ := hlive d rfl hk
    obtain rfl : e = e' := Option.some.inj (he.symm.trans he')
    exact hstate hfailed

/-- What is refused stays refused as the build goes on. -/
theorem PartsRefused.advances {s s' : BuildState} {parts : List TypePart} (hadv : Advances s s')
    (h : source.PartsRefused file packagePath parts s.graph) :
    source.PartsRefused file packagePath parts s'.graph := by
  obtain ⟨part, hpart, leaf, hleaf, hnone | ⟨d, hmentions, e, he, hfailed⟩⟩ := h
  · exact ⟨part, hpart, leaf, hleaf, .inl hnone⟩
  · exact ⟨part, hpart, leaf, hleaf, .inr ⟨d, hmentions, e, hadv.entry d.id e he, hfailed⟩⟩

/-! ## What the entries of models tell -/

/-- What was given up is broken. What a complete model refers to is complete as well, or it leads
back to the model. -/
structure Traced (source : PackageSource Id) (g : SymbolGraph) : Prop where
  broken : ∀ id, g.GivenUp id → source.Broken id
  refers : ∀ id e id', g.modelEntry? id = some e → e.state = .complete →
    source.RefersTo id id' → ∃ e', g.modelEntry? id' = some e' ∧
      (e'.state = .complete ∨ TransGen source.RefersTo id' id)

namespace Traced

/-- Only the entries of models matter. -/
theorem congr (h : source.Traced g) (hentry : ∀ id, g'.modelEntry? id = g.modelEntry? id) :
    source.Traced g' where
  broken := by
    rintro id ⟨e, he, hfailed⟩
    exact h.broken id ⟨e, (hentry id).symm.trans he, hfailed⟩
  refers := by
    intro id e id' he hcomplete href
    rw [hentry id']
    exact h.refers id e id' ((hentry id).symm.trans he) hcomplete href

/-- A graph stays traced when the entry of one model changes that was not there or in progress. -/
theorem update (h : source.Traced g) {id₀ : DeclId} {e₀ : ModelEntry}
    (hentry : ∀ id, g'.modelEntry? id = if id = id₀ then some e₀ else g.modelEntry? id)
    (hold : ∀ e, g.modelEntry? id₀ = some e → e.state = .inProgress)
    (hfailed : e₀.state = .failed → source.Broken id₀)
    (hcomplete : e₀.state = .complete → ∀ id', source.RefersTo id₀ id' →
      ∃ e', g'.modelEntry? id' = some e' ∧
        (e'.state = .complete ∨ TransGen source.RefersTo id' id₀)) : source.Traced g' where
  broken := by
    rintro id ⟨e, he, hstate⟩
    rw [hentry id] at he
    by_cases hid : id = id₀
    · rw [if_pos hid] at he
      cases he
      exact hid ▸ hfailed hstate
    · rw [if_neg hid] at he
      exact h.broken id ⟨e, he, hstate⟩
  refers := by
    intro id e id' he hstate href
    rw [hentry id] at he
    by_cases hid : id = id₀
    · rw [if_pos hid] at he
      cases he
      subst hid
      exact hcomplete hstate id' href
    · rw [if_neg hid] at he
      obtain ⟨e', he', hleads⟩ := h.refers id e id' he hstate href
      rw [hentry id']
      by_cases hid' : id' = id₀
      · rw [if_pos hid']
        refine ⟨e₀, rfl, .inr (hleads.resolve_left fun hdone => ?_)⟩
        rw [hold e' (hid' ▸ he')] at hdone
        cases hdone
      · rw [if_neg hid']
        exact ⟨e', he', hleads⟩

/-- What is refused is broken, as only broken models were given up. -/
theorem partsBroken (h : source.Traced g) {parts : List TypePart}
    (hparts : source.PartsRefused file packagePath parts g) :
    source.PartsBroken file packagePath parts := by
  obtain ⟨part, hpart, leaf, hleaf, hnone | ⟨d, hmentions, hgivenUp⟩⟩ := hparts
  · exact ⟨part, hpart, .inl fun hresolves => hnone (hresolves leaf hleaf)⟩
  · refine ⟨part, hpart, .inr ⟨d, hmentions.mono fun leaf' hleaf' => ?_, h.broken _ hgivenUp⟩⟩
    obtain rfl : leaf' = leaf := by simpa using hleaf'
    exact hleaf

/-- A broken model that is complete leads to one that is not, and that refers to itself. -/
theorem exists_recursive (h : source.Traced g)
    (hresolves : ∀ d e, source.Declares d → g.modelEntry? d.id = some e → e.state = .complete →
      ∀ part ∈ d.parts, source.Resolves d.file d.package.importPath part.2)
    {id : DeclId} (hbroken : source.Broken id) {e : ModelEntry} (he : g.modelEntry? id = some e)
    (hcomplete : e.state = .complete) :
    ∃ id' e', ReflTransGen source.RefersTo id id' ∧ TransGen source.RefersTo id' id' ∧
      g.modelEntry? id' = some e' ∧ e'.state ≠ .complete := by
  induction hbroken generalizing e with
  | @unresolved d part hd hpart hnone =>
    exact absurd (hresolves d e hd he hcomplete part hpart) hnone
  | @refers id id' href _ ih =>
    obtain ⟨e', he', hleads⟩ := h.refers id e id' he hcomplete href
    by_cases hdone : e'.state = .complete
    · obtain ⟨id'', e'', hpath, hself, hentry⟩ := ih he' hdone
      exact ⟨id'', e'', hpath.head href, hself, hentry⟩
    · have hback := hleads.resolve_left hdone
      exact ⟨id', e', .single href, hback.tail href, he', hdone⟩

end Traced

end PackageSource

/-! ## The course of a build -/

variable {source : PackageSource Id} {controllers : List ControllerDecl} {config : Config}
  {ids : Finset DeclId} {fuel : Nat} {Pending Pending' : DeclId → Prop}

/-- A state in the course of a build without a cache, with more fuel than there are identities whose
expansion has not begun. Models that are being expanded are of a certain kind. -/
structure Underway (source : PackageSource Id) (controllers : List ControllerDecl)
    (config : Config) (ids : Finset DeclId) (fuel : Nat) (Pending : DeclId → Prop)
    (s : BuildState) : Prop where
  sound : (source.closureRegime controllers).Sound config s
  traced : source.Traced s.graph
  room : (ids.filter fun id => s.graph.modelEntry? id = none).card < fuel
  pending : ∀ id e, s.graph.modelEntry? id = some e → e.state = .inProgress → Pending id

namespace Underway

variable {s s' : BuildState}

/-- What a build advances to is underway if it is sound and traced. -/
theorem of_advances (h : Underway source controllers config ids fuel Pending s)
    (hadv : Advances s s') (hsound : (source.closureRegime controllers).Sound config s')
    (htraced : source.Traced s'.graph) :
    Underway source controllers config ids fuel Pending s' where
  sound := hsound
  traced := htraced
  room := Nat.lt_of_le_of_lt (room_le_of_advances hadv) h.room
  pending := fun id e he hstate => h.pending id e (hadv.progress id e he hstate) hstate

/-- The kind of models in expansion may be widened. -/
theorem mono (h : Underway source controllers config ids fuel Pending s)
    (himp : ∀ id, Pending id → Pending' id) :
    Underway source controllers config ids fuel Pending' s :=
  ⟨h.sound, h.traced, h.room, fun id e he hstate => himp id (h.pending id e he hstate)⟩

/-- Everything that is being expanded when an expansion begins leads to its model, and so does the
model itself. -/
theorem begun {d : ResolvedDecl}
    (h : Underway source controllers config ids (fuel + 1) (TransGen source.RefersTo · d.id) s)
    (hd : (source.closureRegime controllers).Known d) (hid : d.id ∈ ids)
    (hnew : s.graph.modelEntry? d.id = none) :
    Underway source controllers config ids fuel (ReflTransGen source.RefersTo · d.id)
      (begun d s) where
  sound := h.sound.begun hd hnew
  traced := by
    refine h.traced.update (Regime.modelEntry?_begun d s) ?_ (by simp) (by simp)
    simp [hnew]
  room := Nat.lt_of_lt_of_le (room_begun_lt hid hnew) (Nat.le_of_lt_succ h.room)
  pending := by
    intro id e he hstate
    rw [Regime.modelEntry?_begun] at he
    by_cases hne : id = d.id
    · exact hne ▸ .refl
    · rw [if_neg hne] at he
      exact (h.pending id e he hstate).to_reflTransGen

end Underway

/-- A program that a build can take its course with, and that fails for a certain reason only. -/
def Traces (source : PackageSource Id) (controllers : List ControllerDecl) (config : Config)
    (ids : Finset DeclId) (fuel : Nat) (Pending : DeclId → Prop) (x : Build Unit)
    (reason : SymbolGraph → Prop) : Prop :=
  ∀ s, Underway source controllers config ids fuel Pending s →
    Advances s (exec x s).2 ∧ Underway source controllers config ids fuel Pending (exec x s).2 ∧
      ∀ e, (exec x s).1 = .error e → reason (exec x s).2.graph

namespace Traces

/-- Doing nothing does not fail. -/
theorem pure (reason : SymbolGraph → Prop) :
    Traces source controllers config ids fuel Pending (Pure.pure ()) reason :=
  fun s hs => ⟨.refl s, hs, fun e he => by simp at he⟩

/-- Failing at once is allowed where the reason always holds. -/
theorem throw {reason : SymbolGraph → Prop} (e : Failure) (h : ∀ g, reason g) :
    Traces source controllers config ids fuel Pending (MonadExcept.throw e) reason :=
  fun s hs => ⟨.refl s, hs, fun _ _ => h _⟩

/-- No model is in progress in the end that was not in the beginning, so less may be known about
these. -/
theorem imp {x : Build Unit} {reason reason' : SymbolGraph → Prop}
    (h : Traces source controllers config ids fuel Pending' x reason)
    (hpending : ∀ id, Pending id → Pending' id) (hreason : ∀ g, reason g → reason' g) :
    Traces source controllers config ids fuel Pending x reason' := by
  intro s hs
  obtain ⟨hadv, hunderway, herror⟩ := h s (hs.mono hpending)
  exact ⟨hadv, hs.of_advances hadv hunderway.sound hunderway.traced,
    fun e he => hreason _ (herror e he)⟩

/-- The scope of a program adds no reason to fail. -/
theorem inScope {x : Build Unit} {reason : SymbolGraph → Prop} (scope : Scope)
    (h : Traces source controllers config ids fuel Pending x reason) :
    Traces source controllers config ids fuel Pending (Build.inScope scope x) reason := by
  intro s hs
  obtain ⟨hadv, hunderway, herror⟩ := h s hs
  rw [exec_inScope]
  refine ⟨hadv, hunderway, fun e he => ?_⟩
  rcases hx : (exec x s).1 with e' | u
  · exact herror e' hx
  · rw [hx] at he
    cases he

/-- Programs in a row fail for the reason of one of them. -/
theorem forM {α : Type} {f : α → Build Unit} {reason : α → SymbolGraph → Prop} (l : List α)
    (h : ∀ a ∈ l, Traces source controllers config ids fuel Pending (f a) (reason a)) :
    Traces source controllers config ids fuel Pending (l.forM f)
      fun g => ∃ a ∈ l, reason a g := by
  induction l with
  | nil => exact .pure _
  | cons a l ih =>
    intro s hs
    obtain ⟨hadv, hunderway, herror⟩ := h a (by simp) s hs
    rw [exec_forM_cons]
    rcases hx : exec (f a) s with ⟨e | u, s'⟩
    · rw [hx] at hadv hunderway herror
      exact ⟨hadv, hunderway, fun _ _ => ⟨a, by simp, herror e rfl⟩⟩
    · rw [hx] at hadv hunderway
      obtain ⟨hadv', hunderway', herror'⟩ := ih (fun b hb => h b (by simp [hb])) s' hunderway
      refine ⟨hadv.trans hadv', hunderway', fun e he => ?_⟩
      obtain ⟨b, hb, hreason⟩ := herror' e he
      exact ⟨b, by simp [hb], hreason⟩

end Traces

/-- The visit of an innermost type fails only if the type is refused afterwards. -/
theorem traces_visitLeaf {expand : Expander} {file : SourceFile} {path : String} {leaf : TypeExpr}
    (hexpand : ∀ d, source.Mentions file path [leaf] d →
      Traces source controllers config ids fuel Pending (expand d) (·.GivenUp d.id)) :
    Traces source controllers config ids fuel Pending (visitLeaf source expand file path leaf)
      (source.Refused file path · leaf) := by
  obtain ⟨e, heq, hnone⟩ | ⟨d, heq, hr, hk⟩ | ⟨r, heq, -⟩ :=
    visitLeaf_cases source expand file path leaf
  · rw [heq]
    exact .throw e fun g => .inl hnone
  · have hmentions : source.Mentions file path [leaf] d := ⟨hk, leaf, by simp, hr⟩
    rw [heq]
    exact (hexpand d hmentions).imp (fun _ h => h)
      fun g hgivenUp => .inr ⟨d, hmentions, hgivenUp⟩
  · rw [heq]
    exact .pure _

/-- The visit of the parts of a declaration fails only if one of them is refused afterwards. -/
theorem traces_visitParts {expand : Expander} {file : SourceFile} {path : String}
    {parts : List TypePart}
    (hexpand : ∀ part ∈ parts, ∀ d, source.Mentions file path part.2.leaves d →
      Traces source controllers config ids fuel Pending (expand d) (·.GivenUp d.id)) :
    Traces source controllers config ids fuel Pending (visitParts source expand file path parts)
      (source.PartsRefused file path parts) := by
  refine Traces.forM parts fun part hpart => Traces.inScope part.1 ?_
  refine Traces.forM part.2.leaves fun leaf hleaf => traces_visitLeaf fun d hd => ?_
  exact hexpand part hpart d (hd.mono (by simp [hleaf]))

section Ends

variable {s : BuildState} {d : ResolvedDecl} {i : NodeIndex}
  (h : Underway source controllers config ids fuel (ReflTransGen source.RefersTo · d.id) s)
  (hmine : s.graph.modelEntry? d.id = some ⟨d.id, i, .inProgress⟩)

include h hmine

/-- Giving up a model that is broken leaves the graph traced. -/
theorem Underway.traced_givenUp (hbroken : source.Broken d.id) :
    source.Traced (givenUp d s).graph := by
  refine h.traced.update (SymbolGraph.modelEntry?_failModel _ hmine) ?_ (fun _ => hbroken) ?_
  · intro e he
    obtain rfl := Option.some.inj (hmine.symm.trans he)
    rfl
  · intro hstate
    cases hstate

/-- A graph stays traced when a model is completed after everything it refers to was settled. What
is still in progress among this leads to the model. -/
theorem Underway.traced_finished (hd : source.Declares d)
    (hsettled : ∀ part ∈ d.parts, ∀ leaf ∈ part.2.leaves,
      source.Settled d.file d.package.importPath s.graph leaf)
    {cached : Option ModelMetadata} {m : ModelMetadata}
    (hfinished : SymbolGraph.Finished i (d.completeNode m) s.graph
      (finished d i cached m s).graph) : source.Traced (finished d i cached m s).graph := by
  have hentry := Regime.modelEntry?_finished hfinished
  refine h.traced.update hentry ?_ (by simp) ?_
  · intro e he
    obtain rfl := Option.some.inj (hmine.symm.trans he)
    rfl
  · intro _ id' href
    obtain ⟨part, hpart, d', ⟨hk, leaf, hleaf, hr⟩, rfl⟩ := href.exists_mentions hd
    obtain ⟨r, hr', -, hlive⟩ := hsettled part hpart leaf hleaf
    obtain ⟨e', he', hstate⟩ := hlive d' (Except.ok.inj (hr'.symm.trans hr)) hk
    rw [hentry d'.id]
    by_cases hid : d'.id = d.id
    · rw [if_pos hid]
      exact ⟨_, rfl, .inl rfl⟩
    · rw [if_neg hid]
      refine ⟨e', he', ?_⟩
      -- Only what was in progress before the visits is so now, and that leads to the model.
      cases hs : e'.state with
      | complete => exact .inl rfl
      | failed => exact absurd hs hstate
      | inProgress =>
        have hleads := h.pending d'.id e' he' hs
        exact .inr ((reflTransGen_iff_eq_or_transGen.1 hleads).resolve_left (Ne.symm hid))

end Ends

/-- An expansion fails if its model has been given up, before or by the expansion itself. -/
theorem traces_expandModel (hs : source.Lawful)
    (hids : ∀ d, source.InClosure controllers d → d.id ∈ ids) {d : ResolvedDecl}
    (hd : (source.closureRegime controllers).Known d) :
    Traces source controllers config ids fuel (TransGen source.RefersTo · d.id)
      (expandModel source fuel d) (·.GivenUp d.id) := by
  induction fuel generalizing d with
  | zero => exact fun s h => absurd h.room (Nat.not_lt_zero _)
  | succ fuel ih =>
    intro s h
    have hdeclares := hd.1.declares hs
    have hparts : Traces source controllers config ids fuel (ReflTransGen source.RefersTo · d.id)
        (visitIn source (expandModel source fuel) d d.parts)
        (source.PartsRefused d.file d.package.importPath d.parts) := by
      refine traces_visitParts fun part hpart d' hd' => ?_
      have href := PackageSource.refersTo_of_mentions hdeclares hpart hd'
      have hknown := PackageSource.lawful_closureRegime.closed d none part d' hd
        (fun _ hm => by cases hm) hpart hd'
      exact (ih hknown).imp (fun id hid => .tail' hid href) fun _ hg => hg
    rw [expandModel]
    obtain ⟨e, hentry, hexec⟩ | ⟨hnew, s', hsound, hvisits, hcases⟩ :=
      Regime.expandWith_cases PackageSource.lawful_closureRegime (fun d hd =>
        Regime.keeps_expandModel PackageSource.lawful_closureRegime fuel hd) hd h.sound
    · rw [hexec]
      refine ⟨.refl s, h, fun e' he' => ⟨e, hentry, ?_⟩⟩
      by_contra hne
      simp [hne] at he'
    · -- Without a cache, the visits are those of all parts of the declaration.
      have hadv := hvisits.toAdvances
      have hmine := Regime.entry_of_begun hadv
      have hcached := PackageSource.eq_none_of_usable (h.sound.usable hnew)
      obtain ⟨-, hunderway, herror⟩ := hparts (begun d s) (h.begun hd (hids d hd.1) hnew)
      rw [hcached] at hcases
      obtain ⟨e, hvisit, hexec⟩ | ⟨m, hvisit, -, hsettled, hexec, hsound', hfinished⟩ := hcases
      · rw [ResolvedDecl.plan] at hvisit
        rw [hvisit] at hunderway herror
        have hrefused := herror e rfl
        have hbroken := (hunderway.traced.partsBroken hrefused).broken hdeclares
        have hadv' := Regime.advances_givenUp hnew hadv
        rw [hexec]
        refine ⟨hadv', h.of_advances hadv' (hsound.givenUp hmine)
          (hunderway.traced_givenUp hmine hbroken), fun _ _ => ?_⟩
        exact ⟨_, (SymbolGraph.modelEntry?_failModel _ hmine d.id).trans (if_pos rfl), rfl⟩
      · rw [ResolvedDecl.plan] at hvisit
        rw [hvisit] at hunderway
        have hadv' := Regime.advances_finished hnew hadv hfinished
        rw [hexec]
        refine ⟨hadv', h.of_advances hadv' hsound'
          (hunderway.traced_finished hmine hdeclares hsettled hfinished), fun e he => ?_⟩
        cases he

end RouteAtlas
