import RouteAtlas.Proofs.Build.Contexts

/-!
# Metadata mirrors type expressions

A type expression is its containers around its innermost type, and the metadata of the expression
has the same containers around what that type refers to. So its name is the expression without the
qualifiers of names (`name_useOf`), in the keys of maps as well, which have metadata of their
own.
-/

set_option autoImplicit false

namespace RouteAtlas

open Build Expansion

/-! ## Containers -/

/-- A container around an expression. -/
def ExprLayer.wrap (elem : TypeExpr) : ExprLayer → TypeExpr
  | .pointer => .pointer elem
  | .slice => .slice elem
  | .array len => .array len elem
  | .map key => .map key elem
  | .chan => .chan elem

namespace TypeExpr

/-- An expression without the qualifiers of names, and with a name for empty interfaces. -/
def plain : TypeExpr → TypeExpr
  | .named _ name => .named none name
  | .inline text => if Resolution.isEmptyInterface text then .named none "any" else .inline text
  | .pointer elem => .pointer elem.plain
  | .slice elem => .slice elem.plain
  | .array len elem => .array len elem.plain
  | .map key value => .map key.plain value.plain
  | .chan elem => .chan elem.plain

/-- An expression is its containers around its innermost type. -/
theorem foldr_wrap_layers (e : TypeExpr) :
    e.layers.foldr (fun layer elem => layer.wrap elem) e.base = e := by
  induction e with
  | named q name => rfl
  | inline text => rfl
  | pointer elem ih => rw [layers, base, List.foldr_cons, ih, ExprLayer.wrap]
  | slice elem ih => rw [layers, base, List.foldr_cons, ih, ExprLayer.wrap]
  | array len elem ih => rw [layers, base, List.foldr_cons, ih, ExprLayer.wrap]
  | map key value _ ih => rw [layers, base, List.foldr_cons, ih, ExprLayer.wrap]
  | chan elem ih => rw [layers, base, List.foldr_cons, ih, ExprLayer.wrap]

/-- The innermost type of an expression is a name, or a type without one. -/
theorem base_cases (e : TypeExpr) :
    (∃ qualifier name, e.base = .named qualifier name) ∨ ∃ text, e.base = .inline text := by
  induction e with
  | named q name => exact .inl ⟨q, name, rfl⟩
  | inline text => exact .inr ⟨text, rfl⟩
  | pointer elem ih => exact ih
  | slice elem ih => exact ih
  | array len elem ih => exact ih
  | map key value _ ih => exact ih
  | chan elem ih => exact ih

/-- The innermost types of a key stand together among those of the whole expression. -/
theorem leaves_infix_of_mem_layers {e key : TypeExpr} (h : ExprLayer.map key ∈ e.layers) :
    key.leaves <:+: e.leaves := by
  have hkeys : key.leaves <:+: e.keyLeaves := by
    induction e with
    | named q name => simp [layers] at h
    | inline text => simp [layers] at h
    | pointer elem ih => exact ih (by simpa [layers] using h)
    | slice elem ih => exact ih (by simpa [layers] using h)
    | array len elem ih => exact ih (by simpa [layers] using h)
    | chan elem ih => exact ih (by simpa [layers] using h)
    | map key' value _ ih =>
      rcases List.mem_cons.1 h with heq | h
      · obtain rfl : key = key' := ExprLayer.map.inj heq
        exact List.infix_append [] key.leaves value.keyLeaves
      · exact (ih h).trans (List.suffix_append key'.leaves value.keyLeaves).isInfix
  exact hkeys.trans (List.suffix_cons _ _).isInfix

end TypeExpr

/-! ## Innermost types -/

/-- What a name can resolve to: something of that name, or nothing, and then for another reason than
that it is no name. -/
inductive Resolution.Names (name : String) : Resolution → Prop
  | predeclared : Names name (.predeclared name)
  | special {packagePath packageName : String} {kind : ImportKind} :
      Names name (.special packagePath packageName name kind)
  | declared {d : ResolvedDecl} (h : d.id.name = name) : Names name (.declared d)
  | unresolved {reason : String} (h : ∀ text, reason ≠ "'" ++ text ++ "' is not a named type") :
      Names name (.unresolved reason)

/-- A reason that does not begin with a quote is not that something is no named type. -/
theorem Resolution.ne_of_head? {reason : String} (h : reason.toList.head? ≠ "'".toList.head?)
    (text : String) : reason ≠ "'" ++ text ++ "' is not a named type" := by
  rintro rfl
  simp at h

/-- What is found under a name in a package has that name. -/
theorem Resolution.names_of_declaredIn? {package : Package} {name : String} {kind : ImportKind}
    {r : Resolution} (h : declaredIn? package name kind = some r) : r.Names name := by
  obtain ⟨⟨file, decl⟩, -, rfl⟩ := Option.map_eq_some_iff.1 h
  exact .declared rfl

namespace PackageSource

variable (source : PackageSource Id) {file : SourceFile} {packagePath : String}

/-- What is found under a name through the imports without qualifier has that name. -/
theorem names_of_findExposed? {name : String} {imports : List Import} {r : Resolution}
    (h : (source.findExposed? name imports).run = .ok (some r)) : r.Names name := by
  induction imports with
  | nil => cases h
  | cons i rest ih =>
    rw [findExposed?] at h
    split at h
    · exact ih h
    · obtain ⟨package, -, h⟩ := run_bind_eq_ok h
      cases hfound : Resolution.declaredIn? package name .dot with
      | none =>
        rw [hfound] at h
        exact ih h
      | some found =>
        rw [hfound] at h
        obtain rfl : found = r := Option.some.inj (Except.ok.inj h)
        exact Resolution.names_of_declaredIn? hfound

/-- What a qualified name leads to has that name, or is nothing for another reason. -/
theorem names_of_resolveQualified {qualifier name : String} {r : Resolution}
    (h : (source.resolveQualified file qualifier name).run = .ok r) : r.Names name := by
  rw [resolveQualified] at h
  obtain ⟨found, -, h⟩ := run_bind_eq_ok h
  cases found with
  | none =>
    obtain rfl := Except.ok.inj h
    exact .unresolved (Resolution.ne_of_head? (by simp))
  | some i =>
    simp only at h
    split at h
    · obtain rfl := Except.ok.inj h
      exact .special
    · obtain ⟨package, -, h⟩ := run_bind_eq_ok h
      cases hfound : Resolution.declaredIn? package name i.kind with
      | none =>
        rw [hfound] at h
        obtain rfl := Except.ok.inj h
        exact .unresolved (Resolution.ne_of_head? (by simp))
      | some found =>
        rw [hfound] at h
        obtain rfl : found = r := Except.ok.inj h
        exact Resolution.names_of_declaredIn? hfound

/-- What a name alone leads to has that name, or is nothing for another reason. -/
theorem names_of_resolveUnqualified {name : String} {r : Resolution}
    (h : (source.resolveUnqualified file packagePath name).run = .ok r) : r.Names name := by
  rw [resolveUnqualified] at h
  obtain ⟨exposed, hexposed, h⟩ := run_bind_eq_ok h
  cases exposed with
  | some found =>
    obtain rfl : found = r := Except.ok.inj h
    exact source.names_of_findExposed? hexposed
  | none =>
    obtain ⟨package, -, h⟩ := run_bind_eq_ok h
    cases hfound : Resolution.declaredIn? package name .samePackage with
    | some found =>
      rw [hfound] at h
      obtain rfl : found = r := Except.ok.inj h
      exact Resolution.names_of_declaredIn? hfound
    | none =>
      rw [hfound] at h
      simp only at h
      split at h
      · obtain rfl := Except.ok.inj h
        exact .predeclared
      · obtain rfl := Except.ok.inj h
        exact .unresolved (Resolution.ne_of_head? (by simp))

/-- A name resolves to something of that name, if to anything. -/
theorem names_of_resolve {qualifier : Option String} {name : String} {r : Resolution}
    (h : source.resolve file packagePath (.named qualifier name) = .ok r) : r.Names name := by
  cases qualifier with
  | some q =>
    have h : (source.resolveQualified file q name).run = .ok r := h
    exact source.names_of_resolveQualified h
  | none => exact source.names_of_resolveUnqualified h

/-- The innermost type of an expression is never refused for being no name. -/
theorem reason_of_resolve_base {e : TypeExpr} {reason : String}
    (h : source.resolve file packagePath e.base = .ok (.unresolved reason)) (text : String) :
    reason ≠ "'" ++ text ++ "' is not a named type" := by
  obtain ⟨qualifier, name, hbase⟩ | ⟨inline, hbase⟩ := e.base_cases
  · rw [hbase] at h
    cases source.names_of_resolve h with
    | unresolved hreason => exact hreason text
  · rw [hbase] at h
    simp only [resolve, resolveBase] at h
    split at h <;> cases h

/-! ## Names -/

/-- What an innermost type resolves to is called like the type. -/
theorem baseName_leafUse {e : TypeExpr} {r : Resolution}
    (h : source.resolve file packagePath e.base = .ok r)
    (hresolved : ∀ reason, r ≠ .unresolved reason) :
    (source.leafUse file packagePath e.base).baseName = e.base.plain.render := by
  rw [leafUse, h]
  obtain ⟨qualifier, name, hbase⟩ | ⟨text, hbase⟩ := e.base_cases
  · rw [hbase] at h ⊢
    cases source.names_of_resolve h with
    | predeclared => rfl
    | special => rfl
    | declared hname => exact hname
    | unresolved hreason => exact absurd rfl (hresolved _)
  · rw [hbase] at h ⊢
    simp only [resolve, resolveBase] at h
    rw [TypeExpr.plain]
    split at h
    · rename_i hempty
      obtain rfl := Except.ok.inj h
      rw [if_pos hempty]
      rfl
    · rename_i hempty
      obtain rfl := Except.ok.inj h
      rw [if_neg hempty]
      rfl

/-- The outermost container stands in front of the name of the rest. -/
theorem formatName_cons (layer : TypeLayer) (layers : List TypeLayer) (base : String) :
    TypeUse.formatName (layer :: layers) base =
      layer.render ++ TypeUse.formatName layers base := by
  rw [TypeUse.formatName, TypeUse.formatName, List.map_cons, String.join_cons, String.append_assoc]

/-- The use of an expression that refers to something is called like the expression. -/
theorem name_useOf {e : TypeExpr} (h : source.Resolves file packagePath e) :
    (source.useOf file packagePath e).name = e.plain.render := by
  show TypeUse.formatName (source.layersOf file packagePath e)
    (source.leafUse file packagePath e.base).baseName = e.plain.render
  have hbase : ∀ e : TypeExpr, source.Resolves file packagePath e →
      (source.leafUse file packagePath e.base).baseName = e.base.plain.render := by
    intro e h
    obtain ⟨r, hr, hresolved⟩ := h e.base List.mem_cons_self
    exact source.baseName_leafUse hr hresolved
  induction e with
  | named q name => exact String.empty_append.trans (hbase _ h)
  | inline text => exact String.empty_append.trans (hbase _ h)
  | pointer elem ih => rw [layersOf, formatName_cons, TypeExpr.base, ih h]; rfl
  | slice elem ih => rw [layersOf, formatName_cons, TypeExpr.base, ih h]; rfl
  | array len elem ih => rw [layersOf, formatName_cons, TypeExpr.base, ih h]; rfl
  | chan elem ih => rw [layersOf, formatName_cons, TypeExpr.base, ih h]; rfl
  | map key value ihk ihv =>
    have hkey := ihk fun leaf hleaf => h leaf (TypeExpr.mem_leaves_key hleaf)
    have hvalue := ihv fun leaf hleaf => h leaf (TypeExpr.mem_leaves_value hleaf)
    rw [layersOf, formatName_cons, TypeExpr.base, hvalue]
    simp only [TypeLayer.render, TypeUse.within, hkey, TypeExpr.plain, TypeExpr.render]

example :
    (TypeExpr.map (.named (some "q") "K") (.slice (.inline "interface \x7b\x7d"))).plain.render =
      "map[K][]any" := by
  decide

/-- A use is by reference if its expression is a pointer. -/
theorem isByReference_useOf (e : TypeExpr) :
    (source.useOf file packagePath e).isByReference = true ↔ ∃ elem, e = .pointer elem := by
  show decide ((source.layersOf file packagePath e).head? = some .pointer) = true ↔ _
  cases e <;> simp [layersOf]

end PackageSource

/-! ## Visits that succeed -/

/-- Of several programs that succeed one after the other, those that stand together have succeeded
one after the other. -/
theorem Build.exists_exec_of_infix {α : Type} {f : α → Build Unit} {l l' : List α}
    {s s' : BuildState} (h : exec (l.forM f) s = (.ok (), s')) (hl : l' <:+: l) :
    ∃ t t', exec (l'.forM f) t = (.ok (), t') := by
  have happend : ∀ {l₁ l₂ : List α} {s s' : BuildState},
      exec ((l₁ ++ l₂).forM f) s = (.ok (), s') →
      ∃ t, exec (l₁.forM f) s = (.ok (), t) ∧ exec (l₂.forM f) t = (.ok (), s') := by
    intro l₁ l₂ s s' h
    have hbind : (l₁ ++ l₂).forM f = l₁.forM f >>= fun _ => l₂.forM f := List.forM_append
    rw [hbind, exec_bind] at h
    rcases hx : exec (l₁.forM f) s with ⟨e | u, t⟩
    · rw [hx] at h
      cases h
    · rw [hx] at h
      exact ⟨t, rfl, h⟩
  obtain ⟨before, after, rfl⟩ := hl
  obtain ⟨_, h, -⟩ := happend h
  obtain ⟨t, -, h⟩ := happend h
  exact ⟨t, _, h⟩

/-- A visit that succeeds has found that all innermost types refer to something. -/
theorem resolves_of_visit {source : PackageSource Id} {expand : Expander} {file : SourceFile}
    {path : String} {e : TypeExpr} {s s' : BuildState}
    (h : exec (visit source expand file path e) s = (.ok (), s')) :
    source.Resolves file path e := by
  intro leaf hleaf
  -- Whatever the visit of other types has changed, the one of this type has succeeded.
  obtain ⟨t, t', hvisit⟩ := exists_exec_of_infix h ((List.singleton_infix_iff leaf _).2 hleaf)
  rw [exec_forM_cons] at hvisit
  obtain ⟨failure, heq, -⟩ | ⟨d, -, hr, -⟩ | ⟨r, -, hr, hresolved, -⟩ :=
    visitLeaf_cases source expand file path leaf
  · rw [heq, exec_throw] at hvisit
    cases hvisit
  · exact ⟨.declared d, hr, by simp⟩
  · exact ⟨r, hr, hresolved⟩

/-- Asking for a use visits the expression and gives its use. -/
theorem exec_typeUse_eq_ok_iff {source : PackageSource Id} {expand : Expander} {file : SourceFile}
    {path : String} {e : TypeExpr} {u : TypeUse} {s s' : BuildState} :
    exec (typeUse source expand file path e) s = (.ok u, s') ↔
      exec (visit source expand file path e) s = (.ok (), s') ∧
        u = source.useOf file path e := by
  rw [typeUse_eq, exec_map]
  rcases exec (visit source expand file path e) s with ⟨failure | ⟨⟩, t⟩
  · simp [Except.map]
  · simp [Except.map, and_comm, eq_comm]

/-- Metadata that a type expression is turned into, at some moment of a build. -/
def MetadataOf (source : PackageSource Id) (expand : Expander) (file : SourceFile) (path : String)
    (e : TypeExpr) (u : TypeUse) : Prop :=
  ∃ s s', exec (typeUse source expand file path e) s = (.ok u, s')

/-- The container in metadata that stands for the one in an expression. -/
inductive Mirrors (source : PackageSource Id) (expand : Expander) (file : SourceFile)
    (path : String) : ExprLayer → TypeLayer → Prop
  | pointer : Mirrors source expand file path .pointer .pointer
  | slice : Mirrors source expand file path .slice .slice
  | array {len : String} : Mirrors source expand file path (.array len) (.array len)
  | map {key : TypeExpr} {u : TypeUse} (h : MetadataOf source expand file path key u) :
      Mirrors source expand file path (.map key) (.map u)
  | chan : Mirrors source expand file path .chan .chan

/-- The containers in metadata stand for those of the expression if the keys of maps have metadata
themselves. -/
theorem forall₂_mirrors {source : PackageSource Id} {expand : Expander} {file : SourceFile}
    {path : String} {e : TypeExpr}
    (h : ∀ key, ExprLayer.map key ∈ e.layers →
      MetadataOf source expand file path key (source.useOf file path key)) :
    List.Forall₂ (Mirrors source expand file path) e.layers (source.layersOf file path e) := by
  induction e with
  | named q name => exact .nil
  | inline text => exact .nil
  | pointer elem ih => exact .cons .pointer (ih fun key hkey => h key (List.mem_cons_of_mem _ hkey))
  | slice elem ih => exact .cons .slice (ih fun key hkey => h key (List.mem_cons_of_mem _ hkey))
  | array len elem ih => exact .cons .array (ih fun key hkey => h key (List.mem_cons_of_mem _ hkey))
  | chan elem ih => exact .cons .chan (ih fun key hkey => h key (List.mem_cons_of_mem _ hkey))
  | map key value _ ih =>
    exact .cons (.map (h key List.mem_cons_self))
      (ih fun key hkey => h key (List.mem_cons_of_mem _ hkey))

/-! ## Builds -/

/-- No failure about a type expression says that an innermost type is no name. -/
theorem PackageSource.Tells.root_ne {source : PackageSource Id} {g : SymbolGraph}
    {file : SourceFile} {path : String} {e : TypeExpr} {failure : Failure}
    (h : source.Tells g file path e failure) (name text : String) :
    failure.root ≠ .unresolved name ("'" ++ text ++ "' is not a named type") := by
  induction h with
  | fault h =>
    cases h with
    | @unresolved leaf reason hleaf hr =>
      rw [← TypeExpr.base_of_mem_leaves _ hleaf] at hr
      intro heq
      exact source.reason_of_resolve_base hr text (Failure.unresolved.inj heq).2
    | packageLoad => intro heq; cases heq
    | givenUp =>
      intro heq
      exact Resolution.ne_of_head? (by simp) text (Failure.unresolved.inj heq).2
  | leads _ _ _ ih => exact ih

/-- Metadata mirrors the type expression it is made from. An expression is its containers around its
innermost type, and that is a name or a type without one, so no build fails because it is neither.
If an expression is turned into metadata, by whatever expands models and in whatever state, then the
containers of the two match one for one, with the metadata of the keys in place of the keys; it is a
reference if and only if the expression is a pointer; and its name is the expression without the
qualifiers of names and with `any` for empty interfaces, in the keys of maps as well. The text of
any other type without a name is kept. -/
theorem Snapshot.metadata_mirrors (s : Snapshot) (config : Config) (cache : MetadataCache) :
    (∀ e : TypeExpr, e.layers.foldr (fun layer elem => layer.wrap elem) e.base = e ∧
      ((∃ qualifier name, e.base = .named qualifier name) ∨ ∃ text, e.base = .inline text)) ∧
    (∀ (file : SourceFile) (path : String) (e : TypeExpr) (reason text : String),
      (s.source.resolveBase file path e.base).run = .ok (.unresolved reason) →
        reason ≠ "'" ++ text ++ "' is not a named type") ∧
    (∀ failure ∈ (outcome s.source config s.declarationBound s.files cache).1,
      ∀ name text, failure.root ≠ .unresolved name ("'" ++ text ++ "' is not a named type")) ∧
    ∀ (expand : Expander) (file : SourceFile) (path : String) (e : TypeExpr) (u : TypeUse),
      MetadataOf s.source expand file path e u →
        List.Forall₂ (Mirrors s.source expand file path) e.layers u.layers ∧
        (u.isByReference = true ↔ ∃ elem, e = .pointer elem) ∧ u.name = e.plain.render := by
  refine ⟨fun e => ⟨e.foldr_wrap_layers, e.base_cases⟩,
    fun file path e reason text h => s.source.reason_of_resolve_base h text, ?_, ?_⟩
  · intro failure hfailure name text
    obtain ⟨reports, heq, haccounts⟩ := s.accounted_outcome config cache
    rw [heq] at hfailure
    obtain ⟨station, -, hreport⟩ :=
      haccounts.exists_left_of_mem (List.reduceOption_mem_iff.1 hfailure)
    cases hreport with
    | missing => intro heq; cases heq
    | failed h =>
      obtain ⟨part, -, cause, rfl, htells⟩ := h
      exact htells.root_ne name text
  · rintro expand file path e u ⟨state, state', h⟩
    obtain ⟨hvisit, rfl⟩ := exec_typeUse_eq_ok_iff.1 h
    refine ⟨forall₂_mirrors fun key hkey => ?_, s.source.isByReference_useOf e,
      s.source.name_useOf (resolves_of_visit hvisit)⟩
    obtain ⟨t, t', hkeyVisit⟩ :=
      exists_exec_of_infix hvisit (TypeExpr.leaves_infix_of_mem_layers hkey)
    exact ⟨t, t', exec_typeUse_eq_ok_iff.2 ⟨hkeyVisit, rfl⟩⟩

end RouteAtlas
