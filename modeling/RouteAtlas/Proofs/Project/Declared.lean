import RouteAtlas.Proofs.Expansion.References
import RouteAtlas.Proofs.Outcome

/-!
# What names resolve to

A declaration that a name resolves to is the one of its identity: its package is found under the
path in the identity, and its file and its type under the name. So two declarations with one
identity agree in everything but the way their names came into a file.
-/

set_option autoImplicit false

namespace RouteAtlas

namespace PackageSource

variable (source : PackageSource Id)

/-- A source whose packages know the import paths they are found under. -/
def Lawful : Prop :=
  ∀ path package, (source.package path).run = .ok package → package.importPath = path

/-- A declaration that is found under its identity. -/
structure Declares (d : ResolvedDecl) : Prop where
  package : (source.package d.id.package).run = .ok d.package
  importPath : d.package.importPath = d.id.package
  found : d.package.findType? d.id.name = some (d.file, d.decl)

/-- One identity has one declaration. -/
theorem Declares.unique {source : PackageSource Id} {d d' : ResolvedDecl}
    (h : source.Declares d) (h' : source.Declares d') (hid : d.id = d'.id) :
    d.package = d'.package ∧ d.file = d'.file ∧ d.decl = d'.decl := by
  have hpackage : d.package = d'.package :=
    Except.ok.inj (h.package.symm.trans (hid ▸ h'.package))
  have hfound := h.found.symm.trans (hpackage ▸ hid ▸ h'.found)
  simp only [Option.some.injEq, Prod.mk.injEq] at hfound
  exact ⟨hpackage, hfound.1, hfound.2⟩

/-- A declaration that a name in a file of a package resolves to: it is found in a package that the
file imports, or in the package itself. -/
structure Finds (file : SourceFile) (packagePath : String) (d : ResolvedDecl) : Prop where
  declares : source.Declares d
  near : d.id.package = packagePath ∨ ∃ i ∈ file.imports, d.id.package = i.path

variable {source} {file : SourceFile} {packagePath : String} {d : ResolvedDecl}

/-- What is found by its name in a package is declared there. -/
theorem declares_of_declaredIn? (hs : source.Lawful) {path name : String} {package : Package}
    {kind : ImportKind} (hp : (source.package path).run = .ok package)
    (h : Resolution.declaredIn? package name kind = some (.declared d)) :
    source.Declares d ∧ d.id.package = path := by
  have hpath := hs path package hp
  obtain ⟨⟨f, decl⟩, hfound, heq⟩ := Option.map_eq_some_iff.1 h
  simp only [Resolution.declared.injEq] at heq
  subst heq
  exact ⟨⟨by simpa [hpath] using hp, rfl, hfound⟩, hpath⟩

/-- What is found in the packages that a file exposes. -/
theorem finds_of_findExposed? (hs : source.Lawful) {name : String} {imports : List Import}
    {r : Resolution} (h : (source.findExposed? name imports).run = .ok (some r)) :
    ∃ d, r = .declared d ∧ source.Declares d ∧ ∃ i ∈ imports, d.id.package = i.path := by
  induction imports with
  | nil => cases h
  | cons i rest ih =>
    rw [findExposed?] at h
    split at h
    · obtain ⟨d, hr, hd, j, hj, hpath⟩ := ih h
      exact ⟨d, hr, hd, j, by simp [hj], hpath⟩
    · obtain ⟨package, hp, h⟩ := run_bind_eq_ok h
      cases hfound : Resolution.declaredIn? package name .dot with
      | none =>
        rw [hfound] at h
        obtain ⟨d, hr, hd, j, hj, hpath⟩ := ih h
        exact ⟨d, hr, hd, j, by simp [hj], hpath⟩
      | some found =>
        rw [hfound] at h
        obtain rfl : found = r := Option.some.inj (Except.ok.inj h)
        obtain ⟨⟨f, decl⟩, -, rfl⟩ := Option.map_eq_some_iff.1 hfound
        obtain ⟨hd, hpath⟩ := declares_of_declaredIn? hs hp hfound
        exact ⟨_, rfl, hd, i, by simp, hpath⟩

/-- An import that is looked at for its name has a package that can be loaded. -/
theorem of_importOfPackage?_eq_some {qualifier : String} {imports : List Import} {i : Import}
    (h : (source.importOfPackage? qualifier imports).run = .ok (some i)) :
    i ∈ imports ∧ ∃ package, (source.package i.path).run = .ok package := by
  induction imports with
  | nil => cases h
  | cons j rest ih =>
    rw [importOfPackage?] at h
    split at h
    · exact (ih h).imp_left (List.mem_cons_of_mem j)
    · obtain ⟨package, hpackage, h⟩ := run_bind_eq_ok h
      split at h
      · obtain rfl : j = i := Option.some.inj (Except.ok.inj h)
        exact ⟨List.mem_cons_self, package, hpackage⟩
      · exact (ih h).imp_left (List.mem_cons_of_mem j)

/-- An import that a qualifier names is called like it, or it is one of those that are looked at for
their names. -/
theorem of_findImport?_eq_some {qualifier : String} {i : Import}
    (h : (source.findImport? file qualifier).run = .ok (some i)) :
    file.importByName? qualifier = some i ∨ (file.importByName? qualifier = none ∧
      i ∈ file.imports ∧ ∃ package, (source.package i.path).run = .ok package) := by
  rw [findImport?] at h
  cases hname : file.importByName? qualifier with
  | none =>
    rw [hname] at h
    exact .inr ⟨rfl, of_importOfPackage?_eq_some h⟩
  | some j =>
    rw [hname] at h
    exact .inl (Except.ok.inj h)

/-- The import that a qualifier names is one of the file. -/
theorem mem_imports_of_findImport? {qualifier : String} {i : Import}
    (h : (source.findImport? file qualifier).run = .ok (some i)) : i ∈ file.imports := by
  rcases of_findImport?_eq_some h with hname | ⟨-, hi, -⟩
  · exact List.mem_of_mem_filter (List.mem_of_find?_eq_some hname)
  · exact hi

/-- What a qualified name leads to is found through an import of the file. -/
theorem finds_of_resolveQualified (hs : source.Lawful) {qualifier name : String}
    (h : (source.resolveQualified file qualifier name).run = .ok (.declared d)) :
    source.Finds file packagePath d := by
  rw [resolveQualified] at h
  obtain ⟨found, himport, h⟩ := run_bind_eq_ok h
  cases found with
  | none => cases h
  | some i =>
    simp only at h
    split at h
    · cases h
    · obtain ⟨package, hp, h⟩ := run_bind_eq_ok h
      cases hfound : Resolution.declaredIn? package name i.kind with
      | none =>
        rw [hfound] at h
        cases h
      | some r =>
        rw [hfound] at h
        obtain rfl : r = .declared d := Except.ok.inj h
        obtain ⟨hd, hpath⟩ := declares_of_declaredIn? hs hp hfound
        exact ⟨hd, .inr ⟨i, mem_imports_of_findImport? himport, hpath⟩⟩

/-- What a name alone leads to is found in the package or through an import without qualifier. -/
theorem finds_of_resolveUnqualified (hs : source.Lawful) {name : String}
    (h : (source.resolveUnqualified file packagePath name).run = .ok (.declared d)) :
    source.Finds file packagePath d := by
  rw [resolveUnqualified] at h
  obtain ⟨found, hexposed, h⟩ := run_bind_eq_ok h
  cases found with
  | some r =>
    obtain rfl : r = .declared d := Except.ok.inj h
    obtain ⟨d', hr, hd, i, hi, hpath⟩ := finds_of_findExposed? hs hexposed
    cases hr
    exact ⟨hd, .inr ⟨i, List.mem_of_mem_filter hi, hpath⟩⟩
  | none =>
    obtain ⟨package, hp, h⟩ := run_bind_eq_ok h
    cases hfound : Resolution.declaredIn? package name .samePackage with
    | some r =>
      rw [hfound] at h
      obtain rfl : r = .declared d := Except.ok.inj h
      obtain ⟨hd, hpath⟩ := declares_of_declaredIn? hs hp hfound
      exact ⟨hd, .inl hpath⟩
    | none =>
      rw [hfound] at h
      simp only at h
      split at h <;> cases h

/-- A declaration that an expression resolves to is found from its file. -/
theorem finds_of_resolve (hs : source.Lawful) {leaf : TypeExpr}
    (h : source.resolve file packagePath leaf = .ok (.declared d)) :
    source.Finds file packagePath d := by
  rw [resolve] at h
  cases leaf with
  | named qualifier name =>
    cases qualifier with
    | some q => exact finds_of_resolveQualified hs h
    | none => exact finds_of_resolveUnqualified hs h
  | inline text =>
    have h : (if Resolution.isEmptyInterface text then (return .predeclared "any")
      else (return .inline text) : ExceptT Failure Id Resolution).run = .ok (.declared d) := h
    split at h <;> cases h
  | _ => cases h

/-- Only a name without containers resolves to a declaration. -/
theorem base_of_resolve {leaf : TypeExpr}
    (h : source.resolve file packagePath leaf = .ok (.declared d)) : leaf.base = leaf := by
  cases leaf with
  | named qualifier name => rfl
  | inline text => rfl
  | _ => cases h

end PackageSource

end RouteAtlas
