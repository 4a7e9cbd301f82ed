import RouteAtlas.Proofs.Project.Declared
import RouteAtlas.Proofs.Project.Loading

/-!
# Packages that names need

The resolution of a name asks for packages: for the one that its qualifier stands for, for those
whose names a file exposes, and for the package of the file. It fails only because one of these
cannot be loaded (`Needs`, `exists_needs_of_resolve`), and a snapshot says which one
(`Snapshot.blamesPackages`).
-/

set_option autoImplicit false

namespace RouteAtlas

namespace PackageSource

variable (source : PackageSource Id)

/-- The packages that the resolution of a name in a file of a package may ask for. -/
inductive Needs (file : SourceFile) (packagePath : String) : TypeExpr → String → Prop
  /-- The package of the import that is called like the qualifier. -/
  | imported {qualifier name : String} {i : Import}
      (hname : file.importByName? qualifier = some i) (horigin : source.origin i.path ≠ .standard) :
      Needs file packagePath (.named (some qualifier) name) i.path
  /-- If no import is, each package of the module that may call itself like the qualifier. -/
  | candidate {qualifier name : String} {i : Import}
      (hname : file.importByName? qualifier = none) (hi : i ∈ file.imports)
      (hkind : i.kind = .plain) (horigin : source.origin i.path = .sameModule) :
      Needs file packagePath (.named (some qualifier) name) i.path
  /-- A package whose names the file exposes. -/
  | exposed {name : String} {i : Import} (hi : i ∈ file.dotImports)
      (horigin : source.origin i.path ≠ .standard) :
      Needs file packagePath (.named none name) i.path
  /-- The package of the file. -/
  | own {name : String} : Needs file packagePath (.named none name) packagePath

/-- A source that says of a package that cannot be loaded which one it is. -/
def BlamesPackages : Prop :=
  ∀ path failure, (source.package path).run = .error failure →
    ∃ reason, failure = .packageLoad path reason

variable {source} {file : SourceFile} {packagePath : String} {failure : Failure}

/-- The package of an import that is looked at for its name cannot be loaded. -/
theorem exists_of_importOfPackage?_eq_error {qualifier : String} {imports : List Import}
    (h : (source.importOfPackage? qualifier imports).run = .error failure) :
    ∃ i ∈ imports, i.kind = .plain ∧ source.origin i.path = .sameModule ∧
      (source.package i.path).run = .error failure := by
  induction imports with
  | nil => cases h
  | cons i rest ih =>
    have hrest : (source.importOfPackage? qualifier rest).run = .error failure →
        ∃ j ∈ i :: rest, j.kind = .plain ∧ source.origin j.path = .sameModule ∧
          (source.package j.path).run = .error failure := by
      intro h
      obtain ⟨j, hj, hcandidate⟩ := ih h
      exact ⟨j, List.mem_cons_of_mem i hj, hcandidate⟩
    rw [importOfPackage?] at h
    split at h
    · exact hrest h
    · rename_i hplain
      rcases run_bind_eq_error h with hpackage | ⟨package, -, h⟩
      · refine ⟨i, List.mem_cons_self, ?_, ?_, hpackage⟩
        · by_contra hne
          simp [hne] at hplain
        · by_contra hne
          simp [hne] at hplain
      · split at h
        · cases h
        · exact hrest h

/-- A package whose names are exposed cannot be loaded. -/
theorem exists_of_findExposed?_eq_error {name : String} {imports : List Import}
    (h : (source.findExposed? name imports).run = .error failure) :
    ∃ i ∈ imports, source.origin i.path ≠ .standard ∧
      (source.package i.path).run = .error failure := by
  induction imports with
  | nil => cases h
  | cons i rest ih =>
    have hrest : (source.findExposed? name rest).run = .error failure →
        ∃ j ∈ i :: rest, source.origin j.path ≠ .standard ∧
          (source.package j.path).run = .error failure := by
      intro h
      obtain ⟨j, hj, hexposed⟩ := ih h
      exact ⟨j, List.mem_cons_of_mem i hj, hexposed⟩
    rw [findExposed?] at h
    split at h
    · exact hrest h
    · rename_i horigin
      rcases run_bind_eq_error h with hpackage | ⟨package, -, h⟩
      · exact ⟨i, List.mem_cons_self, by simpa using horigin, hpackage⟩
      · cases hfound : Resolution.declaredIn? package name .dot with
        | none =>
          rw [hfound] at h
          exact hrest h
        | some found =>
          rw [hfound] at h
          cases h

/-- A qualified name cannot be resolved because a package that it needs cannot be loaded. -/
theorem exists_needs_of_resolveQualified {qualifier name : String}
    (h : (source.resolveQualified file qualifier name).run = .error failure) :
    ∃ path, source.Needs file packagePath (.named (some qualifier) name) path ∧
      (source.package path).run = .error failure := by
  rw [resolveQualified] at h
  rcases run_bind_eq_error h with hfind | ⟨found, hfind, h⟩
  · rw [findImport?] at hfind
    cases hname : file.importByName? qualifier with
    | some i =>
      rw [hname] at hfind
      cases hfind
    | none =>
      rw [hname] at hfind
      obtain ⟨i, hi, hkind, horigin, hpackage⟩ := exists_of_importOfPackage?_eq_error hfind
      exact ⟨i.path, .candidate hname hi hkind horigin, hpackage⟩
  · cases found with
    | none => cases h
    | some i =>
      simp only at h
      split at h
      · cases h
      · rename_i horigin
        rcases run_bind_eq_error h with hpackage | ⟨package, -, h⟩
        · rcases of_findImport?_eq_some hfind with hname | ⟨-, -, package, hpackage'⟩
          · exact ⟨i.path, .imported hname (by simpa using horigin), hpackage⟩
          · rw [hpackage'] at hpackage
            cases hpackage
        · cases h

/-- A name alone cannot be resolved because a package that it needs cannot be loaded. -/
theorem exists_needs_of_resolveUnqualified {name : String}
    (h : (source.resolveUnqualified file packagePath name).run = .error failure) :
    ∃ path, source.Needs file packagePath (.named none name) path ∧
      (source.package path).run = .error failure := by
  rw [resolveUnqualified] at h
  rcases run_bind_eq_error h with hexposed | ⟨found, -, h⟩
  · obtain ⟨i, hi, horigin, hpackage⟩ := exists_of_findExposed?_eq_error hexposed
    exact ⟨i.path, .exposed hi horigin, hpackage⟩
  · cases found with
    | some r => cases h
    | none =>
      rcases run_bind_eq_error h with hpackage | ⟨package, -, h⟩
      · exact ⟨packagePath, .own, hpackage⟩
      · split at h
        · cases h
        · split at h <;> cases h

/-- The resolution of a name fails only because a package it needs cannot be loaded. -/
theorem exists_needs_of_resolve {leaf : TypeExpr}
    (h : source.resolve file packagePath leaf = .error failure) :
    ∃ path, source.Needs file packagePath leaf path ∧
      (source.package path).run = .error failure := by
  rw [resolve] at h
  cases leaf with
  | named qualifier name =>
    cases qualifier with
    | some q => exact exists_needs_of_resolveQualified h
    | none => exact exists_needs_of_resolveUnqualified h
  | inline text =>
    simp only [resolveBase] at h
    split at h <;> cases h
  | _ => cases h

end PackageSource

/-- A snapshot says of a package that cannot be loaded which one it is. -/
theorem Snapshot.blamesPackages (s : Snapshot) : s.source.BlamesPackages := by
  intro path failure h
  have h : s.package path = .error failure := h
  rw [package_eq_load] at h
  obtain ⟨reason, hfailure, -⟩ := ModuleRoot.exists_of_load s.failsUnreadably_file h
  exact ⟨reason, hfailure⟩

end RouteAtlas
