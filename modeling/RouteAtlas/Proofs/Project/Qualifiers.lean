import RouteAtlas.Project.Resolution
import RouteAtlas.Project.Snapshot
import RouteAtlas.Proofs.Outcome

/-!
# What qualifiers stand for

The language binds a qualifier to the import that has it as its alias, or else to the one whose
package calls itself so (`PackageSource.Binds`). The resolution of a name asks the imports before it
asks the packages: it takes the first import that is called like the qualifier
(`SourceFile.FirstCalled`), where an import without an alias is called after its path. So the name
is looked up in the package of the bound import when no import is called like the qualifier, or the
first one that is leads to the same package, and only then (`PackageSource.resolveName_bound`).
-/

set_option autoImplicit false

namespace RouteAtlas

namespace Import

/-- A file refers to an import by a name, as far as the import alone tells. -/
structure IsCalled (i : Import) (q : String) : Prop where
  notDot : i.kind ≠ .dot
  notBlank : i.kind ≠ .blank
  name : i.defaultName = q

/-- Whether an import has a name as its alias. -/
def hasAlias (q : String) (i : Import) : Bool := i.kind == .renamed && i.newName == some q

/-- An import that has a name as its alias is called so. -/
theorem isCalled_of_hasAlias {q : String} {i : Import} (h : i.hasAlias q = true) :
    i.IsCalled q := by
  obtain ⟨hkind, hname⟩ := (Bool.and_eq_true _ _).mp h
  have hkind : i.kind = .renamed := eq_of_beq hkind
  have hname : i.newName = some q := eq_of_beq hname
  exact ⟨by simp [hkind], by simp [hkind], by simp [defaultName, hname]⟩

end Import

namespace SourceFile

/-- The first import of a file that is called by a name. -/
def FirstCalled (file : SourceFile) (q : String) (i : Import) : Prop :=
  ∃ before after, file.imports = before ++ i :: after ∧ i.IsCalled q ∧
    ∀ j ∈ before, ¬ j.IsCalled q

variable {file : SourceFile} {q : String}

/-- The import that a file refers to by a name is the first one that is called so. -/
theorem importByName?_eq_some_iff {i : Import} :
    file.importByName? q = some i ↔ file.FirstCalled q i := by
  have hcalled : ∀ j : Import,
      (((j.kind != .dot && j.kind != .blank) && j.defaultName == q) = true) ↔ j.IsCalled q := by
    intro j
    simp only [Bool.and_eq_true, bne_iff_ne, beq_iff_eq]
    exact ⟨fun ⟨⟨hdot, hblank⟩, hname⟩ => ⟨hdot, hblank, hname⟩,
      fun h => ⟨⟨h.notDot, h.notBlank⟩, h.name⟩⟩
  rw [importByName?, List.find?_filter, List.find?_eq_some_iff_append]
  simp only [Bool.decide_and, Bool.decide_eq_true, Bool.not_eq_true', ← Bool.not_eq_true, hcalled]
  constructor
  · rintro ⟨hi, before, after, himports, hbefore⟩
    exact ⟨before, after, himports, hi, hbefore⟩
  · rintro ⟨before, after, himports, hi, hbefore⟩
    exact ⟨hi, before, after, himports, hbefore⟩

/-- When a name refers to no import, none is called so. -/
theorem not_isCalled_of_importByName?_eq_none (h : file.importByName? q = none) {i : Import}
    (hi : i ∈ file.imports) : ¬ i.IsCalled q := by
  intro hcalled
  rw [importByName?, List.find?_eq_none] at h
  refine h i (List.mem_filter.2 ⟨hi, ?_⟩) (beq_iff_eq.2 hcalled.name)
  simp [hcalled.notDot, hcalled.notBlank]

/-- The first import of a name is one of the file. -/
theorem FirstCalled.mem {i : Import} (h : file.FirstCalled q i) : i ∈ file.imports := by
  obtain ⟨before, after, himports, -⟩ := h
  rw [himports]
  exact List.mem_append_right before List.mem_cons_self

/-- Only one import is the first that is called by a name. -/
theorem FirstCalled.unique {i j : Import} (hi : file.FirstCalled q i)
    (hj : file.FirstCalled q j) : i = j :=
  Option.some.inj ((importByName?_eq_some_iff.2 hi).symm.trans (importByName?_eq_some_iff.2 hj))

end SourceFile

/-- What looking a name up in a package gives, for a name that an import of some kind brings in. -/
inductive Package.LooksUp (p : Package) (name : String) (kind : ImportKind) : Resolution → Prop
  | declared {f : SourceFile} {d : TypeDecl} (h : p.findType? name = some (f, d)) :
      p.LooksUp name kind (.declared ⟨⟨p.importPath, name⟩, p, f, d, kind⟩)
  | unresolved (h : p.findType? name = none) :
      p.LooksUp name kind (.unresolved ("type not found in package '" ++ p.importPath ++ "'"))

namespace PackageSource

variable (source : PackageSource Id)

/-- All imports of a file lead into the module, and their packages can be loaded. -/
def LoadsImports (file : SourceFile) : Prop :=
  ∀ i ∈ file.imports,
    source.origin i.path = .sameModule ∧ ∃ p, (source.package i.path).run = .ok p

/-- Whether an import is under its usual name, and its package calls itself by a name. -/
def hasClause (q : String) (i : Import) : Bool :=
  i.kind == .plain &&
    match (source.package i.path).run with
    | .ok p => p.name == q
    | .error _ => false

/-- The import that the language binds a qualifier to. It is the only one that has the qualifier as
its alias, or the only one whose package calls itself so. A qualifier that would be bound in both
ways is bound in neither. -/
inductive Binds (file : SourceFile) (q : String) (i : Import) : Prop
  | byAlias (halias : file.imports.filter (Import.hasAlias q) = [i])
      (hclause : (file.imports.filter (source.hasClause q)).length ≠ 1)
  | byClause (hclause : file.imports.filter (source.hasClause q) = [i])
      (halias : (file.imports.filter (Import.hasAlias q)).length ≠ 1)

variable {source} {file : SourceFile} {q : String}

/-- The import that a qualifier is bound to is one of the file. -/
theorem Binds.mem {i : Import} (h : source.Binds file q i) : i ∈ file.imports := by
  cases h with
  | byAlias halias _ => exact (List.mem_filter.1 (halias ▸ List.mem_singleton_self i)).1
  | byClause hclause _ => exact (List.mem_filter.1 (hclause ▸ List.mem_singleton_self i)).1

/-- When packages can be loaded, the search for one that calls itself by a name goes through all
of them. -/
theorem importOfPackage?_eq_find? {imports : List Import}
    (hload : ∀ i ∈ imports,
      source.origin i.path = .sameModule ∧ ∃ p, (source.package i.path).run = .ok p) :
    (source.importOfPackage? q imports).run = .ok (imports.find? (source.hasClause q)) := by
  induction imports with
  | nil => rfl
  | cons i rest ih =>
    have hrest := ih fun j hj => hload j (List.mem_cons_of_mem i hj)
    obtain ⟨horigin, p, hp⟩ := hload i List.mem_cons_self
    rw [importOfPackage?, List.find?_cons]
    by_cases hkind : i.kind = .plain
    · have hclause : source.hasClause q i = (p.name == q) := by
        simp [hasClause, hkind, hp]
      rw [hclause]
      simp only [hkind, horigin, bne_self_eq_false, Bool.or_self, Bool.false_eq_true, if_false]
      rw [run_bind_eq, hp]
      show ExceptT.run (if (p.name == q) = true then _ else _) = _
      cases p.name == q with
      | true => rfl
      | false => exact hrest
    · have hclause : source.hasClause q i = false := by
        simp [hasClause, hkind]
      simp only [hclause, bne_iff_ne.2 hkind, Bool.true_or, if_true]
      exact hrest

/-- The import that is taken for a qualifier the language binds to `i`: the first one that is
called like it, or `i` itself when none is. -/
inductive Taken (file : SourceFile) (q : String) (i : Import) : Import → Prop
  | called {j : Import} (h : file.FirstCalled q j) : Taken file q i j
  | bound (h : ∀ j, ¬ file.FirstCalled q j) : Taken file q i i

/-- A bound qualifier always names an import. -/
theorem exists_findImport?_eq_ok {i : Import} (hload : source.LoadsImports file)
    (hbinds : source.Binds file q i) :
    ∃ j ∈ file.imports, Taken file q i j ∧
      (source.findImport? file q).run = .ok (some j) := by
  rw [findImport?]
  cases hname : file.importByName? q with
  | some j =>
    have hfirst := SourceFile.importByName?_eq_some_iff.1 hname
    exact ⟨j, hfirst.mem, .called hfirst, rfl⟩
  | none =>
    have hnone : ∀ j, ¬ file.FirstCalled q j := by
      intro j hj
      rw [SourceFile.importByName?_eq_some_iff.2 hj] at hname
      cases hname
    refine ⟨i, hbinds.mem, .bound hnone, ?_⟩
    show (source.importOfPackage? q file.imports).run = _
    rw [importOfPackage?_eq_find? hload, ← List.head?_filter]
    cases hbinds with
    | byClause hclause _ =>
      rw [hclause]
      rfl
    | byAlias halias _ =>
      have hi : i ∈ file.imports.filter (Import.hasAlias q) := halias ▸ List.mem_singleton_self i
      obtain ⟨hmem, hi⟩ := List.mem_filter.1 hi
      exact absurd (Import.isCalled_of_hasAlias hi)
        (SourceFile.not_isCalled_of_importByName?_eq_none hname hmem)

/-- What a qualified name refers to, once its qualifier names an import that can be loaded. -/
theorem exists_resolveQualified_eq_ok {j : Import} {p : Package} (name : String)
    (hfind : (source.findImport? file q).run = .ok (some j))
    (horigin : source.origin j.path = .sameModule) (hp : (source.package j.path).run = .ok p) :
    ∃ r, p.LooksUp name j.kind r ∧ (source.resolveQualified file q name).run = .ok r := by
  have hrun : (source.resolveQualified file q name).run =
      .ok ((Resolution.declaredIn? p name j.kind).getD
        (.unresolved ("type not found in package '" ++ p.importPath ++ "'"))) := by
    rw [resolveQualified, run_bind_eq, hfind]
    show ExceptT.run (if (source.origin j.path == .standard) = true then _ else _) = _
    rw [horigin]
    show ExceptT.run (source.package j.path >>= _) = _
    rw [run_bind_eq, hp]
    rfl
  refine ⟨_, ?_, hrun⟩
  rw [Resolution.declaredIn?]
  cases hfound : p.findType? name with
  | none => exact .unresolved hfound
  | some found => exact .declared hfound

/-! ## The theorem -/

/-- What a name behind a qualifier refers to, in a file whose imports all lead into the module and
can be loaded, when the language binds the qualifier to the import `i`. The name is looked up in the
package of the first import that is called like the qualifier, or of `i` itself when there is none;
so it is looked up in the package of `i` exactly when the first import that is called like the
qualifier, if any, has the path of `i`. -/
theorem resolveName_bound {i : Import} (packagePath name : String)
    (hload : source.LoadsImports file) (hbinds : source.Binds file q i) :
    ∃ j ∈ file.imports, Taken file q i j ∧
      (j.path = i.path ↔ ∀ k, file.FirstCalled q k → k.path = i.path) ∧
      ∃ p r, (source.package j.path).run = .ok p ∧ p.LooksUp name j.kind r ∧
        (source.resolveName file packagePath (some q) name).run = .ok r := by
  obtain ⟨j, hj, htaken, hfind⟩ := exists_findImport?_eq_ok hload hbinds
  obtain ⟨horigin, p, hp⟩ := hload j hj
  obtain ⟨r, hlooksUp, hrun⟩ := exists_resolveQualified_eq_ok name hfind horigin hp
  refine ⟨j, hj, htaken, ?_, p, r, hp, hlooksUp, hrun⟩
  cases htaken with
  | called hfirst =>
    constructor
    · intro hpath k hk
      rw [hk.unique hfirst, hpath]
    · intro hall
      exact hall j hfirst
  | bound hnone => exact ⟨fun _ k hk => absurd hk (hnone k), fun _ => rfl⟩

/-! ## A directory called like another package -/

/-- A module in which the package of one directory has the name of another directory, with a file
that imports both. -/
def crossNamed : FileTree where
  entries :=
    [(["p"], .directory),
     (["p", "go.mod"], .file "module app\n".toUTF8 0),
     (["p", "a.go"], .file "package app\nimport (\n\t\"app/foo\"\n\t\"app/x\"\n)\n".toUTF8 0),
     (["p", "foo"], .directory),
     (["p", "foo", "f.go"], .file "package bar\ntype U struct\x7b\x7d\n".toUTF8 0),
     (["p", "x"], .directory),
     (["p", "x", "x.go"], .file "package foo\ntype T struct\x7b\x7d\n".toUTF8 0)]
  workDir := ["p"]

/-- The packages of the project. -/
def crossNamedSource : PackageSource Id :=
  Snapshot.source ⟨.ofTree crossNamed ⟨"/p"⟩, crossNamed, crossNamed.sources, rfl, []⟩

/-- The file that imports both packages. -/
def crossNamedFile : SourceFile :=
  .read ⟨"/p/a.go"⟩ "package app\nimport (\n\t\"app/foo\"\n\t\"app/x\"\n)\n".toUTF8

/-- Both packages that the file imports can be loaded. -/
theorem loadsImports_crossNamed : crossNamedSource.LoadsImports crossNamedFile := by
  have hall : (crossNamedFile.imports.all fun i =>
      crossNamedSource.origin i.path == .sameModule &&
        (crossNamedSource.package i.path).run.toOption.isSome) = true := by decide +kernel
  intro i hi
  obtain ⟨horigin, hsome⟩ := (Bool.and_eq_true _ _).mp (List.all_eq_true.1 hall i hi)
  refine ⟨eq_of_beq horigin, ?_⟩
  cases hp : (crossNamedSource.package i.path).run with
  | ok p => exact ⟨p, rfl⟩
  | error e =>
    rw [hp] at hsome
    cases hsome

/-- The qualifier `bar` stands for the package of the directory `foo`. -/
theorem resolveName_bound_crossNamed :
    ∃ i, crossNamedSource.LoadsImports crossNamedFile ∧
      crossNamedSource.Binds crossNamedFile "bar" i ∧ i.path = "app/foo" ∧
      ∃ j ∈ crossNamedFile.imports, Taken crossNamedFile "bar" i j ∧
        (j.path = i.path ↔ ∀ k, crossNamedFile.FirstCalled "bar" k → k.path = i.path) ∧
        ∃ p r, (crossNamedSource.package j.path).run = .ok p ∧ p.LooksUp "U" j.kind r ∧
          (crossNamedSource.resolveName crossNamedFile "app" (some "bar") "U").run = .ok r := by
  have hpath : (crossNamedFile.imports.filter (crossNamedSource.hasClause "bar")).map (·.path) =
      ["app/foo"] := by decide +kernel
  obtain ⟨i, hclause, hi⟩ := List.map_eq_singleton_iff.1 hpath
  have hbinds : crossNamedSource.Binds crossNamedFile "bar" i :=
    .byClause hclause (by decide +kernel)
  exact ⟨i, loadsImports_crossNamed, hbinds, hi,
    resolveName_bound "app" "U" loadsImports_crossNamed hbinds⟩

/-- The qualifier `foo` is bound to the import of the directory `x`, whose package declares `T`. But
the import of the directory `foo` is called so, and `T` is not found in its package. -/
theorem bound_passedOver :
    ∃ i p, crossNamedSource.LoadsImports crossNamedFile ∧
      crossNamedSource.Binds crossNamedFile "foo" i ∧
      (crossNamedSource.package i.path).run = .ok p ∧ (p.findType? "T").isSome ∧
      (crossNamedSource.resolveName crossNamedFile "app" (some "foo") "T").run =
        .ok (.unresolved "type not found in package 'app/foo'") := by
  have hpath : (crossNamedFile.imports.filter (crossNamedSource.hasClause "foo")).map (·.path) =
      ["app/x"] := by decide +kernel
  obtain ⟨i, hclause, hi⟩ := List.map_eq_singleton_iff.1 hpath
  have hbinds : crossNamedSource.Binds crossNamedFile "foo" i :=
    .byClause hclause (by decide +kernel)
  obtain ⟨p, hp, hfound⟩ := exists_eq_ok (x := (crossNamedSource.package "app/x").run)
    (f := fun p => (p.findType? "T").isSome) (b := true) (by decide +kernel)
  obtain ⟨r, hr, rfl⟩ := exists_eq_ok
    (x := (crossNamedSource.resolveName crossNamedFile "app" (some "foo") "T").run) (f := id)
    (b := .unresolved "type not found in package 'app/foo'") (by decide +kernel)
  exact ⟨i, p, loadsImports_crossNamed, hbinds, hi ▸ hp, hfound, hr⟩

end PackageSource

end RouteAtlas
